import DockerDns.Guarantees.Commutation
import DockerDns.Guarantees.RunMoments

/-!
# Answers while a step is at work

A question asked while the monitor works on a step is answered as it would have
been before the step or as it will be after it. The one exception are records
that the step takes away only to add them again: those of the addresses a
container keeps when others of the same network change, and those of a rename to
the same name in other letters.
-/
namespace DockerDns.Guarantees
open Library Source

/-- The pairs that a request takes away only to add them again. -/
def Replaced (m : Monitor) : Request → LowerName → IpAddr → Prop
  | .connect id net names ips, n, ip => Named (entryOr m id names).names n ∧ ip ∈ ips.ips ∧
    ∃ old, (entryOr m id names).networks.lookup net = some old ∧ old ≠ ips ∧ ip ∈ old.ips
  | .rename _ old new _, n, ip => LowerName.new old = n ∧ LowerName.new new = n ∧ Address m n ip
  | _, _, _ => False

/-- Whether a fact is served, told as it was or as it will be. -/
def Regular (env : Env) (orders : Orders) (m after : Monitor) (r : Request) (f : Fact)
    (served : Prop) : Prop :=
  (served ↔ Has m.authorityWrapper f) ∨ (served ↔ Has after.authorityWrapper f) ∨
    (Has m.authorityWrapper f ∧ Has after.authorityWrapper f ∧
      Region env.hickory (m.authorityWrapper.findReverseAuthority orders.reverse) (Replaced m r) f)

section Requests
variable {env : Env} {orders : Orders} {m : Monitor} {r : Request} {f : Fact}
  (laws : env.hickory.RecordLaws) (wf : WrapperWellFormed m.authorityWrapper)
include laws wf

/-- The pairs that come are there in the end. -/
theorem has_of_comes {n : LowerName} {ip : IpAddr} (comes : Comes m r n ip)
    (fact : PairFact env.hickory (m.authorityWrapper.findReverseAuthority orders.reverse) n ip f) :
    Has (perform env orders m r).authorityWrapper f := by
  cases r with
  | register id names networks =>
    obtain ⟨_, _, effect⟩ := register_effect orders laws wf id names networks
    rcases comes with ⟨name, rfl, named, reported⟩ | ⟨_, _, renames, _⟩
    · exact (effect.wrapper.facts f).mpr (.inr ⟨_, ip, ⟨⟨name, named, rfl⟩, reported⟩, fact⟩)
    · exact renames.elim
  | rename id old new names =>
    obtain ⟨rfl, held⟩ := comes_rename (r := .rename id old new names) ⟨rfl, rfl⟩ comes
    have effect := renameRequest_effect orders laws wf id old new names
    exact (effect.wrapper.facts f).mpr (.inr ⟨ip, held, fact⟩)
  | connect id net names ips =>
    have effect := connect_effect orders laws wf id net names ips
    rcases comes with ⟨name, rfl, changed, named, inside⟩ | ⟨_, _, renames, _⟩
    · rw [if_neg changed] at effect
      exact (effect.wrapper.facts f).mpr (.inr ⟨_, ip, ⟨⟨name, named, rfl⟩, inside⟩, fact⟩)
    · exact renames.elim
  | _ =>
    rcases comes with ⟨_, _, pair⟩ | ⟨_, _, renames, _⟩
    · exact pair.elim
    · exact renames.elim

/-- A pair that goes and is there in the end was added again. -/
theorem replaced_of_goes (names : env.hickory.NameLaws) {n : LowerName} {ip : IpAddr}
    (goes : Goes m r n ip)
    (fact : PairFact env.hickory (m.authorityWrapper.findReverseAuthority orders.reverse) n ip f)
    (after : Has (perform env orders m r).authorityWrapper f) : Replaced m r n ip := by
  cases r with
  | rename id old new names' =>
    have effect := renameRequest_effect orders laws wf id old new names'
    rcases goes with ⟨_, _, removed, _⟩ | ⟨_, _, ⟨rfl, rfl⟩, rfl, held⟩
    · exact removed.elim
    rcases (effect.wrapper.facts f).mp after with ⟨_, stays⟩ | ⟨ip', moved, fact'⟩
    · exact absurd ⟨ip, held, fact⟩ stays
    · exact ⟨rfl, (pairFact_inj names fact fact').1.symm, held⟩
  | die id =>
    rcases goes with ⟨name, rfl, ⟨state, tracked, named, recorded⟩, held⟩ | ⟨_, _, renames, _⟩
    · have effect := die_effect orders laws wf tracked
      have before := held.resolve_right fun comes =>
        comes.elim (fun ⟨_, _, pair⟩ => pair.elim) fun ⟨_, _, renames, _⟩ => renames.elim
      exact absurd ⟨_, ip, ⟨⟨name, named, rfl⟩, recorded⟩, before, fact⟩
        ((effect.wrapper.facts f).mp after).2
    · exact renames.elim
  | disconnect id net =>
    rcases goes with ⟨name, rfl, ⟨state, ips, tracked, connected, named, inside⟩, held⟩ |
      ⟨_, _, renames, _⟩
    · have effect := disconnect_effect orders laws wf tracked connected
      have before := held.resolve_right fun comes =>
        comes.elim (fun ⟨_, _, pair⟩ => pair.elim) fun ⟨_, _, renames, _⟩ => renames.elim
      exact absurd ⟨_, ip, ⟨⟨name, named, rfl⟩, inside⟩, before, fact⟩
        ((effect.wrapper.facts f).mp after).2
    · exact renames.elim
  | connect id net names' ips =>
    have effect := connect_effect orders laws wf id net names' ips
    rcases goes with ⟨name, rfl, ⟨old, previous, different, named, inside⟩, held⟩ |
      ⟨_, _, renames, _⟩
    · have changed : (entryOr m id names').networks.lookup net ≠ some ips := by
        rw [previous]
        exact fun same => different (Option.some.inj same)
      have again : ip ∈ ips.ips → Replaced m (.connect id net names' ips) (LowerName.new name) ip :=
        fun inside' => ⟨⟨name, named, rfl⟩, inside', old, previous, different, inside⟩
      rw [if_neg changed] at effect
      rcases held with before | ⟨_, _, _, _, inside'⟩ | ⟨_, _, renames, _⟩
      · rcases (effect.wrapper.facts f).mp after with ⟨_, stays⟩ | ⟨n', ip', ⟨_, inside'⟩, fact'⟩
        · exact absurd ⟨_, ip, ⟨⟨name, named, rfl⟩, old, previous, inside⟩, before, fact⟩ stays
        · obtain ⟨_, rfl⟩ := pairFact_inj names fact fact'
          exact again inside'
      · exact again inside'
      · exact renames.elim
    · exact renames.elim
  | _ =>
    rcases goes with ⟨_, _, removed, _⟩ | ⟨_, _, renames, _⟩
    · exact removed.elim
    · exact renames.elim

theorem regular_of_atWork (names : env.hickory.NameLaws) {w : AuthorityWrapper}
    (atWork : AtWork env orders m r w) (f : Fact) :
    Regular env orders m (perform env orders m r) r f (Has w f) := by
  by_cases held : Has w f
  · rcases atWork.known f held with before | ⟨n, ip, comes, fact⟩
    · exact .inl (iff_of_true held before)
    · exact .inr (.inl (iff_of_true held (has_of_comes laws wf comes fact)))
  · by_cases before : Has m.authorityWrapper f
    · by_cases after : Has (perform env orders m r).authorityWrapper f
      · have gone : Region env.hickory
            (m.authorityWrapper.findReverseAuthority orders.reverse) (Goes m r) f :=
          by_contra fun stays => held (atWork.kept f before stays)
        obtain ⟨n, ip, goes, fact⟩ := gone
        exact .inr (.inr ⟨before, after, n, ip, replaced_of_goes laws wf names goes fact after, fact⟩)
      · exact .inr (.inl (iff_of_false held after))
    · exact .inl (iff_of_false held before)

end Requests

/-- Every question whether a store holds a record, asked while a run is at work on
a step, is answered as before the step or as after it, or is about a record the step
takes away and adds again. -/
theorem answers_regular {env : Env} (laws : EnvLaws env) (keep : env.hickory.KeepLaws)
    {m₀ : Monitor} (started : startTasks env = some m₀) (boot : Bootstrap) (inputs : List Input) :
    Along (step env) (fun m s => ∀ schedule, ∀ entry ∈ (stepSections env s).answers
        (fun m' f => decide (Has m'.authorityWrapper f)) m schedule,
      Regular env s.orders m (step env m s) (request env m s) entry.1 (entry.2 = true)) m₀
      (runSteps boot inputs) := by
  have free : Along (step env) (fun _ _ => True) m₀ (runSteps boot inputs) :=
    along_of_forall fun _ _ => trivial
  have sound : Throughout (step env) (fun m => TableSound env.hickory m.authorityWrapper) m₀
      (runSteps boot inputs) :=
    throughout_invariant _ (fun m s sound => sound_step laws.records keep laws.names sound s)
      (sound_start laws.records started)
  refine free.imp sound fun m s sound _ schedule entry member => ?_
  have every : (stepSections env s).Every (fun m' => ∀ f, Regular env s.orders m (step env m s)
      (request env m s) f (Has m'.authorityWrapper f)) m := by
    rw [every_stepSections, step_eq]
    by_cases about : (request env m s).AboutNetworks
    · exact (every_networkMoment laws keep s.orders about sound).mono
        fun m' moment f => .inl (moment.facts f)
    · exact (every_atWork laws.records keep laws.names about sound).mono fun m' moment =>
        regular_of_atWork laws.records sound.wellFormed laws.names moment.table
  obtain ⟨seen, regular, same⟩ := every.answers _ schedule entry member
  rw [same, decide_eq_true_iff]
  exact regular entry.1

section Runs
open Reference

/-- The container at 172.17.0.2, or at another IPv4 address, and always at `fd00::2`. -/
def webDual (addr : Ipv4Addr) : Option ContainerInspect :=
  some ⟨"/web", ∅, mapOf [("bridge", ⟨some addr, some 0xfd000000000000000000000000000002#128⟩)]⟩

/-- A container with addresses of both families is connected again with another
IPv4 address. -/
theorem answers_regular_readdressed :
    Along (step env) (fun m s => ∀ schedule, ∀ entry ∈ (stepSections env s).answers
        (fun m' f => decide (Has m'.authorityWrapper f)) m schedule,
      Regular env s.orders m (step env m s) (request env m s) entry.1 (entry.2 = true)) monitor
      (runSteps ⟨some [], some [], .listed⟩ [startEvent "c" (webDual 0xac110002#32),
        connectEvent "c" "bridge" (webDual 0xac110003#32)]) :=
  answers_regular reference_laws hickory_keepLaws env_started _ _

def webIpv6 : Fact :=
  .address (LowerName.new (name ["web", "docker"])) (.v6 0xfd000000000000000000000000000002#128)

/-- The IPv6 record, which the step only replaces, is not served meanwhile. -/
example : ((stepSections env (.event (connectEvent "c" "bridge" (webDual 0xac110003#32)))).answers
      (fun m f => decide (Has m.authorityWrapper f))
      (step env monitor (.event (startEvent "c" (webDual 0xac110002#32))))
      [.ask webIpv6, .work, .work, .work, .work, .ask webIpv6]).map Prod.snd = [true, false] := by
  decide

end Runs
end DockerDns.Guarantees
