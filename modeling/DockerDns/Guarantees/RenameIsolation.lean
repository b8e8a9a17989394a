import DockerDns.Guarantees.ReachableStates
import DockerDns.Source.Reference

/-!
# What a rename does to other containers

The rename moves the whole record set stored under the old name, whoever the
addresses belong to, while the other handlers work on the pairs of one
container. It leaves the others alone exactly when all it moves is the renamed
container's own.
-/
namespace DockerDns.Guarantees
open Library Source

/-- The address is recorded for the container. -/
def RecordedFor (m : Monitor) (id : String) (ip : IpAddr) : Prop :=
  ∃ state, m.containers.lookup id = some state ∧ Recorded state.networks ip

/-- The other tracked containers keep the records they have, and the new name of
the event gains only addresses recorded for its container. -/
structure RenameIsolated (env : Env) (m m' : Monitor) (event : Event) : Prop where
  others : ∀ n ip, OwnedByOther m event.actor.id n ip → Address m n ip → Address m' n ip
  gains : ∀ name new ip, event.actor.attributes.lookup "name" = some name →
    env.hickory.parse (newNameText env name) = some new → Address m' (LowerName.new new) ip →
    ¬ Address m (LowerName.new new) ip → RecordedFor m event.actor.id ip

/-- What the rename moves is owned by no other container, and is recorded for the
renamed one or stored under the new name already. -/
def MovesOwn (m : Monitor) : Request → Prop
  | .rename id old new _ => LowerName.new old ≠ LowerName.new new →
    ∀ ip, Address m (LowerName.new old) ip → ¬ OwnedByOther m id (LowerName.new old) ip ∧
      (RecordedFor m id ip ∨ Address m (LowerName.new new) ip)
  | _ => True

/-- A rename event asks for nothing, or for the rename its attributes spell. -/
theorem renameRequest_cases (env : Env) (event : Event) :
    renameRequest env event = .nothing ∨
      ∃ name old new names, event.actor.attributes.lookup "name" = some name ∧
        env.hickory.parse (newNameText env name) = some new ∧
        renameRequest env event = .rename event.actor.id old new names := by
  unfold renameRequest
  split
  next oldName name _ found =>
    split
    next old new _ parsed => exact .inr ⟨name, old, new, _, found, parsed, rfl⟩
    next => exact .inl rfl
  next => exact .inl rfl

section Step
variable {env : Env} {m : Monitor} {orders : Orders}

theorem renameIsolated_iff (laws : env.hickory.RecordLaws)
    (wf : WrapperWellFormed m.authorityWrapper) (event : Event) :
    RenameIsolated env m (perform env orders m (renameRequest env event)) event ↔
      MovesOwn m (renameRequest env event) := by
  rcases renameRequest_cases env event with none | ⟨name, old, new, names, foundName, parsed, asked⟩
  · rw [none]
    exact iff_of_true ⟨fun _ _ _ held => held, fun _ _ _ _ _ held fresh => absurd held fresh⟩ trivial
  rw [asked]
  have effect := renameRequest_effect orders laws wf event.actor.id old new names
  have address : ∀ n ip,
      Address (perform env orders m (.rename event.actor.id old new names)) n ip ↔
        (Address m n ip ∧ ¬ (n = LowerName.new old ∧ Address m (LowerName.new old) ip)) ∨
          (n = LowerName.new new ∧ Address m (LowerName.new old) ip) :=
    fun n ip => (effect.wrapper.facts (.address n ip)).trans renamed_address
  constructor
  · intro isolated different ip held
    constructor
    · intro owned
      rcases (address _ ip).mp (isolated.others _ ip owned held) with ⟨_, unmoved⟩ | ⟨same, _⟩
      · exact unmoved ⟨rfl, held⟩
      · exact different same
    · by_cases already : Address m (LowerName.new new) ip
      · exact .inr already
      · left
        apply isolated.gains name new ip foundName parsed _ already
        exact (address _ ip).mpr (.inr ⟨rfl, held⟩)
  · intro own
    constructor
    · intro n ip owned held
      apply (address n ip).mpr
      by_cases moves : n = LowerName.new old
      · subst moves
        by_cases same : LowerName.new old = LowerName.new new
        · exact .inr ⟨same, held⟩
        · exact absurd owned (own same ip held).1
      · exact .inl ⟨held, fun both => moves both.1⟩
    · intro name' new' ip foundName' parsed' gained fresh
      cases foundName.symm.trans foundName'
      cases parsed.symm.trans parsed'
      rcases (address _ ip).mp gained with ⟨held, _⟩ | ⟨_, moved⟩
      · exact absurd held fresh
      · by_cases same : LowerName.new old = LowerName.new new
        · exact absurd (same ▸ moved) fresh
        · exact (own same ip moved).2.resolve_right fresh

end Step

/-- In every reachable state, a rename event leaves the other containers alone
exactly when all it moves is its container's own. -/
theorem rename_touches_no_other {env : Env} (laws : env.hickory.RecordLaws) {m₀ : Monitor}
    (started : startTasks env = some m₀) (boot : Bootstrap) (inputs : List Input) (input : Input)
    (container : input.event.type = .container) (rename : input.event.action = "rename") :
    RenameIsolated env (m₀.dockerEventMonitor env boot inputs)
        ((m₀.dockerEventMonitor env boot inputs).handleEvent env input).1 input.event ↔
      MovesOwn (m₀.dockerEventMonitor env boot inputs) (renameRequest env input.event) := by
  have served := forwardServed_reached laws started boot inputs
  have asked : eventRequest env (m₀.dockerEventMonitor env boot inputs) input =
      renameRequest env input.event := by
    simp [eventRequest, container, rename]
  rw [handleEvent_eq, asked]
  exact renameIsolated_iff laws served.wellFormed input.event

section Runs
open Reference

/-- Two containers whose names differ in case only, which Docker allows. -/
def caseVariants : Bootstrap where
  networks := some []
  containers := some
    [⟨"c", "running", ["web"], mapOf [("bridge", v4 0xac110002#32)]⟩,
      ⟨"d", "running", ["Web"], mapOf [("bridge", v4 0xac110003#32)]⟩]

def renamedVariant : Input := renameEvent "c" "/web" "www" []

/-- The rename of one takes the record of the other. -/
theorem rename_takes_case_variant :
    OwnedByOther (monitor.dockerEventMonitor env caseVariants []) "c"
        (LowerName.new (name ["Web", "docker"])) (.v4 0xac110003#32) ∧
      ¬ RenameIsolated env (monitor.dockerEventMonitor env caseVariants [])
        ((monitor.dockerEventMonitor env caseVariants []).handleEvent env renamedVariant).1
        renamedVariant.event := by
  have owned : OwnedByOther (monitor.dockerEventMonitor env caseVariants []) "c"
      (LowerName.new (name ["Web", "docker"])) (.v4 0xac110003#32) := by decide
  refine ⟨owned, fun isolated => ?_⟩
  have kept := isolated.others _ _ owned (by decide)
  revert kept
  decide

/-- Two containers of different names. -/
def apart : Bootstrap where
  networks := some []
  containers := some
    [⟨"c", "running", ["web"], mapOf [("bridge", v4 0xac110002#32)]⟩,
      ⟨"d", "running", ["db"], mapOf [("bridge", v4 0xac110003#32)]⟩]

/-- The rename of one leaves the other alone. -/
theorem rename_touches_no_other_apart :
    RenameIsolated env (monitor.dockerEventMonitor env apart [])
      ((monitor.dockerEventMonitor env apart []).handleEvent env renamedVariant).1
      renamedVariant.event := by
  apply (rename_touches_no_other hickory_recordLaws env_started apart [] renamedVariant rfl rfl).mpr
  intro _ ip held
  obtain rfl : ip = .v4 0xac110002#32 := by
    obtain ⟨set, found, member⟩ := held
    cases ip with
    | v4 addr =>
      cases found
      have stored : (RData.ofIp (.v4 addr)).lower ∈ [RData.a 0xac110002#32] := member
      rw [List.mem_singleton] at stored
      cases stored
      rfl
    | v6 addr => cases found
  exact ⟨by decide, .inl ⟨_, rfl, by decide⟩⟩

end Runs
end DockerDns.Guarantees
