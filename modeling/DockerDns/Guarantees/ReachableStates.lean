import DockerDns.Guarantees.HandlerEffects

/-!
# Reachable states are well formed

The record stores stay well formed through every request, hence in every state
of every run, whatever the listings, events and inspect results are.
-/
namespace DockerDns.Guarantees
open Library Source

/-- The forward zone holds an A or AAAA record of the name with this address. -/
def Address (m : Monitor) (n : LowerName) (ip : IpAddr) : Prop :=
  Has m.authorityWrapper (.address n ip)

instance (m : Monitor) (n : LowerName) (ip : IpAddr) : Decidable (Address m n ip) :=
  inferInstanceAs (Decidable (Holds m.authorityWrapper.forward.records n (RData.ofIp ip)))

/-- Some tracked container has the name, ignoring case, and has recorded the address. -/
def Owned (m : Monitor) (n : LowerName) (ip : IpAddr) : Prop :=
  ∃ id state, m.containers.lookup id = some state ∧ Named state.names n ∧
    Recorded state.networks ip

/-- A tracked container other than `id` has the name and has recorded the address. -/
def OwnedByOther (m : Monitor) (id : String) (n : LowerName) (ip : IpAddr) : Prop :=
  ∃ id' state, id' ≠ id ∧ m.containers.lookup id' = some state ∧ Named state.names n ∧
    Recorded state.networks ip

instance (names : List Name) (n : LowerName) : Decidable (Named names n) :=
  inferInstanceAs (Decidable (∃ name ∈ names, LowerName.new name = n))

instance (networks : FiniteMap String NetworkIps) (ip : IpAddr) :
    Decidable (Recorded networks ip) :=
  decidable_of_iff (∃ entry ∈ networks.entries, ip ∈ entry.2.ips) (by
    simp only [Recorded, Sigma.exists, FiniteMap.mem_entries_iff])

instance (m : Monitor) (n : LowerName) (ip : IpAddr) : Decidable (Owned m n ip) :=
  decidable_of_iff (∃ entry ∈ m.containers.entries, Named entry.2.names n ∧
      Recorded entry.2.networks ip) (by
    simp only [Owned, Sigma.exists, FiniteMap.mem_entries_iff])

instance (m : Monitor) (id : String) (n : LowerName) (ip : IpAddr) :
    Decidable (OwnedByOther m id n ip) :=
  decidable_of_iff (∃ entry ∈ m.containers.entries, entry.1 ≠ id ∧ Named entry.2.names n ∧
      Recorded entry.2.networks ip) (by
    simp only [OwnedByOther, Sigma.exists, FiniteMap.mem_entries_iff]
    grind)

section Start
variable {env : Env}

theorem startTasks_eq (laws : env.hickory.RecordLaws) :
    startTasks env = some (.new env
      ⟨env.domain, (∅ : Records).insert (soaKey env.domain) (soaSet env.domain)⟩) := by
  simp [startTasks, setUpAuthority_eq laws]

theorem startTasks_wellFormed (laws : env.hickory.RecordLaws) {m : Monitor}
    (started : startTasks env = some m) : WrapperWellFormed m.authorityWrapper := by
  rw [startTasks_eq laws] at started
  cases started
  refine ⟨fresh_wellFormed ForwardKind env.domain, ?_, ?_⟩
  · intro zone member
    cases member
  · intro net authority registered
    cases registered

/-- Before its first call the monitor tracks nothing and serves nothing. -/
theorem startTasks_empty (laws : env.hickory.RecordLaws) {m : Monitor}
    (started : startTasks env = some m) :
    m.containers = ∅ ∧ m.networks = ∅ ∧ m.authorityWrapper.reverseZones = ∅ ∧
      m.authorityWrapper.forward.origin = env.domain ∧ ∀ n ip, ¬ Address m n ip := by
  rw [startTasks_eq laws] at started
  cases started
  refine ⟨rfl, rfl, rfl, rfl, fun n ip => ?_⟩
  exact fresh_holds env.domain n (forwardKind_plain _ (RData.recordType_ofIp ip))

end Start

/-- One step keeps the stores well formed and the origin of the forward zone. -/
theorem perform_wellFormed {env : Env} (laws : env.hickory.RecordLaws) (orders : Orders)
    {m : Monitor} (wf : WrapperWellFormed m.authorityWrapper) (r : Request) :
    WrapperWellFormed (perform env orders m r).authorityWrapper ∧
      (perform env orders m r).authorityWrapper.forward.origin =
        m.authorityWrapper.forward.origin := by
  cases perform_outcome orders laws wf r with
  | unchanged same => rw [same]; exact ⟨wf, rfl⟩
  | networkRegistered _ _ frame | networkDeregistered _ frame => exact ⟨frame.wellFormed, congrArg _ frame.forward⟩
  | registered _ _ _ _ _ effect | renamed _ _ _ _ effect | died _ _ _ effect
  | connected _ _ _ _ effect | disconnected _ _ _ _ _ _ effect =>
    exact ⟨effect.wrapper.wellFormed, effect.wrapper.zones.forward⟩

/-- The forward zone of a monitor keeps the served domain as its origin. -/
structure ForwardServed (env : Env) (m : Monitor) : Prop where
  wellFormed : WrapperWellFormed m.authorityWrapper
  origin : m.authorityWrapper.forward.origin = env.domain

theorem forwardServed_start {env : Env} (laws : env.hickory.RecordLaws) {m : Monitor}
    (started : startTasks env = some m) : ForwardServed env m :=
  ⟨startTasks_wellFormed laws started, (startTasks_empty laws started).2.2.2.1⟩

theorem forwardServed_step {env : Env} (laws : env.hickory.RecordLaws) {m : Monitor} (s : Step)
    (served : ForwardServed env m) : ForwardServed env (step env m s) := by
  rw [step_eq]
  have kept := perform_wellFormed laws s.orders served.wellFormed (request env m s)
  exact ⟨kept.1, kept.2.trans served.origin⟩

/-- Every state of every run is well formed. -/
theorem forwardServed_throughout {env : Env} (laws : env.hickory.RecordLaws) {m : Monitor}
    (steps : List Step) (served : ForwardServed env m) :
    Throughout (step env) (ForwardServed env) m steps := by
  induction steps generalizing m with
  | nil => exact served
  | cons s rest ih => exact ⟨served, ih (forwardServed_step laws s served)⟩

theorem forwardServed_reached {env : Env} (laws : env.hickory.RecordLaws) {m : Monitor}
    (started : startTasks env = some m) (boot : Bootstrap) (inputs : List Input) :
    ForwardServed env (m.dockerEventMonitor env boot inputs) := by
  rw [dockerEventMonitor_eq]
  exact (forwardServed_throughout laws _ (forwardServed_start laws started)).last

/-- With no A or AAAA record left, the forward zone holds its SOA and nothing else. -/
theorem only_soa_left {env : Env} {m : Monitor} (served : ForwardServed env m)
    (empty : ∀ n ip, ¬ Address m n ip) (key : RrKey) :
    m.authorityWrapper.forward.records.lookup key =
      if key = soaKey env.domain then some (soaSet env.domain) else none := by
  have wf := served.wellFormed.forward
  rw [served.origin] at wf
  by_cases soa : key.recordType = .soa
  · exact wf.soa_lookup forwardKind_plain soa
  · rw [if_neg fun here => soa (congrArg RrKey.recordType here)]
    exact vacant_of_no_address served.wellFormed soa fun ip _ => empty key.name ip

end DockerDns.Guarantees
