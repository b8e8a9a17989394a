import DockerDns.Guarantees.HandlerEffects
import DockerDns.Source.Assertions

/-!
# The table operations of a container's requests

Starts, connects, disconnects and dies work on the table by additions and
removals of single pairs. Which ones, and in which order, depends on the
request and on the container's entry alone, not on the table.
-/
namespace DockerDns.Guarantees
open Library Source

def addPairs (order : IterationOrder) (names : List Name) (ips : List IpAddr) : List Operation :=
  ips.flatMap fun ip => names.map fun name => .add order name ip

def removePairs (order : IterationOrder) (names : List Name) (ips : List IpAddr) :
    List Operation :=
  ips.flatMap fun ip => names.map fun name => .removeAddress order name ip

/-- The additions for one reported network: none when it has no address. -/
def reportPairs (order : IterationOrder) (names : List Name)
    (entry : Sigma fun _ : String => ContainerNetwork) : List Operation :=
  match NetworkIps.fromNetwork entry.2 with
  | none => []
  | some ips => addPairs order names ips.ips

/-- The operations of a request about the container with this entry. -/
def containerOperations (orders : Orders) (entry : Option ContainerState) : Request → List Operation
  | .register _ names networks =>
    networks.entries.flatMap (reportPairs orders.reverse (entry.getD ⟨names, ∅⟩).names)
  | .connect _ network names ips =>
    let state := entry.getD ⟨names, ∅⟩
    match state.networks.lookup network with
    | none => addPairs orders.reverse state.names ips.ips
    | some old => if old = ips then [] else
      removePairs orders.reverse state.names old.ips ++ addPairs orders.reverse state.names ips.ips
  | .disconnect _ network =>
    match entry with
    | none => []
    | some state =>
      match state.networks.lookup network with
      | none => []
      | some ips => removePairs orders.reverse state.names ips.ips
  | .die _ =>
    match entry with
    | none => []
    | some state => (orders.networks state.networks.entries).flatMap fun recorded =>
      removePairs orders.reverse state.names recorded.2.ips
  | .nothing | .rename .. | .registerNetwork .. | .deregisterNetwork _ => []

/-- The container a request is about, when it is one that works by pairs. -/
def container : Request → Option String
  | .register id _ _ | .connect id _ _ _ | .disconnect id _ | .die id => some id
  | .nothing | .rename .. | .registerNetwork .. | .deregisterNetwork _ => none

section Loops
variable {env : Env} (order : IterationOrder)

theorem addAll_eq (names : List Name) (ips : List IpAddr) (w : AuthorityWrapper) :
    Monitor.addAll env order names ips w =
      (addPairs order names ips).foldl (AuthorityWrapper.apply env.hickory) w := by
  simp only [Monitor.addAll, addPairs, List.foldl_flatMap, List.foldl_map]
  rfl

theorem removeAll_eq (names : List Name) (ips : List IpAddr) (w : AuthorityWrapper) :
    Monitor.removeAll env order names ips w =
      (removePairs order names ips).foldl (AuthorityWrapper.apply env.hickory) w := by
  simp only [Monitor.removeAll, removePairs, List.foldl_flatMap, List.foldl_map]
  rfl

theorem registerLoop_eq (entries : List (Sigma fun _ : String => ContainerNetwork))
    (acc : AuthorityWrapper × ContainerState) :
    (entries.foldl (Monitor.registerNetworkIps env order) acc).1 =
      (entries.flatMap (reportPairs order acc.2.names)).foldl
        (AuthorityWrapper.apply env.hickory) acc.1 := by
  induction entries generalizing acc with
  | nil => rfl
  | cons entry rest ih =>
    rw [List.foldl_cons, ih, List.flatMap_cons, List.foldl_append]
    unfold Monitor.registerNetworkIps reportPairs
    cases NetworkIps.fromNetwork entry.2 with
    | none => rfl
    | some ips =>
      dsimp only
      rw [addAll_eq]

end Loops

/-- A request works on the table by its operations, computed from the entry of
its container. -/
theorem perform_operations (env : Env) (orders : Orders) (m : Monitor) {r : Request} {id : String}
    (about : container r = some id) :
    (perform env orders m r).authorityWrapper =
      (containerOperations orders (m.containers.lookup id) r).foldl
        (AuthorityWrapper.apply env.hickory) m.authorityWrapper := by
  cases r with
  | register id' names networks =>
    cases about
    exact registerLoop_eq orders.reverse networks.entries (m.authorityWrapper, _)
  | connect id' network names ips =>
    cases about
    simp only [perform, Monitor.connectNetwork, containerOperations]
    cases previous : ((m.containers.lookup id).getD ⟨names, ∅⟩).networks.lookup network with
    | none =>
      rw [if_neg (by simp)]
      exact addAll_eq orders.reverse _ _ _
    | some old =>
      by_cases same : old = ips
      · simp only [same, if_true, List.foldl_nil]
      · have different : some old ≠ some ips := fun equal => same (Option.some.inj equal)
        simp only [if_neg same, if_neg different, List.foldl_append, addAll_eq, removeAll_eq]
  | disconnect id' network =>
    cases about
    simp only [perform, disconnectNetwork, containerOperations]
    cases m.containers.lookup id with
    | none => rfl
    | some state =>
      dsimp only
      cases state.networks.lookup network with
      | none => rfl
      | some ips => exact removeAll_eq orders.reverse state.names ips.ips m.authorityWrapper
  | die id' =>
    cases about
    simp only [perform, forgetContainer, containerOperations]
    cases m.containers.lookup id with
    | none => rfl
    | some state => simp only [removeAll_eq, List.foldl_flatMap]
  | nothing | rename | registerNetwork | deregisterNetwork => cases about

/-- Every operation adds a pair, or removes one that the entry has recorded. -/
theorem mem_containerOperations {orders : Orders} {entry : Option ContainerState} {r : Request}
    {operation : Operation} (member : operation ∈ containerOperations orders entry r) :
    (∃ name ip, operation = .add orders.reverse name ip) ∨
      ∃ state name ip, entry = some state ∧ name ∈ state.names ∧ Recorded state.networks ip ∧
        operation = .removeAddress orders.reverse name ip := by
  have added : ∀ {names ips}, operation ∈ addPairs orders.reverse names ips →
      ∃ name ip, operation = .add orders.reverse name ip := by
    intro names ips member
    obtain ⟨ip, _, member⟩ := List.mem_flatMap.mp member
    obtain ⟨name, _, rfl⟩ := List.mem_map.mp member
    exact ⟨name, ip, rfl⟩
  have removed : ∀ {state : ContainerState} {net ips}, state.networks.lookup net = some ips →
      operation ∈ removePairs orders.reverse state.names ips.ips →
      ∃ name ip, name ∈ state.names ∧ Recorded state.networks ip ∧
        operation = .removeAddress orders.reverse name ip := by
    intro state net ips found member
    obtain ⟨ip, inside, member⟩ := List.mem_flatMap.mp member
    obtain ⟨name, named, rfl⟩ := List.mem_map.mp member
    exact ⟨name, ip, named, ⟨net, ips, found, inside⟩, rfl⟩
  cases r with
  | register id names networks =>
    obtain ⟨reported, _, member⟩ := List.mem_flatMap.mp member
    unfold reportPairs at member
    cases fromNetwork : NetworkIps.fromNetwork reported.2 with
    | none =>
      rw [fromNetwork] at member
      cases member
    | some ips =>
      rw [fromNetwork] at member
      exact .inl (added member)
  | connect id net names ips =>
    simp only [containerOperations] at member
    cases found : (entry.getD ⟨names, ∅⟩).networks.lookup net with
    | none =>
      rw [found] at member
      exact .inl (added member)
    | some old =>
      rw [found] at member
      dsimp only at member
      split at member
      · cases member
      · rcases List.mem_append.mp member with gone | new
        · cases entry with
          | none => cases found
          | some state => exact .inr ⟨state, (removed found gone).imp fun _ rest =>
              rest.imp fun _ both => ⟨rfl, both⟩⟩
        · exact .inl (added new)
  | disconnect id net =>
    cases entry with
    | none => cases member
    | some state =>
      simp only [containerOperations] at member
      cases found : state.networks.lookup net with
      | none =>
        rw [found] at member
        cases member
      | some ips =>
        rw [found] at member
        exact .inr ⟨state, (removed found member).imp fun _ rest =>
          rest.imp fun _ both => ⟨rfl, both⟩⟩
  | die id =>
    cases entry with
    | none => cases member
    | some state =>
      obtain ⟨⟨net, ips⟩, listed, member⟩ := List.mem_flatMap.mp member
      rw [(orders.networks_perm _).mem_iff, FiniteMap.mem_entries_iff] at listed
      exact .inr ⟨state, (removed listed member).imp fun _ rest =>
        rest.imp fun _ both => ⟨rfl, both⟩⟩
  | nothing | rename | registerNetwork | deregisterNetwork => cases member

end DockerDns.Guarantees
