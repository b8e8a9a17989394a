import DockerDns.Library.CatchUp
import DockerDns.Guarantees.ContainerNames
import DockerDns.Guarantees.ReachableStates
import DockerDns.Source.Tasks

/-!
# What a notice says

A notice stands for a change of one container: it fills or clears the addresses
of some of its networks, or gives it another name. Docker's actions are stated
per container and network, so that the cache of the monitor can be compared with
Docker cell by cell. The last section is about containers without compose
labels, whose only name is Docker's.
-/
namespace DockerDns.Guarantees
open Library Source

/-- The addresses a container has on a network; none while it is stopped. -/
def addressesOn (c : Container) (net : String) : Option NetworkIps :=
  (c.reported.lookup net).bind NetworkIps.fromNetwork

def current (d : Docker) (id net : String) : Option NetworkIps :=
  (d.containers.lookup id).bind fun c => addressesOn c net

/-- What a notice says about the addresses of a container on a network. -/
def signal (id net : String) : Notice → Signal
  | .started id' => if id' = id then .filled else .silent
  | .died id' => if id' = id then .cleared else .silent
  | .connected id' net' => if id' = id ∧ net' = net then .filled else .silent
  | .disconnected id' net' => if id' = id ∧ net' = net then .cleared else .silent
  | _ => .silent

/-- The name a notice gives to a container. -/
def newName (id : String) : Notice → Option String
  | .renamed id' _ _ new => if id' = id then some new else none
  | _ => none

section Actions

/-- What one action does to the container it concerns. -/
inductive Changes (id : String) (c : Container) : Container → Notice → Prop
  | started (networks : FiniteMap String ContainerNetwork) (stopped : c.status = .stopped) :
      Changes id c { c with status := .running, networks } (.started id)
  | died : Changes id c { c with status := .stopped } (.died id)
  | paused (running : c.status = .running) :
      Changes id c { c with status := .paused } (.paused id)
  | unpaused (paused : c.status = .paused) :
      Changes id c { c with status := .running } (.unpaused id)
  | renamed (name : String) : Changes id c { c with name } (.renamed id c.labels c.name name)
  | connected (network : String) (addresses : ContainerNetwork)
      (free : c.status = .stopped ∨ c.networks.lookup network = none) :
      Changes id c { c with networks := c.networks.insert network addresses }
        (.connected id network)
  | disconnected (network : String) :
      Changes id c { c with networks := c.networks.erase network } (.disconnected id network)

/-- What one action does: a container changes, or the networks do. -/
inductive Acted (d : Docker) : Docker → Notice → Prop
  | container (id : String) (c c' : Container) (notice : Notice)
      (found : d.containers.lookup id = some c) (changes : Changes id c c' notice) :
      Acted d { d with containers := d.containers.insert id c' } notice
  | network (networks : FiniteMap String (List (Option IpNet))) (notice : Notice)
      (silent : ∀ id net, signal id net notice = .silent) (nameless : ∀ id, newName id notice = none) :
      Acted d { d with networks } notice

variable {d d' : Docker} {notice : Notice}

variable {id : String} {c c' : Container}

theorem addressesOn_stopped (stopped : c.status = .stopped) (net : String) :
    addressesOn c net = none := by
  simp only [addressesOn, Container.reported, if_pos stopped, FiniteMap.lookup_mapValues]
  cases c.networks.lookup net <;> rfl

theorem addressesOn_up (up : c.status ≠ .stopped) (net : String) :
    addressesOn c net = (c.networks.lookup net).bind NetworkIps.fromNetwork := by
  simp only [addressesOn, Container.reported, if_neg up]

/-- A change that neither starts nor stops a container and leaves a network
alone leaves the addresses there. -/
private theorem addressesOn_kept {net : String}
    (status : c'.status = .stopped ↔ c.status = .stopped)
    (network : c'.networks.lookup net = c.networks.lookup net) :
    addressesOn c' net = addressesOn c net := by
  by_cases stopped : c.status = .stopped
  · rw [addressesOn_stopped stopped, addressesOn_stopped (status.mpr stopped)]
  · rw [addressesOn_up stopped, addressesOn_up (mt status.mp stopped), network]

theorem Changes.reports (changes : Changes id c c' notice) (net : String) :
    (signal id net notice).Reports (addressesOn c net) (addressesOn c' net) := by
  cases changes with
  | started networks stopped =>
    rw [addressesOn_stopped stopped]
    simp [signal, Signal.Reports]
  | died =>
    simp only [signal, if_true, Signal.Reports]
    exact addressesOn_stopped rfl net
  | paused running => exact addressesOn_kept (by simp [running]) rfl
  | unpaused paused => exact addressesOn_kept (by simp [paused]) rfl
  | renamed name => exact addressesOn_kept .rfl rfl
  | connected network addresses free =>
    simp only [signal, true_and]
    split
    next same =>
      subst same
      intro _
      by_cases stopped : c.status = .stopped
      · exact addressesOn_stopped stopped network
      · rw [addressesOn_up stopped, free.resolve_left stopped]
        rfl
    next other =>
      refine addressesOn_kept .rfl ?_
      rw [FiniteMap.lookup_insert, if_neg (Ne.symm other)]
  | disconnected network =>
    simp only [signal, true_and]
    split
    next same =>
      subst same
      have erased : (c.networks.erase network).lookup network = none := by
        rw [FiniteMap.lookup_erase, if_pos rfl]
      let left : Container := { c with networks := c.networks.erase network }
      show addressesOn left network = none
      by_cases stopped : left.status = .stopped
      · exact addressesOn_stopped stopped network
      · rw [addressesOn_up stopped, erased]
        rfl
    next other =>
      refine addressesOn_kept .rfl ?_
      rw [FiniteMap.lookup_erase, if_neg (Ne.symm other)]

/-- A notice of one container says nothing about another. -/
theorem Changes.elsewhere (changes : Changes id c c' notice) {id' : String} (other : id' ≠ id)
    (net : String) : signal id' net notice = .silent ∧ newName id' notice = none := by
  cases changes <;> simp [signal, newName, Ne.symm other]

theorem Changes.name (changes : Changes id c c' notice) :
    c'.name = (newName id notice).getD c.name := by
  cases changes <;> simp [newName]

/-- Every notice reports the change of every cell. -/
theorem Acted.reports (acted : Acted d d' notice) (id net : String) :
    (signal id net notice).Reports (current d id net) (current d' id net) := by
  cases acted with
  | container id' c c' notice found changes =>
    simp only [current, FiniteMap.lookup_insert]
    by_cases here : id = id'
    · subst here
      simp only [if_true, found, Option.bind_some]
      exact changes.reports net
    · rw [if_neg here, (changes.elsewhere here net).1]
      rfl
  | network networks notice silent _ =>
    rw [silent]
    rfl

/-- The containers after an action are those before it, one perhaps renamed. -/
theorem Acted.names (acted : Acted d d' notice) {id : String} {c' : Container}
    (found' : d'.containers.lookup id = some c') :
    ∃ c, d.containers.lookup id = some c ∧ c'.name = (newName id notice).getD c.name := by
  cases acted with
  | container id' c₁ c₂ notice found changes =>
    simp only [FiniteMap.lookup_insert] at found'
    by_cases here : id = id'
    · subst here
      rw [if_pos rfl] at found'
      cases found'
      exact ⟨c₁, found, changes.name⟩
    · rw [if_neg here] at found'
      refine ⟨c', found', ?_⟩
      rw [(changes.elsewhere here "").2]
      rfl
  | network networks notice _ nameless =>
    refine ⟨c', found', ?_⟩
    rw [nameless]
    rfl

/-- A paused container stays paused while its cell is silent, unless it is unpaused. -/
theorem Acted.paused (acted : Acted d d' notice) {id net : String} {c : Container}
    (found : d.containers.lookup id = some c) (paused : c.status = .paused)
    (silent : signal id net notice = .silent) (kept : notice ≠ .unpaused id) :
    ∃ c', d'.containers.lookup id = some c' ∧ c'.status = .paused := by
  cases acted with
  | container id' c₁ c₂ notice found₁ changes =>
    by_cases here : id = id'
    · subst here
      rw [found] at found₁
      cases found₁
      refine ⟨c₂, (FiniteMap.lookup_insert _ _ _ _).trans (if_pos rfl), ?_⟩
      cases changes with
      | started networks stopped => simp [stopped] at paused
      | died => simp [signal] at silent
      | paused running => rfl
      | unpaused _ => exact absurd rfl kept
      | renamed name | connected network addresses free | disconnected network => exact paused
    · exact ⟨c, (FiniteMap.lookup_insert _ _ _ _).trans ((if_neg here).trans found), paused⟩
  | network networks notice _ _ => exact ⟨c, found, paused⟩

end Actions

section Plain
variable {env : Env}

/-- The names a container called `s` is served under. -/
def fullNames (env : Env) (s : String) : List Name := toFullNames env.hickory [s] env.domain

section Renames
variable {id old new : String} {labels : FiniteMap String String}

end Renames

end Plain
end DockerDns.Guarantees
