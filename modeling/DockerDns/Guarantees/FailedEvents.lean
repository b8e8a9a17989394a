import DockerDns.Source.Reference
import Mathlib.Tactic.SplitIfs

/-!
# A failed event changes nothing

Every early exit of a handler comes before its first change of a table. The
exits on an error path are told apart from the ones that end a handler as
intended; one lemma for each handler, then the dispatch.
-/
namespace DockerDns.Guarantees
open Library Source

/-- The exits on an error path: an attribute, an inspect result, an address, a
parse or the entry the event is about is missing. -/
def Failed : Exit → Prop
  | .missingOldName | .missingName | .missingContainer | .parse _ | .inspectFailed
  | .networkNotFound | .noAddresses | .notTracked | .notConnected | .notRegistered => True
  | .done | .sameAddresses | .alreadyRegistered | .ignored => False

instance : DecidablePred Failed
  | .missingOldName | .missingName | .missingContainer | .parse _ | .inspectFailed
  | .networkNotFound | .noAddresses | .notTracked | .notConnected | .notRegistered => .isTrue trivial
  | .done | .sameAddresses | .alreadyRegistered | .ignored => .isFalse id

section Handlers
variable {env : Env} {orders : Orders} {m : Monitor} {event : Event}

/-- Both texts are parsed before the first record set leaves the zone. -/
theorem rename_error (hk : Hickory) (order : IterationOrder) (w : AuthorityWrapper)
    (oldName newName : String) : ∀ error, (w.rename hk order oldName newName).2 = .error error →
      (w.rename hk order oldName newName).1 = w := by
  unfold AuthorityWrapper.rename
  cases hk.parse newName with
  | none => exact fun _ _ => rfl
  | some newNameParsed =>
    cases hk.parse (AuthorityWrapper.stripPrefix '/' oldName) with
    | none => exact fun _ _ => rfl
    | some oldNameParsed =>
      intro error failed
      cases failed

theorem handleContainerRename_failed (failed : Failed (m.handleContainerRename env orders event).2) :
    (m.handleContainerRename env orders event).1 = m := by
  unfold Monitor.handleContainerRename at failed ⊢
  cases old : event.actor.attributes.lookup "oldName" with
  | none => rfl
  | some oldName =>
    cases new : event.actor.attributes.lookup "name" with
    | none => rfl
    | some name =>
      simp only [old, new, Option.map_some] at failed ⊢
      have restored := rename_error env.hickory orders.reverse m.authorityWrapper
        (sanitize env.regex oldName ++ "." ++ env.hickory.display env.domain)
        (name ++ "." ++ env.hickory.display env.domain)
      generalize m.authorityWrapper.rename env.hickory orders.reverse _ _ = renamed at *
      obtain ⟨w, outcome⟩ := renamed
      cases outcome with
      | error error =>
        have same : w = m.authorityWrapper := restored error rfl
        rw [same]
      | ok => exact failed.elim

theorem handleContainerStart_failed {inspect : Option ContainerInspect}
    (failed : Failed (m.handleContainerStart env orders event inspect).2) :
    (m.handleContainerStart env orders event inspect).1 = m := by
  cases inspect with
  | none => rfl
  | some container => exact failed.elim

theorem handleContainerDie_failed (failed : Failed (m.handleContainerDie env orders event).2) :
    (m.handleContainerDie env orders event).1 = m := by
  unfold Monitor.handleContainerDie at failed ⊢
  cases tracked : m.containers.lookup event.actor.id with
  | none => rfl
  | some state =>
    rw [tracked] at failed
    exact failed.elim

/-- Past its checks the connect handler does not fail. -/
theorem connectNetwork_succeeds (id network : String) (names : List Name) (ips : NetworkIps) :
    ¬ Failed (m.connectNetwork env orders id network names ips).2 := by
  intro failed
  simp only [Monitor.connectNetwork] at failed
  split_ifs at failed <;> exact failed

theorem handleNetworkConnect_failed {inspect : Option ContainerInspect}
    (failed : Failed (m.handleNetworkConnect env orders event inspect).2) :
    (m.handleNetworkConnect env orders event inspect).1 = m := by
  unfold Monitor.handleNetworkConnect at failed ⊢
  cases container : event.actor.attributes.lookup "container" with
  | none => rfl
  | some containerId =>
    cases name : event.actor.attributes.lookup "name" with
    | none => rfl
    | some networkName =>
      cases inspect with
      | none => rfl
      | some inspected =>
        cases found : inspected.networks.lookup networkName with
        | none => simp only [found]
        | some network =>
          cases reported : NetworkIps.fromNetwork network with
          | none => simp only [found, reported]
          | some ips =>
            simp only [container, name, found, reported] at failed
            exact absurd failed (connectNetwork_succeeds _ _ _ _)

theorem handleNetworkDisconnect_failed
    (failed : Failed (m.handleNetworkDisconnect env orders event).2) :
    (m.handleNetworkDisconnect env orders event).1 = m := by
  unfold Monitor.handleNetworkDisconnect at failed ⊢
  cases container : event.actor.attributes.lookup "container" with
  | none => rfl
  | some containerId =>
    cases name : event.actor.attributes.lookup "name" with
    | none => rfl
    | some networkName =>
      cases tracked : m.containers.lookup containerId with
      | none => simp only [tracked]
      | some state =>
        cases connected : state.networks.lookup networkName with
        | none => simp only [tracked, connected]
        | some ips =>
          simp only [container, name, tracked, connected] at failed
          exact failed.elim

theorem handleNetworkCreate_failed {inspect : Option NetworkInspect}
    (failed : Failed (m.handleNetworkCreate env event inspect).2) :
    (m.handleNetworkCreate env event inspect).1 = m := by
  unfold Monitor.handleNetworkCreate at failed ⊢
  cases registered : m.networks.lookup event.actor.id with
  | some zones => rfl
  | none =>
    cases inspect with
    | none => rfl
    | some network =>
      rw [registered] at failed
      exact failed.elim

theorem handleNetworkDestroy_failed (failed : Failed (m.handleNetworkDestroy env event).2) :
    (m.handleNetworkDestroy env event).1 = m := by
  unfold Monitor.handleNetworkDestroy Monitor.deregisterNetwork at failed ⊢
  cases registered : m.networks.lookup event.actor.id with
  | none => rfl
  | some zones =>
    rw [registered] at failed
    exact failed.elim

end Handlers

/-- An event whose handling ends on an error path leaves every table of the
monitor exactly as it was. -/
theorem failed_event_changes_nothing (env : Env) (m : Monitor) (input : Input)
    (failed : Failed (m.handleEvent env input).2) : (m.handleEvent env input).1 = m := by
  unfold Monitor.handleEvent at failed ⊢
  cases type : input.event.type with
  | container =>
    simp only [type] at failed ⊢
    split_ifs at failed ⊢
    · exact handleContainerStart_failed failed
    · exact handleContainerRename_failed failed
    · exact handleContainerDie_failed failed
    · rfl
  | network =>
    simp only [type] at failed ⊢
    split_ifs at failed ⊢
    · exact handleNetworkConnect_failed failed
    · exact handleNetworkDisconnect_failed failed
    · exact handleNetworkCreate_failed failed
    · exact handleNetworkDestroy_failed failed
    · rfl
  | _ => rfl

section Runs
open Reference

/-- A connect whose inspect result no longer lists the network. -/
def leftAlready : Input := connectEvent "c" "bridge" (some ⟨"/web", ∅, ∅⟩)

theorem failed_event_changes_nothing_left :
    Failed (monitor.handleEvent env leftAlready).2 ∧
      (monitor.handleEvent env leftAlready).1 = monitor :=
  ⟨by decide, failed_event_changes_nothing env monitor leftAlready (by decide)⟩

end Runs
end DockerDns.Guarantees
