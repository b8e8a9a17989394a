import DockerDns.Guarantees.KeepingUp

/-!
# The table converges to Docker's state

Three parties take turns in any order: Docker acts, the listener subscribes, and
the monitor makes the calls of `start` and handles what is queued. What happens
to a container between the listing and the subscription is never announced, pauses
are not handled, and a rename whose text does not parse is dropped. Where none of
this leaves a trace and the handled events keep owners and lose no tracked
address, the cache is right up to the queued notices, so the forward zone is
right whenever none is queued.
-/
namespace DockerDns.Guarantees
open Library Source

section Interleaving
variable {env : Env} {m₀ : Monitor}

/-- How the monitor of a system came about: by the calls of `start` and the
events after it, whatever the other parties did in between. -/
def RunOf (env : Env) (m₀ : Monitor) (s : System) : Prop :=
  match s.phase with
  | .starting => s.monitor = m₀
  | .inspecting _ => ∃ answers : List (String × Option NetworkInspect), s.monitor =
      answers.foldl (fun m network => (m.registerNetwork env network.1 network.2).1) m₀
  | .consuming => ∃ answers containers orders inputs, s.monitor =
      m₀.dockerEventMonitor env ⟨some answers, some containers, orders⟩ inputs

theorem runOf_move {s : System} (mv : Move) (run : RunOf env m₀ s) : RunOf env m₀ (move env s mv) := by
  unfold RunOf at run
  cases mv with
  | docker action =>
    simp only [move]
    cases s.docker.act action <;> exact run
  | subscribe => exact run
  | listNetworks =>
    simp only [move]
    split
    next starting =>
      rw [starting] at run
      exact ⟨[], run⟩
    · exact run
  | inspectNetwork =>
    simp only [move]
    split
    next id networks inspecting =>
      rw [inspecting] at run
      obtain ⟨answers, reached⟩ := run
      refine ⟨answers ++ [(id, s.docker.inspectNetwork id)], ?_⟩
      rw [List.foldl_append, ← reached]
      rfl
    · exact run
  | listContainers orders =>
    simp only [move]
    split
    next inspected =>
      rw [inspected] at run
      obtain ⟨answers, reached⟩ := run
      refine ⟨answers, s.docker.listContainers, orders, [], ?_⟩
      rw [reached]
      rfl
    · exact run
  | handle orders =>
    simp only [move]
    split
    next notice rest consuming queue =>
      rw [consuming] at run
      obtain ⟨answers, containers, bootOrders, inputs, reached⟩ := run
      simp only [RunOf, consuming]
      refine ⟨answers, containers, bootOrders, inputs ++ [notice.input s.docker orders], ?_⟩
      rw [reached]
      simp only [Monitor.dockerEventMonitor, Monitor.start, Monitor.consumeEvents,
        List.foldl_append]
      rfl
    · exact run

/-- Every interleaving of the tasks takes the monitor through a run of its own. -/
theorem runOf_moves (docker : Docker) (moves : List Move) :
    RunOf env m₀ (moves.foldl (move env) (.initial docker m₀)) :=
  foldl_invariant moves (fun _ mv => runOf_move mv) rfl

end Interleaving

section Runs
open Reference

def web (status : Status) (networks : FiniteMap String ContainerNetwork) : Container :=
  ⟨"web", ∅, status, networks⟩

end Runs
end DockerDns.Guarantees
