import DockerDns.Guarantees.Moments
import DockerDns.Guarantees.ZoneTurns

/-!
# Every moment of a run

Queries are answered by other tasks while the monitor works. Whatever the
schedule, they meet the tables at one of the moments of the run, and each moment
belongs to the step that is at work.
-/
namespace DockerDns.Guarantees
open Library Source

/-- What a run is at work on: a request, and the monitor it came to. -/
inductive Busy (env : Env) (m₀ : Monitor) (steps : List Step) : Monitor → Orders → Request → Prop
  | idle : Busy env m₀ steps m₀ .listed .nothing
  | works (front : List Step) (s : Step) (back : List Step) (split : steps = front ++ s :: back) :
    Busy env m₀ steps (front.foldl (step env) m₀) s.orders
      (request env (front.foldl (step env) m₀) s)

section Runs
variable {env : Env} {m₀ : Monitor} {boot : Bootstrap} {inputs : List Input}

/-- The task takes its steps one after another, each lock by lock. -/
theorem dockerEventMonitor_sections (env : Env) (boot : Bootstrap) (inputs : List Input) :
    LockScopes.dockerEventMonitor env boot inputs =
      (runSteps boot inputs).forM (stepSections env) := by
  unfold LockScopes.dockerEventMonitor LockScopes.start LockScopes.consumeEvents runSteps
  cases boot.networks with
  | none => rfl
  | some networks =>
    cases boot.containers with
    | none => simp [List.forM_map, stepSections]
    | some containers => simp [List.forM_map, List.forM_append, stepSections]

/-- What holds at every moment of every request a run works on holds at every
moment of the run. -/
theorem every_run {P : Monitor → Prop} (requests : ∀ m orders r,
      Busy env m₀ (runSteps boot inputs) m orders r → (requestSections env orders r).Every P m) :
    (LockScopes.dockerEventMonitor env boot inputs).Every P m₀ := by
  have steps : (fun m s => ((stepSections env s).run m).2) = step env :=
    funext fun m => funext fun s => run_stepSections env s
  rw [dockerEventMonitor_sections, Sectioned.every_forM_iff, steps]
  refine ⟨(requests m₀ .listed .nothing .idle).first, fun front s back split => ?_⟩
  rw [every_stepSections]
  exact requests _ _ _ (.works front s back split)

/-- What every step keeps holds of the monitor each request comes to. -/
theorem Busy.invariant (inv : Monitor → Prop) {steps : List Step} {m : Monitor} {orders : Orders}
    {r : Request} (busy : Busy env m₀ steps m orders r) (start : inv m₀)
    (kept : ∀ m s, inv m → inv (step env m s)) : inv m := by
  cases busy with
  | idle => exact start
  | works front s back split => exact foldl_invariant front kept start

end Runs

section Networks
variable {env : Env} {m : Monitor}

/-- A moment of a network request: no record moves. -/
structure NetworkMoment (env : Env) (m m' : Monitor) : Prop where
  sound : TableSound env.hickory m'.authorityWrapper
  facts : ∀ f, Has m'.authorityWrapper f ↔ Has m.authorityWrapper f
  containers : m'.containers = m.containers

variable (laws : EnvLaws env) (keep : env.hickory.KeepLaws)
include laws keep

theorem turnsKeep_networkMoment (r : Request) :
    ZoneTurnsKeep env m r (NetworkMoment env m) (NetworkMoment env m) where
  adds net _ m' moment := by
    have sound := apply_sound laws.records keep laws.names moment.sound
      (.addReverseZone net (standardZoneName net))
    rw [AuthorityWrapper.apply, addFreshZone_eq laws.records] at sound
    have shared : NetworkMoment env m (sharedZone m' net) :=
      ⟨sound, fun f => ((freshZone_kept moment.sound.wellFormed net _).2 f).trans (moment.facts f),
        moment.containers⟩
    exact ⟨shared, shared.sound, shared.facts, shared.containers⟩
  removes net _ m' moment := by
    have withdrawn : NetworkMoment env m (withdrawnZone m' net) :=
      ⟨apply_sound laws.records keep laws.names moment.sound (.removeReverseZone net),
        fun f => ((removeReverseZone_kept moment.sound.wellFormed net).2 f).trans (moment.facts f),
        moment.containers⟩
    rw [deregisterZone_eq laws.names]
    exact ⟨withdrawn, withdrawn.sound, withdrawn.facts, withdrawn.containers⟩
  entries _ _ moment _ := ⟨moment.sound, moment.facts, moment.containers⟩
  implies _ moment := moment

theorem every_networkMoment (orders : Orders) {r : Request} (about : r.AboutNetworks)
    (sound : TableSound env.hickory m.authorityWrapper) :
    (requestSections env orders r).Every (NetworkMoment env m) m :=
  (every_networkRequest laws orders about (turnsKeep_networkMoment laws keep r)
    ⟨sound, fun _ => .rfl, rfl⟩).1

/-- At every moment of every run the tables are sound: the stores well formed,
their sets as the table creates them, and the pointers of every registered zone
those of its own addresses. -/
theorem sound_at_every_moment {m₀ : Monitor} (started : startTasks env = some m₀)
    (boot : Bootstrap) (inputs : List Input) :
    (LockScopes.dockerEventMonitor env boot inputs).Every
      (fun m => TableSound env.hickory m.authorityWrapper) m₀ := by
  refine every_run fun m orders r busy => ?_
  have sound := busy.invariant (fun m => TableSound env.hickory m.authorityWrapper)
    (sound_start laws.records started) fun m s sound =>
      sound_step laws.records keep laws.names sound s
  by_cases about : r.AboutNetworks
  · exact (every_networkMoment laws keep orders about sound).mono fun _ moment => moment.sound
  · exact (every_atWork laws.records keep laws.names about sound).mono
      fun _ moment => moment.table.sound

end Networks

section Runs
open Reference

/-- A network is created, then a container starts in it. -/
theorem sound_at_every_moment_bridge :
    (LockScopes.dockerEventMonitor env ⟨some [], some [], .listed⟩
        [createEvent "bridge" [bridge], startEvent "c" webOnBridge]).Every
      (fun m => TableSound hickory m.authorityWrapper) monitor :=
  sound_at_every_moment reference_laws hickory_keepLaws env_started _ _

end Runs
end DockerDns.Guarantees
