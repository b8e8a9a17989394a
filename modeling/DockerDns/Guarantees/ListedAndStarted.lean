import DockerDns.Guarantees.NameTexts
import DockerDns.Guarantees.TableStates

/-!
# Listed and started containers

Bootstrap registers a container under the names of the listing, a start event
under its own sanitized name and the names of its compose labels. Everything
after that is the same code, so the two registrations agree exactly when the
listing already gives every name.
-/
namespace DockerDns.Guarantees
open Library Source

/-- The container's own name and the names its labels give are, ignoring case,
the listed one, as far as they are DNS names under the domain. -/
def NamesListed (env : Env) (listed s : String) (labels : FiniteMap String String) : Prop :=
  ∀ text n, text = s ∨ ComposeText labels text → nameKey env text = some n →
    nameKey env listed = some n

/-- Two entries with the same names, ignoring case, and the same networks. -/
structure SameService (a b : ContainerState) : Prop where
  names : ∀ n, Named a.names n ↔ Named b.names n
  networks : ∀ net, a.networks.lookup net = b.networks.lookup net

/-- The container is tracked alike, and the same records are served. -/
structure RegisteredAlike (id : String) (m m' : Monitor) : Prop where
  entry : Option.Rel SameService (m.containers.lookup id) (m'.containers.lookup id)
  records : SameSets Respelled m.authorityWrapper m'.authorityWrapper

section Names
variable {env : Env} (slash : ∀ s, env.hickory.parse ("/" ++ s) = none)
  (regex : env.regex.Laws) {s listed : String} (docker : DockerName s)

include slash regex docker

theorem namesListed_iff (reported : Reported s listed) {container : ContainerInspect}
    (inspected : Reported s container.name) :
    (∀ n, Named (toFullNames env.hickory [listed] env.domain) n ↔ Named (inspectNames env container) n) ↔
      NamesListed env listed s container.labels := by
  have fromList : ∀ n, Named (toFullNames env.hickory [listed] env.domain) n ↔
      nameKey env listed = some n := by
    intro n
    rw [named_toFullNames]
    simp
  have fromInspect := fun n => named_inspectNames (n := n) regex docker inspected
  constructor
  · intro same text n kind key
    exact (fromList n).mp ((same n).mpr ((fromInspect n).mpr ⟨text, kind, key⟩))
  · intro all n
    rw [fromList, fromInspect]
    constructor
    · intro key
      rcases reported with rfl | rfl
      · exact ⟨listed, .inl rfl, key⟩
      · simp [nameKey, fullName, slash] at key
    · intro named
      obtain ⟨text, kind, key⟩ := named
      exact all text n kind key

end Names

section Registrations
variable {env : Env} {m : Monitor}

/-- Two registrations of the same networks, in any order, for a new container. -/
theorem registeredAlike_iff (laws : env.hickory.RecordLaws) (keep : env.hickory.KeepLaws)
    (nameLaws : env.hickory.NameLaws) (sound : TableSound env.hickory m.authorityWrapper)
    (orders : Orders) {id : String} (untracked : m.containers.lookup id = none)
    (names names' : List Name) {networks networks' : FiniteMap String ContainerNetwork}
    (same : ∀ net, networks.lookup net = networks'.lookup net) :
    RegisteredAlike id (perform env orders m (.register id names networks))
        (perform env orders m (.register id names' networks')) ↔
      ∀ n, Named names n ↔ Named names' n := by
  have sound₁ := perform_sound laws keep nameLaws sound orders
    (r := .register id names networks) trivial
  have sound₂ := perform_sound laws keep nameLaws sound orders
    (r := .register id names' networks') trivial
  obtain ⟨after, overwritten, registered⟩ :=
    register_effect orders laws sound.wellFormed id names networks
  obtain ⟨after', overwritten', registered'⟩ :=
    register_effect orders laws sound.wellFormed id names' networks'
  generalize perform env orders m (.register id names networks) = a at sound₁ registered ⊢
  generalize perform env orders m (.register id names' networks') = b at sound₂ registered' ⊢
  rw [entryOr_untracked untracked, ← reports_congr same] at registered' overwritten'
  rw [entryOr_untracked untracked] at registered overwritten
  have zones : SameZones a.authorityWrapper b.authorityWrapper :=
    registered.wrapper.zones.symm.trans registered'.wrapper.zones
  have tracked : a.containers.lookup id = some ⟨names, after⟩ :=
    (registered.containers id).trans (if_pos rfl)
  have tracked' : b.containers.lookup id = some ⟨names', after'⟩ :=
    (registered'.containers id).trans (if_pos rfl)
  constructor
  · intro alike
    have rel := alike.entry
    rw [tracked, tracked'] at rel
    cases rel with
    | some service => exact service.names
  · intro sameNames
    refine ⟨?_, ?_⟩
    · rw [tracked, tracked']
      refine .some ⟨sameNames, fun net => Option.ext fun ips => ?_⟩
      exact (overwritten net ips).trans (overwritten' net ips).symm
    · rw [sameSets_iff sound₁ sound₂ zones]
      intro f
      rw [registered.wrapper.facts, registered'.wrapper.facts]
      simp only [sameNames]

end Registrations

/-- In every reachable state, for every container not tracked, however its name
is spelled in the listing and in the inspect result: bootstrap and a start event
register it alike exactly when its names are all listed. -/
theorem bootstrap_and_start_agree {env : Env} (laws : env.hickory.RecordLaws)
    (keep : env.hickory.KeepLaws) (nameLaws : env.hickory.NameLaws)
    (slash : ∀ s, env.hickory.parse ("/" ++ s) = none) (regex : env.regex.Laws) {m₀ : Monitor}
    (started : startTasks env = some m₀) (boot : Bootstrap) (inputs : List Input) {m : Monitor}
    (reached : m = m₀.dockerEventMonitor env boot inputs) (orders : Orders) {s listed : String}
    (docker : DockerName s) {summary : ContainerSummary} {event : Event}
    {container : ContainerInspect} (untracked : m.containers.lookup summary.id = none)
    (running : summary.state = "running") (concerns : event.actor.id = summary.id)
    (names : summary.names = [listed]) (reported : Reported s listed)
    (inspected : Reported s container.name)
    (networks : ∀ net, summary.networks.lookup net = container.networks.lookup net) :
    RegisteredAlike summary.id (m.startContainer env orders summary)
        (m.handleContainerStart env orders event (some container)).1 ↔
      NamesListed env listed s container.labels := by
  have sound : TableSound env.hickory m.authorityWrapper :=
    reached ▸ sound_reached laws keep nameLaws started boot inputs
  have listing : m.startContainer env orders summary = perform env orders m
      (.register summary.id (toFullNames env.hickory [listed] env.domain) summary.networks) := by
    rw [← names]
    exact if_neg (not_not.mpr running)
  rw [listing, handleContainerStart_eq, concerns,
    ← namesListed_iff slash regex docker reported inspected]
  exact registeredAlike_iff laws keep nameLaws sound orders untracked _ _ networks

section Runs
open Reference

/-- The service `web` of the compose project `shop`, as the listing has it. -/
def shopListed : ContainerSummary where
  id := "c"
  state := "running"
  names := ["web"]
  networks := mapOf [("bridge", v4 0xac110002#32)]

def shopInspected : ContainerInspect where
  name := "/web"
  labels := mapOf [("com.docker.compose.service", "web"), ("com.docker.compose.project", "shop")]
  networks := mapOf [("bridge", v4 0xac110002#32)]

/-- The same container without its labels. -/
def plainInspected : ContainerInspect := ⟨"/web", ∅, mapOf [("bridge", v4 0xac110002#32)]⟩

/-- A compose container resolves by its service only after a start event. -/
theorem bootstrap_misses_compose_name :
    ¬ RegisteredAlike "c" (monitor.startContainer env .listed shopListed)
      (monitor.handleContainerStart env .listed (startEvent "c" none).event (some shopInspected)).1 := by
  intro alike
  have rel := alike.entry
  have listed : (monitor.startContainer env .listed shopListed).containers.lookup "c" =
      some ⟨[name ["web", "docker"]], (∅ : FiniteMap String NetworkIps).insert "bridge"
        (.v4Only 0xac110002#32)⟩ := rfl
  have started : (monitor.handleContainerStart env .listed (startEvent "c" none).event
      (some shopInspected)).1.containers.lookup "c" =
      some ⟨[name ["web", "docker"], name ["1", "web", "shop", "docker"],
        name ["web", "shop", "docker"]], (∅ : FiniteMap String NetworkIps).insert "bridge"
        (.v4Only 0xac110002#32)⟩ := rfl
  rw [listed, started] at rel
  cases rel with
  | some service =>
    exact absurd (service.names (LowerName.new (name ["web", "shop", "docker"]))) (by decide)

/-- Without compose labels the listing has every name. -/
theorem bootstrap_and_start_agree_plain :
    RegisteredAlike "c" (monitor.startContainer env .listed shopListed)
      (monitor.handleContainerStart env .listed (startEvent "c" none).event (some plainInspected)).1 := by
  refine (bootstrap_and_start_agree hickory_recordLaws hickory_keepLaws hickory_nameLaws
    (parse_slash hickory_textLaws) regex_laws env_started ⟨none, none, .listed⟩ [] (m := monitor) rfl .listed
    (dockerName_of_all rfl (by decide) rfl rfl : DockerName "web") rfl
    (rfl : shopListed.state = "running") (rfl : (startEvent "c" none).event.actor.id = shopListed.id)
    rfl (.inl rfl) (.inr rfl : Reported "web" plainInspected.name) fun _ => rfl).mpr ?_
  intro text n own key
  rcases own with rfl | ⟨service, project, unlabelled, _⟩
  · exact key
  · cases unlabelled

end Runs
end DockerDns.Guarantees
