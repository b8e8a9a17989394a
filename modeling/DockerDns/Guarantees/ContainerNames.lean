import DockerDns.Guarantees.HandlerEffects

/-!
# The names of a container

What Docker accepts as a container name, the names the compose labels add to it,
and the key under which the table stores one of these texts.
-/
namespace DockerDns.Guarantees
open Library Source

/-- `[a-zA-Z0-9][a-zA-Z0-9_.-]+` -/
def DockerName (s : String) : Prop :=
  ∃ first rest, s.toList = first :: rest ∧ rest ≠ [] ∧ first.isAlphanum = true ∧
    ∀ c ∈ rest, c.isAlphanum = true ∨ c = '_' ∨ c = '.' ∨ c = '-'

/-- The characters as a test that runs. -/
theorem dockerName_of_all {s : String} {first : Char} {rest : List Char}
    (spelled : s.toList = first :: rest) (more : rest ≠ []) (alphanum : first.isAlphanum = true)
    (chars : (rest.all fun c => c.isAlphanum || c == '_' || c == '.' || c == '-') = true) :
    DockerName s := by
  refine ⟨first, rest, spelled, more, alphanum, fun c member => ?_⟩
  simpa [or_assoc] using List.all_eq_true.mp chars c member

/-- Docker reports a name with or without its leading slash. -/
def Reported (s text : String) : Prop := text = s ∨ text = "/" ++ s

/-- The instance number of the labels, 1 by default. -/
def composeInstance (labels : FiniteMap String String) : Nat :=
  ((labels.lookup "com.docker.compose.container-number").bind parseUsize).getD 1

/-- A name that the compose labels give. -/
def ComposeText (labels : FiniteMap String String) (text : String) : Prop :=
  ∃ service project, labels.lookup "com.docker.compose.service" = some service ∧
    labels.lookup "com.docker.compose.project" = some project ∧
    (text = Nat.repr (composeInstance labels) ++ "." ++ service ++ "." ++ project ∨
      (composeInstance labels = 1 ∧ text = service ++ "." ++ project))

/-- The name of a text under the domain. -/
def fullName (env : Env) (text : String) : Option Name :=
  (env.hickory.parse text).bind fun parsed => env.hickory.appendDomain parsed env.domain

/-- The key of its records. -/
def nameKey (env : Env) (text : String) : Option LowerName := (fullName env text).map LowerName.new

theorem named_toFullNames {env : Env} {raw : List String} {n : LowerName} :
    Named (toFullNames env.hickory raw env.domain) n ↔ ∃ text ∈ raw, nameKey env text = some n := by
  simp only [Named, toFullNames, List.mem_filterMap, nameKey, Option.map_eq_some_iff]
  constructor
  · intro named
    obtain ⟨full, ⟨text, member, made⟩, same⟩ := named
    exact ⟨text, member, full, made, same⟩
  · intro listed
    obtain ⟨text, member, full, made, same⟩ := listed
    exact ⟨full, ⟨text, member, made⟩, same⟩

theorem mem_appendComposeNames {names : List String} {labels : FiniteMap String String}
    {text : String} :
    text ∈ appendComposeNames names labels ↔ text ∈ names ∨ ComposeText labels text := by
  simp only [appendComposeNames, ComposeText, composeInstance]
  cases labels.lookup "com.docker.compose.service" with
  | none => simp
  | some service =>
    cases labels.lookup "com.docker.compose.project" with
    | none => simp
    | some project =>
      dsimp only
      split_ifs with one
      · simp [one]
      · simp [one]

section Sanitize
variable {regex : Regex} (laws : regex.Laws) {s : String}

include laws

/-- Sanitizing takes Docker's slash away and keeps a Docker name. -/
theorem sanitize_reported (docker : DockerName s) {text : String} (reported : Reported s text) :
    sanitize regex text = s := by
  obtain ⟨first, rest, spelled, _, alphanum, chars⟩ := docker
  have kept : ∀ c ∈ s.toList, (regex.isWord c || regex.isDigit c || c == '.' || c == '-') = true := by
    rw [spelled]
    intro c member
    rcases List.mem_cons.mp member with rfl | member
    · simp [laws.word c (.inl alphanum)]
    · rcases chars c member with alphanum | underscore | rfl | rfl
      · simp [laws.word c (.inl alphanum)]
      · simp [laws.word c (.inr underscore)]
      · simp
      · simp
  rcases reported with rfl | rfl
  · rw [sanitize, List.filter_eq_self.mpr kept, String.ofList_toList]
  · have slash : ("/" ++ s).toList = '/' :: s.toList := by simp
    rw [sanitize, slash, List.filter_cons, laws.slash.1, laws.slash.2, if_neg (by decide),
      List.filter_eq_self.mpr kept, String.ofList_toList]

end Sanitize

/-- The names of an inspected container: its own, and those of its labels. -/
theorem named_inspectNames {env : Env} (regex : env.regex.Laws) {s : String}
    (docker : DockerName s) {container : ContainerInspect} (reported : Reported s container.name)
    {n : LowerName} : Named (inspectNames env container) n ↔
      ∃ text, (text = s ∨ ComposeText container.labels text) ∧ nameKey env text = some n := by
  rw [inspectNames, named_toFullNames]
  simp only [getAllNamesFromInspect, mem_appendComposeNames, List.mem_singleton,
    sanitize_reported regex docker reported]

end DockerDns.Guarantees
