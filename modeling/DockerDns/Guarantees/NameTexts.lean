import DockerDns.Guarantees.ContainerNames
import DockerDns.Guarantees.Requests
import DockerDns.Source.Reference

/-!
# The two ways to a container's name

Registration parses a container's name and appends the domain; a rename prints
the domain behind the name and parses the whole text. Between the two labels of
a dot the texts agree label by label. A name with a trailing dot, or the root
as the domain, puts two dots in a row into the text, which is then no name.
-/
namespace DockerDns.Guarantees
open Library Source

/-- The labels of `s` are valid and leave room for the domain. -/
def Fits (valid : Label → Prop) (s : String) (domain : Name) : Prop :=
  (∀ label ∈ (textName s).labels, valid label) ∧
    Name.encodedLength ⟨(textName s).labels ++ domain.labels, true⟩ ≤ 255

/-- A rename finds the keys under which the container is registered, for its new
name and for its old one, reported with or without the slash. -/
structure TextsAgree (env : Env) (s : String) : Prop where
  new : (env.hickory.parse (newNameText env s)).map LowerName.new = nameKey env s
  old : ∀ text, Reported s text →
    (env.hickory.parse (oldNameText env text)).map LowerName.new = nameKey env s

theorem encodedLength_toLowercase (name : Name) :
    name.toLowercase.encodedLength = name.encodedLength := by
  simp only [Name.encodedLength, Name.toLowercase, List.map_map]
  congr 3
  funext label
  simp [Label.toLowercase]

/-- Appending the same labels to two spellings of a name. -/
theorem append_spelled {a b : Name} (same : a.toLowercase = b.toLowercase) (labels : List Label) :
    (⟨a.labels ++ labels, true⟩ : Name).toLowercase = (⟨b.labels ++ labels, true⟩ : Name).toLowercase := by
  have parts : a.labels.map Label.toLowercase = b.labels.map Label.toLowercase :=
    congrArg Name.labels same
  simp only [Name.toLowercase, List.map_append, parts]

theorem encodedLength_le_append (labels more : List Label) (absolute absolute' : Bool) :
    Name.encodedLength ⟨labels, absolute⟩ ≤ Name.encodedLength ⟨labels ++ more, absolute'⟩ := by
  simp only [Name.encodedLength, List.map_append, List.sum_append]
  omega

section Texts
variable {hk : Hickory} {valid : Label → Prop} (laws : hk.TextLaws valid)

include laws

/-- An accepted text has valid labels. -/
theorem parse_valid {s : String} {name : Name} (parsed : hk.parse s = some name) :
    ∀ label ∈ name.labels, valid label := by
  by_cases empty : s = ""
  · rw [empty, laws.empty] at parsed
    cases parsed
    simp
  by_cases root : s = "."
  · rw [root, laws.root] at parsed
    cases parsed
    simp
  by_cases fits : (∀ label ∈ (textName s).labels, valid label) ∧ (textName s).encodedLength ≤ 255
  · obtain ⟨name', parsed', _, labels⟩ := laws.parse s empty root fits.1 fits.2
    cases parsed.symm.trans parsed'
    exact labels
  · rw [laws.reject s empty root fits] at parsed
    cases parsed

theorem parseDomain_valid {raw : String} {domain : Name} (accepted : parseDomain hk raw = some domain) :
    domain.fqdn = true ∧ ∀ label ∈ domain.labels, valid label := by
  obtain ⟨name, parsed, rfl⟩ := Option.map_eq_some_iff.mp accepted
  have labels := parse_valid laws parsed
  exact ⟨rfl, labels⟩

/-- Docker's leading slash makes a text that is no name. -/
theorem parse_slash (s : String) : hk.parse ("/" ++ s) = none := by
  have spelled : ("/" ++ s).toList = '/' :: s.toList := by simp
  have slash : ∃ label ∈ (textName ("/" ++ s)).labels, '/' ∈ label := by
    unfold textName
    rw [spelled]
    split
    next dot =>
      refine exists_piece ?_ (by decide)
      cases chars : s.toList with
      | nil => simp [chars] at dot
      | cons c rest => simp
    next => exact exists_piece List.mem_cons_self (by decide)
  obtain ⟨label, member, inside⟩ := slash
  refine laws.reject _ ?_ ?_ fun fits => (laws.label label (fits.1 label member)).2.2.2 inside
  · intro empty
    simp [empty] at spelled
  · intro root
    simp [root] at spelled

end Texts

section Names
variable {env : Env} {valid : Label → Prop} (laws : env.hickory.TextLaws valid) {s : String}
  (nonempty : s ≠ "") (notRoot : s ≠ ".")

include laws nonempty notRoot

theorem nameKey_fits (fits : Fits valid s env.domain) :
    nameKey env s = some (LowerName.new ⟨(textName s).labels ++ env.domain.labels, true⟩) := by
  have short : (textName s).encodedLength ≤ 255 :=
    Nat.le_trans (encodedLength_le_append _ _ _ _) fits.2
  obtain ⟨name, parsed, same, _⟩ := laws.parse s nonempty notRoot fits.1 short
  have spelled := append_spelled same env.domain.labels
  have room : Name.encodedLength ⟨name.labels ++ env.domain.labels, true⟩ ≤ 255 := by
    rw [← encodedLength_toLowercase, spelled, encodedLength_toLowercase]
    exact fits.2
  rw [nameKey, fullName, parsed, Option.bind_some, laws.append name env.domain room,
    Option.map_some, (LowerName.new_eq_iff _ _).mpr spelled]

theorem nameKey_unfit (unfit : ¬ Fits valid s env.domain) : nameKey env s = none := by
  by_cases fits : (∀ label ∈ (textName s).labels, valid label) ∧ (textName s).encodedLength ≤ 255
  · obtain ⟨name, parsed, same, _⟩ := laws.parse s nonempty notRoot fits.1 fits.2
    have spelled := append_spelled same env.domain.labels
    have long : 255 < Name.encodedLength ⟨name.labels ++ env.domain.labels, true⟩ := by
      rw [← encodedLength_toLowercase, spelled, encodedLength_toLowercase]
      exact Nat.lt_of_not_le fun short => unfit ⟨fits.1, short⟩
    rw [nameKey, fullName, parsed, Option.bind_some, laws.append_long name env.domain long]
    rfl
  · rw [nameKey, fullName, laws.reject s nonempty notRoot fits]
    rfl

end Names

/-- A text followed by a dot and a printed absolute name. -/
theorem textName_printed (s : String) (labels : List Label) :
    textName (s ++ "." ++ String.ofList (List.intercalate ['.'] labels ++ ['.'])) =
      ⟨s.toList.splitOn '.' ++ (List.intercalate ['.'] labels).splitOn '.', true⟩ := by
  have spelled : (s ++ "." ++ String.ofList (List.intercalate ['.'] labels ++ ['.'])).toList =
      (s.toList ++ '.' :: List.intercalate ['.'] labels) ++ ['.'] := by simp
  rw [textName, spelled, if_pos List.getLast?_concat, List.dropLast_concat,
    List.splitOn_append_cons_self]

section Printed
variable {env : Env} {valid : Label → Prop} (laws : env.hickory.TextLaws valid)
  (absolute : env.domain.fqdn = true) (labels : ∀ label ∈ env.domain.labels, valid label)
  (s : String)

include laws absolute

theorem newNameText_name : textName (newNameText env s) =
    ⟨s.toList.splitOn '.' ++ (List.intercalate ['.'] env.domain.labels).splitOn '.', true⟩ := by
  have display := laws.display env.domain.labels
  rw [← absolute] at display
  rw [newNameText, display, textName_printed]

theorem newNameText_ne : newNameText env s ≠ "" ∧ newNameText env s ≠ "." := by
  have display := laws.display env.domain.labels
  rw [← absolute] at display
  have long : 2 ≤ (newNameText env s).length := by
    have dot : ".".length = 1 := rfl
    simp only [newNameText, display, String.length_append, String.length_ofList, List.length_append,
      List.length_singleton, dot]
    omega
  refine ⟨?_, ?_⟩ <;>
  · intro same
    rw [same] at long
    exact absurd long (by decide)

include labels in
/-- Without two dots in a row the printed name has the labels of both parts. -/
theorem newNameText_agrees (nonempty : s ≠ "") (notRoot : s ≠ ".")
    (domain : env.domain.labels ≠ []) (plain : s.toList.getLast? ≠ some '.') :
    (env.hickory.parse (newNameText env s)).map LowerName.new = nameKey env s := by
  have text := newNameText_name laws absolute s
  have ne := newNameText_ne laws absolute s
  have own : (textName s).labels = s.toList.splitOn '.' := by rw [textName, if_neg plain]
  rw [List.splitOn_intercalate '.' (fun label member => (laws.label label (labels label member)).2.2.1)
    domain, ← own] at text
  by_cases fits : Fits valid s env.domain
  · have valid : ∀ label ∈ (textName (newNameText env s)).labels, valid label := by
      rw [text]
      intro label member
      exact (List.mem_append.mp member).elim (fits.1 label) (labels label)
    obtain ⟨name, parsed, same, _⟩ := laws.parse _ ne.1 ne.2 valid (text ▸ fits.2)
    rw [parsed, nameKey_fits laws nonempty notRoot fits, Option.map_some, ← text]
    exact congrArg some ((LowerName.new_eq_iff _ _).mpr same)
  · rw [nameKey_unfit laws nonempty notRoot fits, laws.reject _ ne.1 ne.2, Option.map_none]
    rw [text]
    intro both
    exact fits ⟨fun label member => both.1 label (List.mem_append_left _ member), both.2⟩

/-- A trailing dot or the root domain makes an empty label. -/
theorem newNameText_empty (dots : env.domain.labels = [] ∨ s.toList.getLast? = some '.') :
    env.hickory.parse (newNameText env s) = none := by
  have ne := newNameText_ne laws absolute s
  have empty : [] ∈ (textName (newNameText env s)).labels := by
    rw [newNameText_name laws absolute s]
    rcases dots with root | dot
    · rw [root]
      exact List.mem_append_right _ List.mem_cons_self
    · obtain ⟨init, spelled⟩ := List.getLast?_eq_some_iff.mp dot
      rw [spelled, splitOn_concat_self]
      simp
  exact laws.reject _ ne.1 ne.2 fun both => (laws.label [] (both.1 [] empty)).1 rfl

end Printed

/-- The old name's text, however the event spells the name, is the new name's. -/
theorem oldNameText_reported {env : Env} (regex : env.regex.Laws) {s text : String}
    (docker : DockerName s) (reported : Reported s text) :
    oldNameText env text = newNameText env s := by
  rw [oldNameText, sanitize_reported regex docker reported, ← newNameText]
  obtain ⟨first, rest, spelled, _, alphanum, _⟩ := docker
  have chars : (newNameText env s).toList =
      first :: (rest ++ '.' :: (env.hickory.display env.domain).toList) := by
    simp [newNameText, spelled]
  have other : first ≠ '/' := by
    rintro rfl
    exact absurd alphanum (by decide)
  rw [AuthorityWrapper.stripPrefix, chars]
  exact if_neg other

/-- For every Docker name and every accepted domain the two constructions agree
exactly when no two dots meet in the printed text, or the name is none at all. -/
theorem name_texts_agree {env : Env} {valid : Label → Prop} (text : env.hickory.TextLaws valid)
    (regex : env.regex.Laws) {rawDomain : String}
    (accepted : parseDomain env.hickory rawDomain = some env.domain) {s : String}
    (docker : DockerName s) : TextsAgree env s ↔
      (env.domain.labels ≠ [] ∧ s.toList.getLast? ≠ some '.') ∨ ¬ Fits valid s env.domain := by
  obtain ⟨absolute, labels⟩ := parseDomain_valid text accepted
  have named : s ≠ "" ∧ s ≠ "." := by
    obtain ⟨first, rest, spelled, more, _, _⟩ := docker
    refine ⟨?_, ?_⟩ <;>
    · rintro rfl
      simp_all
  have agree : TextsAgree env s ↔
      (env.hickory.parse (newNameText env s)).map LowerName.new = nameKey env s := by
    refine ⟨TextsAgree.new, fun new => ⟨new, fun text reported => ?_⟩⟩
    rw [oldNameText_reported regex docker reported]
    exact new
  rw [agree]
  by_cases plain : env.domain.labels ≠ [] ∧ s.toList.getLast? ≠ some '.'
  · exact iff_of_true
      (newNameText_agrees text absolute labels s named.1 named.2 plain.1 plain.2) (.inl plain)
  · have dots : env.domain.labels = [] ∨ s.toList.getLast? = some '.' := by
      by_contra neither
      exact plain (not_or.mp neither)
    rw [newNameText_empty text absolute s dots, Option.map_none]
    by_cases fits : Fits valid s env.domain
    · rw [nameKey_fits text named.1 named.2 fits]
      simp [plain, fits]
    · rw [nameKey_unfit text named.1 named.2 fits]
      simp [fits]

section Runs
open Reference

/-- A name Docker accepts: under `docker.` its text has two dots in a row. -/
theorem dotted_name_text_differs : parseDomain hickory "docker" = some env.domain ∧
    DockerName "web." ∧ ¬ TextsAgree env "web." := by
  refine ⟨by decide, dockerName_of_all rfl (by decide) rfl rfl, ?_⟩
  intro agree
  exact absurd agree.new (by decide)

theorem name_texts_agree_web : TextsAgree env "web.1" :=
  (name_texts_agree hickory_textLaws regex_laws (by decide : parseDomain hickory "docker" = _)
    (dockerName_of_all rfl (by decide) rfl rfl)).mpr
    (.inl ⟨by decide, by decide⟩)

end Runs
end DockerDns.Guarantees
