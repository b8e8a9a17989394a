import DockerDns.Source.Records

/-!
# The served domain and the texts of names

`config.rs:98-110`, and what the program relies on where it prints a name into
a text and parses that text again.
-/
namespace DockerDns.Source

/-- The domain of the command line; `none` where the argument is rejected. -/
def parseDomain (hk : Hickory) (rawDomain : String) : Option Name :=
  (hk.parse rawDomain).map fun domain => { domain with fqdn := true }

/-- The name a text spells: the labels between its dots, absolute with a trailing dot. -/
def textName (s : String) : Name :=
  if s.toList.getLast? = some '.' then ⟨s.toList.dropLast.splitOn '.', true⟩
  else ⟨s.toList.splitOn '.', false⟩

/-- How names are read, printed and joined. Which characters a label may hold is
left open, but for the dot and the slash. Letter case may change on reading; IDNA
rewrites no valid label, on reading or in print. -/
structure Hickory.TextLaws (hk : Hickory) (valid : Label → Prop) : Prop where
  label : ∀ label, valid label → label ≠ [] ∧ label.length ≤ 63 ∧ '.' ∉ label ∧ '/' ∉ label
  root : hk.parse "." = some ⟨[], true⟩
  empty : hk.parse "" = some ⟨[], false⟩
  parse : ∀ s, s ≠ "" → s ≠ "." → (∀ label ∈ (textName s).labels, valid label) →
    (textName s).encodedLength ≤ 255 → ∃ name, hk.parse s = some name ∧
      name.toLowercase = (textName s).toLowercase ∧ ∀ label ∈ name.labels, valid label
  reject : ∀ s, s ≠ "" → s ≠ "." → ¬ ((∀ label ∈ (textName s).labels, valid label) ∧
    (textName s).encodedLength ≤ 255) → hk.parse s = none
  display : ∀ labels, hk.display ⟨labels, true⟩ =
    String.ofList (List.intercalate ['.'] labels ++ ['.'])
  append : ∀ name domain : Name, Name.encodedLength ⟨name.labels ++ domain.labels, true⟩ ≤ 255 →
    hk.appendDomain name domain = some ⟨name.labels ++ domain.labels, true⟩
  append_long : ∀ name domain : Name,
    255 < Name.encodedLength ⟨name.labels ++ domain.labels, true⟩ →
    hk.appendDomain name domain = none

end DockerDns.Source
