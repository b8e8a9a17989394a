/-!
# Links and their mirror

Links between left and right sides are served together with their converse. The
converse is kept only where the right side is covered, and a link that is there
when its right side becomes covered is late: its converse is missing until the
link is made again.
-/
namespace DockerDns.Library

structure Links (ν α : Type) where
  held : ν → α → Prop
  late : ν → α → Prop

namespace Links
variable {ν α : Type}

def empty : Links ν α := ⟨fun _ _ => False, fun _ _ => False⟩

/-- The pairs are linked, or linked again. -/
def link (pairs : ν → α → Prop) (l : Links ν α) : Links ν α where
  held n a := l.held n a ∨ pairs n a
  late n a := l.late n a ∧ ¬ pairs n a

def unlink (pairs : ν → α → Prop) (l : Links ν α) : Links ν α where
  held n a := l.held n a ∧ ¬ pairs n a
  late := l.late

/-- The links of one left side are made again from another. -/
def rekey (old new : ν) (l : Links ν α) : Links ν α where
  held n a := (l.held n a ∧ ¬ (n = old ∧ l.held old a)) ∨ (n = new ∧ l.held old a)
  late n a := l.late n a ∧ ¬ (n = new ∧ l.held old a)

/-- These right sides become covered. -/
def cover (fresh : α → Prop) (l : Links ν α) : Links ν α where
  held := l.held
  late n a := l.late n a ∨ (l.held n a ∧ fresh a)

/-- The converse that is served. -/
def mirror (covered : α → Prop) (l : Links ν α) (a : α) (n : ν) : Prop :=
  l.held n a ∧ covered a ∧ ¬ l.late n a

variable {covered covered' fresh : α → Prop} {pairs : ν → α → Prop} {l : Links ν α} {a : α}
  {n old new : ν}

theorem mirror_empty : ¬ (empty : Links ν α).mirror covered a n := fun held => held.1

theorem mirror_link :
    (l.link pairs).mirror covered a n ↔ l.mirror covered a n ∨ (pairs n a ∧ covered a) := by
  by_cases pair : pairs n a <;> simp [mirror, link, pair]
  exact fun _ covers _ => covers

theorem mirror_unlink :
    (l.unlink pairs).mirror covered a n ↔ l.mirror covered a n ∧ ¬ pairs n a := by
  simp only [mirror, unlink]
  constructor
  · rintro ⟨⟨held, spared⟩, rest⟩
    exact ⟨⟨held, rest⟩, spared⟩
  · rintro ⟨⟨held, rest⟩, spared⟩
    exact ⟨⟨held, spared⟩, rest⟩

theorem mirror_rekey : (l.rekey old new).mirror covered a n ↔
    (l.mirror covered a n ∧ ¬ (n = old ∧ l.held old a)) ∨
      (n = new ∧ l.held old a) ∧ covered a := by
  by_cases moved : n = new ∧ l.held old a
  · simp only [mirror, rekey, moved, and_true, or_true, not_true, and_false, not_false_iff, true_and]
    exact ⟨.inr, fun either => either.elim (fun left => left.1.2.1) id⟩
  · simp only [mirror, rekey, moved, or_false, not_false_iff, and_true, false_and]
    constructor
    · rintro ⟨⟨held, spared⟩, rest⟩
      exact ⟨⟨held, rest⟩, spared⟩
    · rintro ⟨⟨held, rest⟩, spared⟩
      exact ⟨⟨held, spared⟩, rest⟩

/-- Nothing is written when coverage grows. -/
theorem mirror_cover (apart : fresh a → ¬ covered a)
    (grown : covered' a ↔ fresh a ∨ covered a) :
    (l.cover fresh).mirror covered' a n ↔ l.mirror covered a n := by
  simp only [mirror, cover, grown]
  constructor
  · rintro ⟨held, covers, onTime⟩
    have stale : ¬ fresh a := fun now => onTime (.inr ⟨held, now⟩)
    exact ⟨held, covers.resolve_left stale, fun late => onTime (.inl late)⟩
  · rintro ⟨held, covers, onTime⟩
    exact ⟨held, .inr covers, fun late =>
      late.elim onTime fun now => apart now.2 covers⟩

theorem mirror_restrict (shrunk : covered' a → covered a) :
    l.mirror covered' a n ↔ l.mirror covered a n ∧ covered' a :=
  ⟨fun ⟨held, covers, onTime⟩ => ⟨⟨held, shrunk covers, onTime⟩, covers⟩,
    fun ⟨⟨held, _, onTime⟩, covers⟩ => ⟨held, covers, onTime⟩⟩

end Links
end DockerDns.Library
