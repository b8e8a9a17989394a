/-!
# Updates that are local to a region

A store is a valuation of cells. An update is local to a region when it leaves
the cells outside as they are and its result inside depends on the cells inside
alone. Updates local to disjoint regions commute.
-/
namespace DockerDns.Library

variable {φ α : Type}

structure Local (region : φ → Prop) (update : (φ → α) → φ → α) : Prop where
  frame : ∀ v c, ¬ region c → update v c = v c
  reads : ∀ v v', (∀ c, region c → v c = v' c) → ∀ c, region c → update v c = update v' c

variable {region region' : φ → Prop} {update update' : (φ → α) → φ → α}

theorem Local.none : Local region (fun v : φ → α => v) :=
  ⟨fun _ _ _ => rfl, fun _ _ same => same⟩

theorem Local.comp (first : Local region update) (later : Local region update') :
    Local region fun v => update' (update v) := by
  constructor
  · intro v c outside
    rw [later.frame _ c outside, first.frame v c outside]
  · intro v v' same c inside
    exact later.reads _ _ (first.reads v v' same) c inside

theorem Local.mono (inner : Local region update) (le : ∀ c, region c → region' c) :
    Local region' update := by
  constructor
  · intro v c outside
    exact inner.frame v c fun inside => outside (le c inside)
  · intro v v' same c inside
    by_cases here : region c
    · exact inner.reads v v' (fun c inside => same c (le c inside)) c here
    · rw [inner.frame v c here, inner.frame v' c here]
      exact same c inside

/-- Either update finds its region as if the other had not happened. -/
theorem Local.commute (left : Local region update) (right : Local region' update')
    (disjoint : ∀ c, region c → ¬ region' c) (v : φ → α) :
    update (update' v) = update' (update v) := by
  funext c
  by_cases here : region c
  · have elsewhere := disjoint c here
    have seen : update (update' v) c = update v c :=
      left.reads _ _ (fun c inside => right.frame v c (disjoint c inside)) c here
    rw [seen, right.frame _ c elsewhere]
  · rw [left.frame _ c here]
    by_cases there : region' c
    · exact right.reads _ _
        (fun c inside => (left.frame v c fun both => disjoint c both inside).symm) c there
    · rw [right.frame v c there, right.frame _ c there, left.frame v c here]

end DockerDns.Library
