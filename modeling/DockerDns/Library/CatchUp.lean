/-!
# Copies that lag behind

A reader keeps a copy of a cell that changes elsewhere. Every change queues a
notice. On a notice that the cell was filled the reader looks at the cell as it
is by then; on a notice that it was cleared it drops its copy. However far the
reader lags, its copy is right once no notice is left. A value that its notices
carry along is followed in the same way.
-/
namespace DockerDns.Library

variable {ε α : Type}

/-- What a notice says about one cell. -/
inductive Signal where
  | filled | cleared | silent
  deriving DecidableEq, Repr

/-- What the reader's copy becomes. -/
def Signal.read : Signal → (cell copy : Option α) → Option α
  | .filled, cell, copy => cell.or copy
  | .cleared, _, _ => none
  | .silent, _, copy => copy

/-- The change a notice stands for. Filling an empty cell may leave it empty. -/
def Signal.Reports : Signal → (before after : Option α) → Prop
  | .filled, before, after => after = none → before = none
  | .cleared, _, after => after = none
  | .silent, before, after => after = before

variable (signal : ε → Signal)

/-- Every notice of a clearing is followed by one of a filling. -/
def Refilled : List ε → Prop
  | [] => True
  | e :: rest => (signal e = .cleared → ∃ f ∈ rest, signal f = .filled) ∧ Refilled rest

/-- The copy is right up to the notices that are still queued. -/
structure CaughtUp (cell copy : Option α) (queue : List ε) : Prop where
  empty : cell = none → copy = none ∨ ∃ e ∈ queue, signal e = .cleared
  held : ∀ v, cell = some v → copy = some v ∨ ∃ e ∈ queue, signal e = .filled
  refilled : cell.isSome → Refilled signal queue

variable {signal} {cell cell' copy : Option α} {queue rest : List ε} {e : ε}

theorem refilled_filled (queue : List ε) (filled : signal e = .filled) :
    Refilled signal (queue ++ [e]) := by
  induction queue with
  | nil =>
    refine ⟨fun cleared => ?_, trivial⟩
    rw [filled] at cleared
    cases cleared
  | cons f rest ih => exact ⟨fun _ => ⟨e, by simp, filled⟩, ih⟩

theorem Refilled.append (refilled : Refilled signal queue) (kept : signal e ≠ .cleared) :
    Refilled signal (queue ++ [e]) := by
  induction queue with
  | nil => exact ⟨fun cleared => absurd cleared kept, trivial⟩
  | cons f rest ih =>
    refine ⟨fun cleared => ?_, ih refilled.2⟩
    obtain ⟨g, member, filled⟩ := refilled.1 cleared
    exact ⟨g, List.mem_append_left _ member, filled⟩

/-- A cell that holds something was filled last. -/
theorem refilled_notice (refilled : cell.isSome → Refilled signal queue)
    (reports : (signal e).Reports cell cell') (holds : cell'.isSome) :
    Refilled signal (queue ++ [e]) := by
  cases kind : signal e with
  | filled => exact refilled_filled queue kind
  | cleared =>
    rw [kind] at reports
    rw [show cell' = none from reports] at holds
    cases holds
  | silent =>
    rw [kind] at reports
    rw [show cell' = cell from reports] at holds
    refine (refilled holds).append ?_
    rw [kind]
    exact nofun

/-- A copy of the cell as it is has caught up, whatever is still queued. -/
theorem caughtUp_copied (refilled : cell.isSome → Refilled signal queue) :
    CaughtUp signal cell cell queue :=
  ⟨fun empty => .inl empty, fun _ holds => .inl holds, refilled⟩

theorem CaughtUp.notice (caught : CaughtUp signal cell copy queue)
    (reports : (signal e).Reports cell cell') : CaughtUp signal cell' copy (queue ++ [e]) := by
  have later : ∀ {s}, (∃ f ∈ queue, signal f = s) → ∃ f ∈ queue ++ [e], signal f = s := by
    intro s found
    obtain ⟨f, member, kind⟩ := found
    exact ⟨f, List.mem_append_left _ member, kind⟩
  have last : ∀ {s}, signal e = s → ∃ f ∈ queue ++ [e], signal f = s :=
    fun kind => ⟨e, by simp, kind⟩
  have holding := refilled_notice caught.refilled reports
  cases kind : signal e with
  | filled =>
    rw [kind] at reports
    exact ⟨fun empty => (caught.empty (reports empty)).imp_right later,
      fun v _ => .inr (last kind), holding⟩
  | cleared =>
    rw [kind] at reports
    obtain rfl : cell' = none := reports
    exact ⟨fun _ => .inr (last kind), nofun, holding⟩
  | silent =>
    rw [kind] at reports
    obtain rfl : cell' = cell := reports
    exact ⟨fun empty => (caught.empty empty).imp_right later,
      fun v holds => (caught.held v holds).imp_right later, holding⟩

/-- The reader takes the first notice and looks at the cell as it is now. -/
theorem CaughtUp.read (caught : CaughtUp signal cell copy (e :: rest)) :
    CaughtUp signal cell ((signal e).read cell copy) rest := by
  have refilled : cell.isSome → Refilled signal rest := fun holds => (caught.refilled holds).2
  cases kind : signal e with
  | filled =>
    cases cell with
    | none =>
      refine ⟨fun _ => ?_, nofun, refilled⟩
      rcases caught.empty rfl with none | ⟨f, member, cleared⟩
      · exact .inl none
      · rcases List.mem_cons.mp member with rfl | later
        · rw [kind] at cleared
          cases cleared
        · exact .inr ⟨f, later, cleared⟩
    | some v => exact caughtUp_copied refilled
  | cleared =>
    refine ⟨fun _ => .inl rfl, fun v holds => .inr ?_, refilled⟩
    exact (caught.refilled (holds ▸ rfl)).1 kind
  | silent =>
    refine ⟨fun empty => (caught.empty empty).imp_right ?_,
      fun v holds => (caught.held v holds).imp_right ?_, refilled⟩ <;>
    · intro found
      obtain ⟨f, member, other⟩ := found
      rcases List.mem_cons.mp member with rfl | later
      · rw [kind] at other
        cases other
      · exact ⟨f, later, other⟩

/-- With no notice left the copy is the cell. -/
theorem CaughtUp.settled (caught : CaughtUp signal cell copy []) : copy = cell := by
  cases cell with
  | none => exact (caught.empty rfl).resolve_right (by simp)
  | some v => exact (caught.held v rfl).resolve_right (by simp)

section Written
variable (written : ε → Option α)

/-- The value the last of the notices carries. -/
def lastWritten : List ε → Option α
  | [] => none
  | e :: rest => (lastWritten rest).or (written e)

/-- Once the queued values are taken, the copy is the value. -/
def Follows (value copy : α) (queue : List ε) : Prop :=
  (lastWritten written queue).getD copy = value

variable {written} {value copy : α} {queue rest : List ε} {e : ε}

theorem lastWritten_append : lastWritten written (queue ++ [e]) =
    (written e).or (lastWritten written queue) := by
  induction queue with
  | nil => simp [lastWritten]
  | cons f rest ih => simp only [List.cons_append, lastWritten, ih, Option.or_assoc]

theorem Follows.notice (follows : Follows written value copy queue) :
    Follows written ((written e).getD value) copy (queue ++ [e]) := by
  unfold Follows at follows ⊢
  rw [lastWritten_append]
  cases written e with
  | none => exact follows
  | some w => rfl

theorem Follows.read (follows : Follows written value copy (e :: rest)) :
    Follows written value ((written e).getD copy) rest := by
  unfold Follows at follows ⊢
  rw [lastWritten] at follows
  cases later : lastWritten written rest with
  | none =>
    rw [later] at follows
    exact follows
  | some w =>
    rw [later] at follows
    exact follows

end Written
end DockerDns.Library
