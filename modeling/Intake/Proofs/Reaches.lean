import Mathlib.Data.List.Induction
import Mathlib.Tactic.SplitIfs

/-! Systems that wait for moves: which states they reach, and how these are computed. -/
namespace Intake

section
variable {State Step : Type} (admits : State → Step → Bool) (step : State → Step → State)

inductive Reaches (start : State) : List Step → State → Prop
  | none : Reaches start [] start
  | next {moves : List Step} {reached : State} (move : Step) (before : Reaches start moves reached)
      (admitted : admits reached move = true) : Reaches start (moves ++ [move]) (step reached move)

def stateAfter? (start : State) : List Step → Option State
  | [] => some start
  | move :: rest => if admits start move then stateAfter? (step start move) rest else none

end

variable {State Step : Type} {admits : State → Step → Bool} {step : State → Step → State}

theorem stateAfter?_append (start : State) (moves rest : List Step) :
    stateAfter? admits step start (moves ++ rest)
      = (stateAfter? admits step start moves).bind (stateAfter? admits step · rest) := by
  induction moves generalizing start with
  | nil => rfl
  | cons move moves ih =>
    simp only [List.cons_append, stateAfter?]
    split_ifs
    · exact ih _
    · rfl

/-- The states that a system reaches can be computed from its moves. -/
theorem reaches_iff {start reached : State} {moves : List Step} :
    Reaches admits step start moves reached ↔ stateAfter? admits step start moves = some reached := by
  constructor
  · intro run
    induction run with
    | none => rfl
    | next move _ admitted ih => simp [stateAfter?_append, ih, stateAfter?, admitted]
  · intro run
    induction moves using List.reverseRecOn generalizing reached with
    | nil =>
      cases run
      exact .none
    | append_singleton moves move ih =>
      obtain ⟨middle, before, last⟩ :=
        Option.bind_eq_some_iff.mp (stateAfter?_append start moves _ ▸ run)
      simp only [stateAfter?, Option.ite_none_right_eq_some, Option.some.injEq] at last
      obtain ⟨admitted, rfl⟩ := last
      exact .next move (ih before) admitted

/-- Moves in two parts reach what the second part reaches from what the first part does. -/
theorem reaches_append_iff {start reached : State} {moves rest : List Step} :
    Reaches admits step start (moves ++ rest) reached ↔
      ∃ middle, Reaches admits step start moves middle ∧ Reaches admits step middle rest reached := by
  simp only [reaches_iff, stateAfter?_append, Option.bind_eq_some_iff]

theorem reaches_cons_iff {start reached : State} {move : Step} {rest : List Step} :
    Reaches admits step start (move :: rest) reached ↔
      admits start move = true ∧ Reaches admits step (step start move) rest reached := by
  simp only [reaches_iff, stateAfter?, Option.ite_none_right_eq_some]

theorem Reaches.unique {start first second : State} {moves : List Step}
    (left : Reaches admits step start moves first)
    (right : Reaches admits step start moves second) : first = second :=
  Option.some.inj ((reaches_iff.mp left).symm.trans (reaches_iff.mp right))

end Intake
