import Mathlib.Data.List.Basic

/-!
# First-in first-out buffers

The purpose of a queue, without capacity, threads or reasons for a removal: values are
admitted at the back and leave from the front. Every history of such a buffer conserves
its values and their order.
-/

namespace Fifo

variable {α : Type*}

inductive Event (α : Type*)
  | accept (value : α)
  | remove (values : List α)

namespace Event

def admitted : Event α → List α
  | accept v => [v]
  | remove _ => []

def removed : Event α → List α
  | accept _ => []
  | remove vs => vs

end Event

/-- A history takes the buffer from `xs` to `ys`. -/
inductive Replay : List α → List (Event α) → List α → Prop
  | nil (xs : List α) : Replay xs [] xs
  | accept {xs ys : List α} {v : α} {es : List (Event α)} :
      Replay (xs ++ [v]) es ys → Replay xs (.accept v :: es) ys
  | remove {xs ys vs : List α} {es : List (Event α)} :
      Replay xs es ys → Replay (vs ++ xs) (.remove vs :: es) ys

variable {xs ys zs : List α} {es fs : List (Event α)}

theorem Replay.append (h : Replay xs es ys) (h' : Replay ys fs zs) :
    Replay xs (es ++ fs) zs := by
  induction h with
  | nil => exact h'
  | accept _ ih => exact .accept (ih h')
  | remove _ ih => exact .remove (ih h')

/-- Conservation: what left, followed by what is still there, is what was there
followed by what came in. -/
theorem Replay.conserves (h : Replay xs es ys) :
    es.flatMap Event.removed ++ ys = xs ++ es.flatMap Event.admitted := by
  induction h with
  | nil => simp
  | accept _ ih => simpa [Event.removed, Event.admitted] using ih
  | remove _ ih => simpa [Event.removed, Event.admitted] using ih

end Fifo
