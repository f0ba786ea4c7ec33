import BacktraceLog.Lib.Run

/-!
# Bounded append-only lists

A list with a fixed capacity: what arrives while there is room is kept in
order, the rest is dropped. Pushing one item at a time is truncating the
whole sequence once, and so is a whole life of edits: a bounded list shows
the first items of what an unbounded one would hold.
-/

namespace Bounded

variable {α : Type}

/-- Append `x` if there is room. -/
def push (cap : Nat) (xs : List α) (x : α) : List α :=
  if xs.length < cap then xs ++ [x] else xs

theorem length_push_le {cap : Nat} {xs : List α} (h : xs.length ≤ cap)
    (x : α) : (push cap xs x).length ≤ cap := by
  unfold push
  split
  · rw [List.length_append, List.length_singleton]
    omega
  · exact h

/-- **Truncation once**: pushing the items of `ys` one by one keeps the
first `cap` of the whole. -/
theorem foldl_push {cap : Nat} {xs : List α} (ys : List α)
    (h : xs.length ≤ cap) : ys.foldl (push cap) xs = (xs ++ ys).take cap := by
  induction ys generalizing xs with
  | nil => simp [List.take_of_length_le h]
  | cons y ys ih =>
      rw [List.foldl_cons, ih (length_push_le h y)]
      by_cases hlt : xs.length < cap
      · rw [push, if_pos hlt, List.append_assoc]
        rfl
      · have hfull : xs.length = cap := by omega
        rw [push, if_neg hlt, ← hfull, List.take_left, List.take_left]

/-! ## Edits -/

/-- What happens to a list in the course of its life. -/
inductive Edit (α : Type) where
  | replace (xs : List α)
  | extend (xs : List α)
  | erase
  | keep

namespace Edit

/-- The edit of a list without bound. -/
def apply (l : List α) : Edit α → List α
  | .replace xs => xs
  | .extend xs => l ++ xs
  | .erase => []
  | .keep => l

/-- The edit of a list of capacity `cap`. -/
def applyBounded (cap : Nat) (l : List α) : Edit α → List α
  | .replace xs => xs.take cap
  | .extend xs => (l ++ xs).take cap
  | .erase => []
  | .keep => l

/-- Cutting off first loses nothing that is not cut off in the end. -/
theorem take_append_take (cap : Nat) (l xs : List α) :
    (l.take cap ++ xs).take cap = (l ++ xs).take cap := by
  by_cases h : l.length ≤ cap
  · rw [List.take_of_length_le h]
  · have hfull : (l.take cap).length = cap := by
      rw [List.length_take]
      omega
    rw [List.take_append_of_le_length (by omega),
      List.take_append_of_le_length (by omega), List.take_take,
      Nat.min_self]

theorem applyBounded_take (cap : Nat) (l : List α) (e : Edit α) :
    applyBounded cap (l.take cap) e = (apply l e).take cap := by
  cases e with
  | replace xs => rfl
  | extend xs => exact take_append_take cap l xs
  | erase => exact List.take_nil.symm
  | keep => rfl

/-- **Bounded edits truncate**: after any edits a list that was in bounds is
the start of the unbounded one. -/
theorem run_applyBounded {cap : Nat} {l : List α} (h : l.length ≤ cap)
    (es : List (Edit α)) :
    Run.run (applyBounded cap) l es = (Run.run apply l es).take cap := by
  have htruncate : ∀ l : List α, Run.run (applyBounded cap) (l.take cap) es
      = (Run.run apply l es).take cap := by
    induction es with
    | nil => exact fun _ => rfl
    | cons e es ih =>
        intro l
        rw [Run.run_cons, Run.run_cons, applyBounded_take]
        exact ih (apply l e)
  rw [← htruncate, List.take_of_length_le h]

end Edit

end Bounded
