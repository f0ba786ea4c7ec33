import Mathlib.Logic.Function.Basic

/-!
# A stack shadowed by an array

A stack of any depth, of which an array holds the items nearest to the
bottom, as many as it has room for; what is stacked above is counted but
not kept. An item may be known in part only, while it is being stored: the
stack is a list, top first, of what is known of each item.
-/

namespace Shadow

variable {α : Type}

/-- The elements of `arr` below `cap` are as the stack says. -/
def Shadows (cap : Nat) (arr : Nat → α) : List (α → Prop) → Prop
  | [] => True
  | P :: xs => (xs.length < cap → P (arr xs.length)) ∧ Shadows cap arr xs

variable {cap : Nat} {arr arr' : Nat → α} {xs : List (α → Prop)}

/-- Only what is below the top counts. -/
theorem Shadows.congr (h : Shadows cap arr xs)
    (heq : ∀ i, i < xs.length → arr' i = arr i) : Shadows cap arr' xs := by
  induction xs with
  | nil => trivial
  | cons P xs ih =>
      simp only [List.length_cons] at heq
      refine ⟨fun hlt => ?_, ih h.2 fun i hi => heq i (by omega)⟩
      rw [heq xs.length (by omega)]
      exact h.1 hlt

/-- An item is reserved before anything is stored. -/
theorem Shadows.reserve (h : Shadows cap arr xs) :
    Shadows cap arr ((fun _ => True) :: xs) :=
  ⟨fun _ => trivial, h⟩

/-- Storing the top item tells what it is. -/
theorem Shadows.store (h : Shadows cap arr xs) {Q : α → Prop} {v : α}
    (hv : xs.length < cap → Q v) :
    Shadows cap (Function.update arr xs.length v) (Q :: xs) := by
  refine ⟨fun hlt => ?_, h.congr fun i hi => ?_⟩
  · rw [Function.update_self]
    exact hv hlt
  · exact Function.update_of_ne (by omega) _ _

/-- Above the capacity nothing is asked of an item. -/
theorem Shadows.overflow (h : Shadows cap arr xs) (hfull : cap ≤ xs.length)
    (Q : α → Prop) : Shadows cap arr (Q :: xs) :=
  ⟨fun hlt => absurd hlt (by omega), h⟩

/-- Counted from the bottom, the items are the elements. -/
theorem Shadows.get (h : Shadows cap arr xs) {i : Nat} (hcap : i < cap)
    {P : α → Prop} (hi : xs.reverse[i]? = some P) : P (arr i) := by
  induction xs with
  | nil => simp at hi
  | cons Q xs ih =>
      rw [List.reverse_cons, List.getElem?_append] at hi
      by_cases hlt : i < xs.length
      · rw [if_pos (by simpa using hlt)] at hi
        exact ih h.2 hi
      · rw [if_neg (by simpa using hlt), List.length_reverse] at hi
        obtain ⟨hlen, hQ⟩ := List.getElem?_eq_some_iff.mp hi
        have htop : i = xs.length := by
          simp only [List.length_singleton] at hlen
          omega
        subst htop
        simp only [Nat.sub_self, List.getElem_cons_zero] at hQ
        subst hQ
        exact h.1 hcap

end Shadow
