/-!
# Word-addressed memory

A block of memory seen as `w`-bit words at indices `0, 1, 2, …`. There is
no upper end: what lies past the object a program means to write is
memory like any other. What was touched is recorded instead, as the
high-water mark `storeEnd`, so that "no store runs past index `n`" is a
statement about the memory after the run.
-/

/-- Words and one past the highest word a store has reached. -/
structure WordMem (w : Nat) where
  word : Nat → BitVec w
  storeEnd : Nat

namespace WordMem

variable {w : Nat}

/-- `p[i] = v`. -/
def store (m : WordMem w) (i : Nat) (v : BitVec w) : WordMem w :=
  { word := fun j => if j = i then v else m.word j
    storeEnd := max m.storeEnd (i + 1) }

/-- `n` words from `lo` on overwritten with `f lo, …, f (lo + n - 1)`: a
block copy, or with a constant `f` a `memset`. -/
def blit (m : WordMem w) (lo n : Nat) (f : Nat → BitVec w) : WordMem w :=
  { word := fun j => if lo ≤ j ∧ j < lo + n then f j else m.word j
    storeEnd := if n = 0 then m.storeEnd else max m.storeEnd (lo + n) }

/-- The same in a memory of `size` words, the last followed by the first:
what is left at the end goes on at word 0. -/
def blitRound (m : WordMem w) (size lo n : Nat) (f : Nat → BitVec w) :
    WordMem w :=
  (m.blit lo (min n (size - lo)) f).blit 0 (lo + n - size) f

theorem word_store (m : WordMem w) (i j : Nat) (v : BitVec w) :
    (m.store i v).word j = if j = i then v else m.word j := rfl

@[simp] theorem word_store_self (m : WordMem w) (i : Nat) (v : BitVec w) :
    (m.store i v).word i = v := by
  simp [word_store]

@[simp] theorem word_store_ne (m : WordMem w) {i j : Nat} (v : BitVec w)
    (h : j ≠ i) : (m.store i v).word j = m.word j := by
  simp [word_store, h]

@[simp] theorem storeEnd_store (m : WordMem w) (i : Nat) (v : BitVec w) :
    (m.store i v).storeEnd = max m.storeEnd (i + 1) := rfl

theorem word_blit (m : WordMem w) (lo n j : Nat) (f : Nat → BitVec w) :
    (m.blit lo n f).word j
      = if lo ≤ j ∧ j < lo + n then f j else m.word j := rfl

theorem word_blit_in (m : WordMem w) {lo n j : Nat} (f : Nat → BitVec w)
    (h1 : lo ≤ j) (h2 : j < lo + n) : (m.blit lo n f).word j = f j := by
  rw [word_blit, if_pos ⟨h1, h2⟩]

theorem word_blit_out (m : WordMem w) {lo n j : Nat} (f : Nat → BitVec w)
    (h : j < lo ∨ lo + n ≤ j) : (m.blit lo n f).word j = m.word j := by
  rw [word_blit, if_neg (by omega)]

/-- A store inside the object keeps the high-water mark inside it. -/
theorem storeEnd_store_le {m : WordMem w} {i n : Nat} (v : BitVec w)
    (h : m.storeEnd ≤ n) (hi : i < n) : (m.store i v).storeEnd ≤ n := by
  rw [storeEnd_store]
  omega

theorem storeEnd_blit_le {m : WordMem w} {lo k n : Nat}
    (f : Nat → BitVec w) (h : m.storeEnd ≤ n) (hk : lo + k ≤ n) :
    (m.blit lo k f).storeEnd ≤ n := by
  simp only [blit]
  split <;> omega

/-! ## Stores that come round -/

theorem blit_zero (m : WordMem w) (lo : Nat) (f : Nat → BitVec w) :
    m.blit lo 0 f = m := by
  have hword : (m.blit lo 0 f).word = m.word :=
    funext fun j => word_blit_out m f (by omega)
  cases m
  exact congrArg (WordMem.mk · _) hword

/-- Before the end of the memory there is nothing to come round. -/
theorem blitRound_of_le (m : WordMem w) {size lo n : Nat}
    (f : Nat → BitVec w) (h : lo + n ≤ size) :
    m.blitRound size lo n f = m.blit lo n f := by
  have hmin : min n (size - lo) = n := by omega
  have hrest : lo + n - size = 0 := by omega
  rw [blitRound, hmin, hrest, blit_zero]

theorem word_blitRound (m : WordMem w) {size lo n j : Nat}
    (f : Nat → BitVec w) (hlo : lo ≤ size) (hj : j < size) :
    (m.blitRound size lo n f).word j
      = if lo ≤ j ∧ j < lo + n ∨ j + size < lo + n then f j
        else m.word j := by
  rw [blitRound, word_blit, word_blit]
  by_cases hround : j + size < lo + n
  · rw [if_pos (by omega), if_pos (.inr hround)]
  · rw [if_neg (by omega)]
    by_cases hin : lo ≤ j ∧ j < lo + n
    · rw [if_pos (by omega), if_pos (.inl hin)]
    · rw [if_neg (by omega), if_neg (by omega)]

/-- A word has been overwritten, or it has not. -/
theorem word_blitRound_or (m : WordMem w) (size lo n j : Nat)
    (f : Nat → BitVec w) :
    (m.blitRound size lo n f).word j = f j
      ∨ (m.blitRound size lo n f).word j = m.word j := by
  rw [blitRound, word_blit, word_blit]
  split
  · exact .inl rfl
  · split
    · exact .inl rfl
    · exact .inr rfl

/-! ## Agreement -/

/-- The words below `n` are the same. -/
def AgreeTo (n : Nat) (m m' : WordMem w) : Prop :=
  ∀ i, i < n → m.word i = m'.word i

namespace AgreeTo

variable {n : Nat} {m m' : WordMem w}

theorem store (h : AgreeTo n m m') (i : Nat) {v v' : BitVec w}
    (hv : v = v') : AgreeTo n (m.store i v) (m'.store i v') := by
  intro j hj
  rw [word_store, word_store, hv, h j hj]

theorem blit (h : AgreeTo n m m') (lo : Nat) {k k' : Nat} (hk : k = k')
    (f : Nat → BitVec w) : AgreeTo n (m.blit lo k f) (m'.blit lo k' f) := by
  intro j hj
  rw [word_blit, word_blit, hk, h j hj]

theorem blitRound (h : AgreeTo n m m') (size lo : Nat) {k k' : Nat}
    (hk : k = k') (f : Nat → BitVec w) :
    AgreeTo n (m.blitRound size lo k f) (m'.blitRound size lo k' f) :=
  (h.blit lo (congrArg (min · (size - lo)) hk) f).blit 0
    (congrArg (lo + · - size) hk) f

/-- Two branches taken alike. -/
theorem ite {c c' : Prop} [Decidable c] [Decidable c'] (hc : c ↔ c')
    {k k' : WordMem w} (ht : AgreeTo n m m') (he : AgreeTo n k k') :
    AgreeTo n (if c then m else k) (if c' then m' else k') := by
  by_cases h : c
  · rw [if_pos h, if_pos (hc.mp h)]
    exact ht
  · rw [if_neg h, if_neg fun h' => h (hc.mpr h')]
    exact he

end AgreeTo

end WordMem
