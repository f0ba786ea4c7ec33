/-!
# XOR sums of words

The XOR of a range of `w`-bit words, the accumulating loop that computes
it, and the fold of a 32-bit sum onto its two half-words, which is the sum
of the half-words. The laws are those of a sum in a group of exponent two:
ranges split, agree when their words agree, differ when one word differs,
and lose exactly what is cleared from them.
-/

namespace XorSum

variable {w : Nat}

/-- The XOR of `f lo, …, f (lo + n - 1)`. -/
def range (f : Nat → BitVec w) (lo : Nat) : Nat → BitVec w
  | 0 => 0
  | n + 1 => range f lo n ^^^ f (lo + n)

/-- The accumulator after `n` turns of `acc ^= f i`, `i = 0, 1, …`. -/
def loop (f : Nat → BitVec w) (acc : BitVec w) : Nat → BitVec w
  | 0 => acc
  | n + 1 => loop f acc n ^^^ f n

@[simp] theorem range_zero (f : Nat → BitVec w) (lo : Nat) :
    range f lo 0 = 0 := rfl

theorem range_succ (f : Nat → BitVec w) (lo n : Nat) :
    range f lo (n + 1) = range f lo n ^^^ f (lo + n) := rfl

/-- Ranges that agree word by word have the same sum. -/
theorem range_congr {f g : Nat → BitVec w} {lo n : Nat}
    (h : ∀ i, lo ≤ i → i < lo + n → f i = g i) :
    range f lo n = range g lo n := by
  induction n with
  | zero => rfl
  | succ n ih =>
      rw [range_succ, range_succ, ih (fun i h1 h2 => h i h1 (by omega)),
        h (lo + n) (by omega) (by omega)]

/-- A range splits at any point. -/
theorem range_add (f : Nat → BitVec w) (lo m n : Nat) :
    range f lo (m + n) = range f lo m ^^^ range f (lo + m) n := by
  induction n with
  | zero => simp
  | succ n ih =>
      rw [← Nat.add_assoc, range_succ, ih, range_succ, BitVec.xor_assoc,
        Nat.add_assoc]

/-- A cleared range sums to zero. -/
theorem range_eq_zero {f : Nat → BitVec w} {lo n : Nat}
    (h : ∀ i, lo ≤ i → i < lo + n → f i = 0) : range f lo n = 0 := by
  induction n with
  | zero => rfl
  | succ n ih =>
      rw [range_succ, ih (fun i h1 h2 => h i h1 (by omega)),
        h (lo + n) (by omega) (by omega)]
      simp

/-- **Clearing takes out what it clears**: `g` is `f` with the words
`lo + m, …, lo + m + k - 1` zeroed. -/
theorem range_cleared {f g : Nat → BitVec w} {lo m k n : Nat}
    (hz : ∀ i, lo + m ≤ i → i < lo + m + k → g i = 0)
    (hs : ∀ i, i < lo + m ∨ lo + m + k ≤ i → i < lo + m + k + n →
      lo ≤ i → g i = f i) :
    range f lo (m + k + n) = range g lo (m + k + n) ^^^ range f (lo + m) k := by
  have hl : range g lo m = range f lo m :=
    range_congr fun i h1 h2 => hs i (.inl h2) (by omega) h1
  have hr : range g (lo + (m + k)) n = range f (lo + (m + k)) n :=
    range_congr fun i h1 h2 => hs i (.inr (by omega)) (by omega) (by omega)
  have hm : range g lo m ^^^ range g (lo + m) k = range f lo m := by
    rw [hl, range_eq_zero hz]
    simp
  rw [range_add f lo (m + k) n, range_add f lo m k,
    range_add g lo (m + k) n, range_add g lo m k, hm, hr,
    BitVec.xor_assoc, BitVec.xor_assoc,
    BitVec.xor_comm (range f (lo + m) k)]

/-- Reading through a shifted window is summing the shifted range. -/
theorem range_shift (f : Nat → BitVec w) (k lo n : Nat) :
    range (fun i => f (k + i)) lo n = range f (k + lo) n := by
  induction n with
  | zero => rfl
  | succ n ih => rw [range_succ, range_succ, ih, Nat.add_assoc]

/-- The loop adds its range to the seed. -/
theorem loop_eq (f : Nat → BitVec w) (acc : BitVec w) (n : Nat) :
    loop f acc n = acc ^^^ range f 0 n := by
  induction n with
  | zero => simp [loop]
  | succ n ih =>
      rw [loop, ih, range_succ, BitVec.xor_assoc, Nat.zero_add]

theorem xor_right_eq_self_iff {x y : BitVec w} : x = x ^^^ y ↔ y = 0 := by
  constructor
  · intro h
    have h1 : x ^^^ x = x ^^^ (x ^^^ y) := by rw [← h]
    rw [← BitVec.xor_assoc, BitVec.xor_self, BitVec.zero_xor] at h1
    exact h1.symm
  · intro h
    subst h
    simp

/-- The two half-words of a 32-bit sum, folded together. -/
def fold16 (x : BitVec 32) : BitVec 16 :=
  (x >>> 16).setWidth 16 ^^^ x.setWidth 16

/-- Folding commutes with summing. -/
theorem fold16_xor (x y : BitVec 32) :
    fold16 (x ^^^ y) = fold16 x ^^^ fold16 y := by
  simp only [fold16, BitVec.ushiftRight_xor_distrib, BitVec.setWidth_xor]
  ac_rfl

/-- A half-word alone is its own fold. -/
theorem fold16_setWidth (x : BitVec 16) : fold16 (x.setWidth 32) = x := by
  have hhigh : ((x.setWidth 32) >>> 16).setWidth 16 = (0 : BitVec 16) := by
    ext i hi
    simp
  rw [fold16, hhigh]
  simp

/-- Widening a folded sum loses nothing. -/
theorem setWidth_inj {x y : BitVec 16} :
    x.setWidth 32 = y.setWidth 32 ↔ x = y := by
  constructor
  · intro h
    have h1 : (x.setWidth 32).setWidth 16 = (y.setWidth 32).setWidth 16 := by
      rw [h]
    simpa using h1
  · intro h
    rw [h]

/-! ## Half-words -/

/-- Half-word `i` of 32-bit words in little-endian order. -/
def half (x : Nat → BitVec 32) (i : Nat) : BitVec 16 :=
  if i % 2 = 0 then (x (i / 2)).setWidth 16
  else (x (i / 2) >>> 16).setWidth 16

theorem half_even (x : Nat → BitVec 32) (i : Nat) :
    half x (2 * i) = (x i).setWidth 16 := by
  have hdiv : 2 * i / 2 = i := by omega
  rw [half, if_pos (by omega), hdiv]

theorem half_odd (x : Nat → BitVec 32) (i : Nat) :
    half x (2 * i + 1) = (x i >>> 16).setWidth 16 := by
  have hdiv : (2 * i + 1) / 2 = i := by omega
  rw [half, if_neg (by omega), hdiv]

/-- A word is its two halves. -/
theorem eq_of_half {x y : Nat → BitVec 32} {i : Nat}
    (hlow : half x (2 * i) = half y (2 * i))
    (hhigh : half x (2 * i + 1) = half y (2 * i + 1)) : x i = y i := by
  rw [half_even, half_even] at hlow
  rw [half_odd, half_odd] at hhigh
  ext j hj
  by_cases h16 : j < 16
  · have hbit := congrArg (fun z => z.getLsbD j) hlow
    simpa [h16, hj] using hbit
  · have hbit := congrArg (fun z => z.getLsbD (j - 16)) hhigh
    have hsub : 16 + (j - 16) = j := by omega
    have hlt : j - 16 < 16 := by omega
    simpa [hsub, hlt, hj] using hbit

/-- **The half-words sum to the folded sum of the words.** -/
theorem range_half (x : Nat → BitVec 32) (lo n : Nat) :
    range (half x) (2 * lo) (2 * n) = fold16 (range x lo n) := by
  induction n with
  | zero => simp [fold16]
  | succ n ih =>
      have hlow : 2 * lo + 2 * n = 2 * (lo + n) := by omega
      have hhigh : 2 * lo + (2 * n + 1) = 2 * (lo + n) + 1 := by omega
      have hword : half x (2 * (lo + n)) ^^^ half x (2 * (lo + n) + 1)
          = fold16 (x (lo + n)) := by
        rw [half_even, half_odd, BitVec.xor_comm]
        rfl
      rw [show 2 * (n + 1) = 2 * n + 1 + 1 by omega, range_succ, range_succ,
        ih, hlow, hhigh, BitVec.xor_assoc, hword, range_succ, fold16_xor]

/-- A half-word sum from a seed is a fold of the seed over them. -/
theorem foldl_xor_eq (f : Nat → BitVec w) (ws : List (BitVec w))
    (seed : BitVec w) (h : ∀ i (hi : i < ws.length), f i = ws[i]) :
    ws.foldl (· ^^^ ·) seed = seed ^^^ range f 0 ws.length := by
  induction ws generalizing f seed with
  | nil => simp
  | cons v ws ih =>
      have hv : f 0 = v := h 0 (by simp)
      have htail : ∀ i (hi : i < ws.length), f (1 + i) = ws[i] := by
        intro i hi
        have hget := h (1 + i) (by simp only [List.length_cons]; omega)
        simpa [Nat.add_comm 1 i] using hget
      have hhead : range f 0 1 = v := by
        rw [range_succ, range_zero, hv]
        simp
      rw [List.foldl_cons, ih (fun i => f (1 + i)) (seed ^^^ v) htail,
        range_shift, List.length_cons, Nat.add_comm ws.length 1, range_add,
        hhead, BitVec.xor_assoc]

/-- **One changed term changes the sum.** -/
theorem range_ne_of_one {f g : Nat → BitVec w} {lo n k : Nat}
    (hlo : lo ≤ k) (hhi : k < lo + n) (hne : f k ≠ g k)
    (hsame : ∀ i, lo ≤ i → i < lo + n → i ≠ k → f i = g i) :
    range f lo n ≠ range g lo n := by
  obtain ⟨m, rfl⟩ : ∃ m, k = lo + m := ⟨k - lo, by omega⟩
  obtain ⟨r, rfl⟩ : ∃ r, n = m + 1 + r := ⟨n - m - 1, by omega⟩
  have hleft : range f lo m = range g lo m :=
    range_congr fun i h1 h2 => hsame i h1 (by omega) (by omega)
  have hright : range f (lo + (m + 1)) r = range g (lo + (m + 1)) r :=
    range_congr fun i h1 h2 => hsame i (by omega) (by omega) (by omega)
  intro h
  rw [range_add, range_add g, range_succ, range_succ, hleft, hright] at h
  exact hne ((BitVec.xor_right_inj _).mp ((BitVec.xor_left_inj _).mp h))

end XorSum
