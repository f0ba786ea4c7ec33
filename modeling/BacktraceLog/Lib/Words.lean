import Mathlib.Algebra.Group.Nat.Defs

/-!
# Words in memory

Three things a machine does that only has loads of whole words: it rounds
an address down to that of the word around it, takes the word apart into
its bytes, and keeps the word it fetched last. Clearing the low `k` bits
rounds down to a multiple of `2 ^ k` and keeping them alone gives the rest;
both are stated on the numbers, where `omega` goes on. Of four bytes, the
lowest first, each is got back by a shift. And as long as a cache of one
line is coherent a lookup cannot be told from a fetch.
-/

namespace Align

variable {w : Nat}

/-- The word with the low `k` bits set. -/
def lowMask (w k : Nat) : BitVec w := .ofNat w (2 ^ k - 1)

theorem getLsbD_lowMask {k i : Nat} (hk : k ≤ w) :
    (lowMask w k).getLsbD i = decide (i < k) := by
  have hlt : 2 ^ k - 1 < 2 ^ w := by
    have hpos := Nat.two_pow_pos k
    have hle := Nat.pow_le_pow_right (Nat.zero_lt_two) hk
    omega
  rw [lowMask, ← BitVec.testBit_toNat, BitVec.toNat_ofNat,
    Nat.mod_eq_of_lt hlt]
  exact Nat.testBit_two_pow_sub_one k i

/-- **Clearing the low bits rounds down.** -/
theorem toNat_and_not_lowMask (x : BitVec w) {k : Nat} (hk : k ≤ w) :
    (x &&& ~~~lowMask w k).toNat = 2 ^ k * (x.toNat / 2 ^ k) := by
  refine Nat.eq_of_testBit_eq fun i => ?_
  rw [BitVec.testBit_toNat, BitVec.getLsbD_and, BitVec.getLsbD_not,
    getLsbD_lowMask hk, Nat.testBit_two_pow_mul, Nat.testBit_div_two_pow,
    BitVec.testBit_toNat]
  by_cases hi : k ≤ i
  · rw [Nat.sub_add_cancel hi]
    by_cases hw : i < w
    · simp [hi, hw, Nat.not_lt_of_le hi]
    · simp [hw, BitVec.getLsbD_of_ge x i (Nat.le_of_not_lt hw)]
  · simp [hi, Nat.lt_of_not_le hi]

/-- Keeping them alone is the remainder. -/
theorem toNat_and_lowMask (x : BitVec w) {k : Nat} (hk : k ≤ w) :
    (x &&& lowMask w k).toNat = x.toNat % 2 ^ k := by
  refine Nat.eq_of_testBit_eq fun i => ?_
  rw [BitVec.testBit_toNat, BitVec.getLsbD_and, getLsbD_lowMask hk,
    Nat.testBit_mod_two_pow, BitVec.testBit_toNat, Bool.and_comm]

end Align

namespace WordCache

/-! ## The bytes of a word -/

/-- The little-endian word of four bytes. -/
def ofBytes (b : Fin 4 → BitVec 8) : BitVec 32 := b 3 ++ b 2 ++ b 1 ++ b 0

/-- Shifted down by its position, a byte is the lowest. -/
theorem byte_ofBytes (b : Fin 4 → BitVec 8) (i : Fin 4) :
    (ofBytes b >>> (i.val * 8)).setWidth 8 = b i := by
  rw [BitVec.setWidth_ushiftRight_eq_extractLsb, ofBytes]
  -- the bytes below the one wanted go one by one
  match i with
  | 0 => exact BitVec.extractLsb'_append_eq_right
  | 1 =>
      show BitVec.extractLsb' 8 8 _ = _
      rw [BitVec.extractLsb'_append_eq_of_le (by decide)]
      exact BitVec.extractLsb'_append_eq_right
  | 2 =>
      show BitVec.extractLsb' 16 8 _ = _
      rw [BitVec.extractLsb'_append_eq_of_le (by decide),
        BitVec.extractLsb'_append_eq_of_le (by decide)]
      exact BitVec.extractLsb'_append_eq_right
  | 3 =>
      show BitVec.extractLsb' 24 8 _ = _
      rw [BitVec.extractLsb'_append_eq_of_le (by decide),
        BitVec.extractLsb'_append_eq_of_le (by decide)]
      exact BitVec.extractLsb'_append_eq_left

/-! ## A cache of one line -/

variable {τ δ : Type}

/-- The line in the cache. -/
structure Line (τ δ : Type) where
  addr : τ
  data : δ

namespace Line

variable [DecidableEq τ] {fetch : τ → δ} {Valid : τ → Prop} {l : Line τ δ}
  {a : τ}

/-- The line for `a`, fetched unless it is in the cache. -/
def lookup (fetch : τ → δ) (l : Line τ δ) (a : τ) : Line τ δ :=
  if a ≠ l.addr then ⟨a, fetch a⟩ else l

/-- A line under an address in use holds what is fetched from there. -/
def Coherent (fetch : τ → δ) (Valid : τ → Prop) (l : Line τ δ) : Prop :=
  Valid l.addr → l.data = fetch l.addr

theorem Coherent.lookup (h : l.Coherent fetch Valid) (a : τ) :
    (l.lookup fetch a).Coherent fetch Valid := by
  unfold Line.lookup
  split
  · exact fun _ => rfl
  · exact h

/-- **A lookup is a fetch.** -/
theorem Coherent.lookup_data (h : l.Coherent fetch Valid) (ha : Valid a) :
    (l.lookup fetch a).data = fetch a := by
  unfold Line.lookup
  by_cases hhit : a = l.addr
  · subst hhit
    rw [if_neg (not_not_intro rfl)]
    exact h ha
  · rw [if_pos hhit]

end Line

end WordCache
