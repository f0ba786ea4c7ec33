import BacktraceLog.Log.Boot

/-!
# The checksum as a sum of half-words

`xorChecksum16` goes through memory in 32-bit words and folds at the end;
what it computes is the XOR of all 16-bit words and the seed. So it can be
taken in two parts, and a log with one half-word changed, in the part that
is covered or in the stored checksum, is not taken for a good one.
-/

namespace BacktraceLog

open XorSum

/-- **The loop, the fold and the odd tail** sum the half-words. -/
theorem xorChecksum16_eq (x : Nat → Word) (n : Nat) (seed : BitVec 16) :
    xorChecksum16 x n seed = seed ^^^ range (half x) 0 n := by
  have hfold : ∀ y : Word,
      ((y >>> 16) ^^^ (y.setWidth 16).setWidth 32).setWidth 16 = fold16 y := by
    intro y
    rw [BitVec.setWidth_xor, fold16]
    simp
  have hpairs : fold16 (loop x (seed.setWidth 32) (n / 2))
      = seed ^^^ range (half x) 0 (2 * (n / 2)) := by
    rw [loop_eq, fold16_xor, fold16_setWidth, ← range_half]
  simp only [xorChecksum16]
  by_cases hodd : n % 2 = 1
  · have hn : n = 2 * (n / 2) + 1 := by omega
    have htail : range (half x) 0 n
        = range (half x) 0 (2 * (n / 2)) ^^^ (x (n / 2)).setWidth 16 := by
      conv => lhs; rw [hn]
      rw [range_succ, Nat.zero_add, half_even]
    rw [if_pos hodd, BitVec.setWidth_xor, hfold, hpairs, htail,
      BitVec.xor_assoc]
    simp
  · have hn : 2 * (n / 2) = n := by omega
    rw [if_neg hodd, hfold, hpairs, hn]

/-- Memory whose first half-words are `ws`. -/
def HalfWordsAre (x : Nat → Word) (ws : List (BitVec 16)) : Prop :=
  ∀ i (hi : i < ws.length), half x i = ws[i]

/-- Any list can be read as words, two half-words to one. -/
def packed (ws : List (BitVec 16)) (i : Nat) : Word :=
  ws.getD (2 * i + 1) 0 ++ ws.getD (2 * i) 0

theorem packed_halfWordsAre (ws : List (BitVec 16)) :
    HalfWordsAre (packed ws) ws := by
  have hhigh : ∀ x y : BitVec 16, ((x ++ y) >>> 16).setWidth 16 = x := by
    intro x y
    ext j hj
    rw [BitVec.getElem_setWidth, BitVec.getLsbD_ushiftRight,
      BitVec.getLsbD_append, if_neg (by omega), Nat.add_sub_cancel_left,
      BitVec.getLsbD_eq_getElem hj]
  intro i hi
  have hget : ws.getD i 0 = ws[i] := by simp [hi]
  rw [← hget]
  rcases Nat.mod_two_eq_zero_or_one i with heven | hodd
  · obtain ⟨k, rfl⟩ : ∃ k, i = 2 * k := ⟨i / 2, by omega⟩
    rw [half_even]
    exact BitVec.setWidth_append_eq_right
  · obtain ⟨k, rfl⟩ : ∃ k, i = 2 * k + 1 := ⟨i / 2, by omega⟩
    rw [half_odd]
    exact hhigh _ _

/-- The sum of the half-words from an even one on, in the words there. -/
theorem range_half_shift (x : Nat → Word) (k n : Nat) :
    range (half fun i => x (k + i)) 0 n = range (half x) (2 * k) n := by
  have hhalf : half (fun i => x (k + i)) = fun i => half x (2 * k + i) := by
    funext i
    have hmod : (2 * k + i) % 2 = i % 2 := by omega
    have hdiv : (2 * k + i) / 2 = k + i / 2 := by omega
    simp only [half, hmod, hdiv]
  rw [hhalf, range_shift, Nat.add_zero]

/-- **An even part first**, its checksum the seed for the rest. -/
theorem xorChecksum16_append (x : Nat → Word) (k n : Nat)
    (seed : BitVec 16) :
    xorChecksum16 x (2 * k + n) seed
      = xorChecksum16 (fun i => x (k + i)) n
        (xorChecksum16 x (2 * k) seed) := by
  rw [xorChecksum16_eq, xorChecksum16_eq, xorChecksum16_eq, range_add,
    range_half_shift, Nat.zero_add, BitVec.xor_assoc]

/-! ## One changed half-word -/

variable {b : Build} {p q : Ram} {k : Nat}

/-- `do_checksum` sums the half-words from `max` to `pc[MAX - 1]`. -/
theorem doChecksum_half (b : Build) (p : Ram) :
    doChecksum b p
      = (range (half p.word) 2 (2 * (12 + b.MAX))).setWidth 32 := by
  rw [doChecksum_eq, ← range_half]

/-- The union in `q` is that in `p` but for half-word `k`. -/
structure HalfChanged (b : Build) (p q : Ram) (k : Nat) : Prop where
  lt : k < 2 * (13 + b.MAX)
  changed : half q.word k ≠ half p.word k
  same : ∀ j, j < 2 * (13 + b.MAX) → j ≠ k → half q.word j = half p.word j

/-- **No single half-word can be changed unnoticed**: not in the covered
words, where the sum changes, nor in the stored checksum itself. -/
theorem HalfChanged.not_sealed (h : HalfChanged b p q k)
    (hp : Sealed b p) : ¬ Sealed b q := by
  have hlt := h.lt
  intro hq
  rw [Sealed, doChecksum_half] at hp hq
  by_cases hk : 2 ≤ k
  · -- the stored checksum is the same, the sum is not
    have hstored : q.word 0 = p.word 0 :=
      eq_of_half (h.same 0 (by omega) (by omega))
        (h.same 1 (by omega) (by omega))
    have hsum : range (half q.word) 2 (2 * (12 + b.MAX))
        ≠ range (half p.word) 2 (2 * (12 + b.MAX)) :=
      range_ne_of_one hk (by omega) h.changed
        fun j _ hj hne => h.same j (by omega) hne
    rw [Ram.chksum, hstored] at hq
    exact hsum (setWidth_inj.mp (hq.symm.trans hp))
  · -- the sum is the same, the stored checksum is not
    have hsum : range (half q.word) 2 (2 * (12 + b.MAX))
        = range (half p.word) 2 (2 * (12 + b.MAX)) :=
      range_congr fun j h1 h2 => h.same j (by omega) (by omega)
    rw [hsum] at hq
    have hstored : q.word 0 = p.word 0 := hq.trans hp.symm
    have hhalf : half q.word k = half p.word k := by
      have hdiv : k / 2 = 0 := by omega
      rw [half, half, hdiv, hstored]
    exact h.changed hhalf

/-- **The folded checksum is the XOR of all half-words**, of any number of
them and from any seed; an even part can be summed first; and a boot takes
a sealed log with one half-word changed as it takes one it is to empty. -/
theorem checksum_sums_half_words :
    (∀ (ws : List (BitVec 16)) (x : Nat → Word) (seed : BitVec 16),
        HalfWordsAre x ws → xorChecksum16 x ws.length seed
          = ws.foldl (· ^^^ ·) seed)
      ∧ (∀ (x : Nat → Word) (k n : Nat) (seed : BitVec 16),
        xorChecksum16 x (2 * k + n) seed
          = xorChecksum16 (fun i => x (k + i)) n
            (xorChecksum16 x (2 * k) seed))
      ∧ ∀ (b : Build) (p q : Ram) (k : Nat), Sealed b p →
        HalfChanged b p q k → ¬ Sealed b q
          ∧ ∀ max, backtraceLogInit b q max false
            = backtraceLogInit b q max true := by
  refine ⟨fun ws x seed h => ?_, xorChecksum16_append,
    fun b p q k hp h => ⟨h.not_sealed hp, fun max => ?_⟩⟩
  · rw [xorChecksum16_eq, foldl_xor_eq (half x) ws seed h]
  · rw [backtraceLogInit_unsealed (h.not_sealed hp),
      backtraceLogInit_unsealed (h.not_sealed hp)]

/-- A buffer of zeros is sealed, and is not with a one in it. -/
theorem checksum_sums_half_words_three :
    xorChecksum16 (packed [1, 2, 4]) 3 8 = 15
      ∧ ¬ Sealed minimalBuild ⟨fun i => if i = 1 then 1 else 0, 0⟩ := by
  refine ⟨?_, ?_⟩
  · exact checksum_sums_half_words.1 [1, 2, 4] (packed [1, 2, 4]) 8
      (packed_halfWordsAre _)
  · exact (checksum_sums_half_words.2.2 minimalBuild ⟨fun _ => 0, 0⟩ _ 2
      (by decide) ⟨by decide, by decide, by decide⟩).1

end BacktraceLog
