import BacktraceLog.Unwind.Callee

/-!
# What a stop is

The places at which the inner loop of `xt_retaddr_callee_ex` breaks, and
the candidates it breaks with, read off the code bytes and the stack
alone: the exception wrapper, an instruction pair that reserves stack with
the a0 slot in what it reserves, and a return that is near or far enough.
-/

namespace BacktraceLog

variable {c : CodeMap} {m : Mem} {pc sp lr : Word} {off : Nat} {r : Callee}

/-! ## Stops -/

/-- The instructions at `pb` reserve `size` bytes of stack. -/
inductive FrameAt (m : Mem) (pb size : Nat) : Prop where
  | addi : isAddi m pb = true → sidx m pb 2 = -size → 0 < size →
      16 ∣ size → FrameAt m pb size
  | sub : isMovi m pb = true → moviImm m pb = size → 0 < size →
      4 ∣ size → foundWithin32 m (isSub m pb) pb = true → FrameAt m pb size
  | add : isMovi m pb = true → moviImm m pb = -size → 0 < size →
      4 ∣ size → foundWithin32 m (isAddN m pb) pb = true
        ∨ foundWithin32 m (isAdd m pb) pb = true → FrameAt m pb size

/-- A stop at the distance `off` before `pc`, and its candidate. -/
inductive Stop (c : CodeMap) (m : Mem) (pc sp lr : Word) (off : Nat) :
    Callee → Prop where
  | handler : pc.toNat - off = c.xtosCWrapperHandler.toNat →
      Stop c m pc sp lr off ⟨0, sp, .ofNat 32 (pc.toNat - off)⟩
  | frame {size a0 : Nat} {r : Callee} :
      pc.toNat - off ≠ c.xtosCWrapperHandler.toNat →
      FrameAt m (pc.toNat - off) size →
      Released m pc sp off size a0 r → Stop c m pc sp lr off r
  | ret : pc.toNat - off ≠ c.xtosCWrapperHandler.toNat →
      isRet m (pc.toNat - off) = true →
      (decode m).Visits (pc.toNat - off) pc.toNat →
      off ≤ 8 ∨ c.maxLookback < off → Stop c m pc sp lr off ⟨lr, sp, 0⟩

theorem verifyPathRetToPc_iff {pc off : Nat} :
    verifyPathRetToPc m pc off = true
      ↔ (decode m).Visits (pc - off) pc := by
  rw [verifyPathRetToPc, decide_eq_true_eq]
  exact Stride.land_eq_iff (Nat.sub_le pc off)

/-! ### The two frame branches -/

theorem not_isMovi_of_isAddi {pb : Nat} (h : isAddi m pb = true) :
    isMovi m pb = false := by
  simp only [isAddi, Bool.and_eq_true, decide_eq_true_eq] at h
  simp [isMovi, h.2]

theorem moviImm_bounds (m : Mem) (pb : Nat) :
    -2048 ≤ moviImm m pb ∧ moviImm m pb < 2048 := by
  have hlow := BitVec.le_two_mul_toInt
    (x := (idx m pb 1).setWidth 4 ++ idx m pb 2)
  have hhigh := BitVec.two_mul_toInt_lt
    (x := (idx m pb 1).setWidth 4 ++ idx m pb 2)
  unfold moviImm
  omega

theorem addi_branch_iff (haddi : isAddi m (pc.toNat - off) = true) :
    (if 0 ≤ sidx m (pc.toNat - off) 2
        ∨ sidx m (pc.toNat - off) 2 % 16 ≠ 0 then none
      else releaseFrame m pc sp off (-sidx m (pc.toNat - off) 2)) = some r
      ↔ ∃ size a0, FrameAt m (pc.toNat - off) size
        ∧ Released m pc sp off size a0 r := by
  have hmovi := not_isMovi_of_isAddi haddi
  constructor
  · intro h
    by_cases hskip : 0 ≤ sidx m (pc.toNat - off) 2
        ∨ sidx m (pc.toNat - off) 2 % 16 ≠ 0
    · rw [if_pos hskip] at h
      cases h
    · rw [if_neg hskip] at h
      obtain ⟨size, hsize⟩ := Int.eq_ofNat_of_zero_le
        (a := -sidx m (pc.toNat - off) 2) (by omega)
      rw [hsize] at h
      obtain ⟨a0, hr⟩ := releaseFrame_eq_some_iff.mp h
      exact ⟨size, a0, .addi haddi (by omega) (by omega) (by omega), hr⟩
  · rintro ⟨size, a0, hframe, hr⟩
    cases hframe with
    | addi _ hsize hpos hdvd =>
        rw [if_neg (by omega), hsize, Int.neg_neg]
        exact releaseFrame_eq_some_iff.mpr ⟨a0, hr⟩
    | sub h => simp [hmovi] at h
    | add h => simp [hmovi] at h

theorem movi_branch_iff (haddi : isAddi m (pc.toNat - off) ≠ true)
    (hmovi : isMovi m (pc.toNat - off) = true) :
    (if moviImm m (pc.toNat - off) < -2048
          ∨ 2048 ≤ moviImm m (pc.toNat - off)
          ∨ moviImm m (pc.toNat - off) = 0
          ∨ moviImm m (pc.toNat - off) % 4 ≠ 0 then none
      else if 0 < moviImm m (pc.toNat - off) then
        if foundWithin32 m (isSub m (pc.toNat - off)) (pc.toNat - off) then
          releaseFrame m pc sp off (moviImm m (pc.toNat - off))
        else none
      else if foundWithin32 m (isAddN m (pc.toNat - off)) (pc.toNat - off)
          || foundWithin32 m (isAdd m (pc.toNat - off)) (pc.toNat - off) then
        releaseFrame m pc sp off (-moviImm m (pc.toNat - off))
      else none) = some r
      ↔ ∃ size a0, FrameAt m (pc.toNat - off) size
        ∧ Released m pc sp off size a0 r := by
  have hbounds := moviImm_bounds m (pc.toNat - off)
  constructor
  · intro h
    by_cases hskip : moviImm m (pc.toNat - off) < -2048
          ∨ 2048 ≤ moviImm m (pc.toNat - off)
          ∨ moviImm m (pc.toNat - off) = 0
          ∨ moviImm m (pc.toNat - off) % 4 ≠ 0
    · rw [if_pos hskip] at h
      cases h
    rw [if_neg hskip] at h
    by_cases hpos : 0 < moviImm m (pc.toNat - off)
    · rw [if_pos hpos] at h
      by_cases hsub :
          foundWithin32 m (isSub m (pc.toNat - off)) (pc.toNat - off) = true
      · obtain ⟨size, hsize⟩ := Int.eq_ofNat_of_zero_le
          (a := moviImm m (pc.toNat - off)) (by omega)
        rw [if_pos hsub, hsize] at h
        obtain ⟨a0, hr⟩ := releaseFrame_eq_some_iff.mp h
        exact ⟨size, a0, .sub hmovi hsize (by omega) (by omega) hsub, hr⟩
      · rw [if_neg hsub] at h
        cases h
    · rw [if_neg hpos] at h
      by_cases hadd :
          (foundWithin32 m (isAddN m (pc.toNat - off)) (pc.toNat - off)
            || foundWithin32 m (isAdd m (pc.toNat - off)) (pc.toNat - off))
          = true
      · obtain ⟨size, hsize⟩ := Int.eq_ofNat_of_zero_le
          (a := -moviImm m (pc.toNat - off)) (by omega)
        rw [if_pos hadd, hsize] at h
        obtain ⟨a0, hr⟩ := releaseFrame_eq_some_iff.mp h
        exact ⟨size, a0, .add hmovi (by omega) (by omega) (by omega)
          (Bool.or_eq_true_iff.mp hadd), hr⟩
      · rw [if_neg hadd] at h
        cases h
  · rintro ⟨size, a0, hframe, hr⟩
    cases hframe with
    | addi h => exact absurd h haddi
    | sub _ hsize hpos hdvd hfound =>
        rw [if_neg (by omega), if_pos (by omega), if_pos hfound, hsize]
        exact releaseFrame_eq_some_iff.mpr ⟨a0, hr⟩
    | add _ hsize hpos hdvd hfound =>
        rw [if_neg (by omega), if_neg (by omega),
          if_pos (Bool.or_eq_true_iff.mpr hfound), hsize, Int.neg_neg]
        exact releaseFrame_eq_some_iff.mpr ⟨a0, hr⟩

/-- A return is no frame. -/
theorem not_frameAt {pb size : Nat} (haddi : isAddi m pb ≠ true)
    (hmovi : isMovi m pb ≠ true) : ¬ FrameAt m pb size := by
  intro h
  cases h with
  | addi h => exact haddi h
  | sub h => exact hmovi h
  | add h => exact hmovi h

theorem not_isRet_of_isAddi {pb : Nat} (h : isAddi m pb = true) :
    isRet m pb = false := by
  simp only [isAddi, Bool.and_eq_true, decide_eq_true_eq] at h
  simp [isRet, h.1]

theorem not_isRet_of_isMovi {pb : Nat} (h : isMovi m pb = true) :
    isRet m pb = false := by
  simp only [isMovi, Bool.and_eq_true, decide_eq_true_eq] at h
  refine Bool.eq_false_iff.mpr fun hret => ?_
  simp only [isRet, Bool.or_eq_true, Bool.and_eq_true,
    decide_eq_true_eq] at hret
  rcases hret with ⟨hret, -⟩ | ⟨⟨hret, -⟩, -⟩
  · rw [hret] at h
    exact absurd h.1 (by decide)
  · rw [hret] at h
    exact absurd h.1 (by decide)

/-- At the first instruction of a frame only a frame can be the stop. -/
theorem frame_iff (hne : pc.toNat - off ≠ c.xtosCWrapperHandler.toNat)
    (hret : isRet m (pc.toNat - off) = false) :
    (∃ size a0, FrameAt m (pc.toNat - off) size
        ∧ Released m pc sp off size a0 r)
      ↔ Stop c m pc sp lr off r := by
  constructor
  · rintro ⟨size, a0, hframe, hr⟩
    exact .frame hne hframe hr
  · intro h
    cases h with
    | handler h => exact absurd h hne
    | frame _ hframe hr => exact ⟨_, _, hframe, hr⟩
    | ret _ h => simp [hret] at h

/-- **The body of the inner loop breaks at the stops**, with their
candidates. -/
theorem stopAt_eq_some_iff :
    stopAt c m pc sp lr off = some r ↔ Stop c m pc sp lr off r := by
  simp only [stopAt]
  by_cases hhandler : pc.toNat - off = c.xtosCWrapperHandler.toNat
  · rw [if_pos hhandler]
    constructor
    · intro h
      obtain rfl := Option.some.inj h
      exact .handler hhandler
    · intro h
      cases h with
      | handler _ => rfl
      | frame hne => exact absurd hhandler hne
      | ret hne => exact absurd hhandler hne
  rw [if_neg hhandler]
  by_cases haddi : isAddi m (pc.toNat - off) = true
  · rw [if_pos haddi, addi_branch_iff haddi]
    exact frame_iff hhandler (not_isRet_of_isAddi haddi)
  rw [if_neg haddi]
  by_cases hmovi : isMovi m (pc.toNat - off) = true
  · rw [if_pos hmovi, movi_branch_iff haddi hmovi]
    exact frame_iff hhandler (not_isRet_of_isMovi hmovi)
  rw [if_neg hmovi]
  have hnoframe : ∀ size, ¬ FrameAt m (pc.toNat - off) size :=
    fun size => not_frameAt haddi hmovi
  by_cases hret : isRet m (pc.toNat - off) = true
    ∧ verifyPathRetToPc m pc.toNat off = true
    ∧ (off ≤ 8 ∨ c.maxLookback < off)
  · obtain ⟨hret, hpath, hoff⟩ := hret
    rw [if_pos hret, hpath, Bool.not_true, if_neg Bool.false_ne_true,
      if_pos hoff]
    constructor
    · intro h
      obtain rfl := Option.some.inj h
      exact .ret hhandler hret (verifyPathRetToPc_iff.mp hpath) hoff
    · intro h
      cases h with
      | handler h => exact absurd h hhandler
      | frame _ h => exact absurd h (hnoframe _)
      | ret _ _ _ _ => rfl
  · constructor
    · intro h
      by_cases h1 : isRet m (pc.toNat - off) = true
      · by_cases h2 : verifyPathRetToPc m pc.toNat off = true
        · rw [if_pos h1, h2, Bool.not_true, if_neg Bool.false_ne_true,
            if_neg fun h3 => hret ⟨h1, h2, h3⟩] at h
          cases h
        · rw [if_pos h1, if_pos (by simpa using h2)] at h
          cases h
      · rw [if_neg h1] at h
        cases h
    · intro h
      cases h with
      | handler h => exact absurd h hhandler
      | frame _ h => exact absurd h (hnoframe _)
      | ret _ h1 h2 h3 =>
          exact absurd ⟨h1, verifyPathRetToPc_iff.mpr h2, h3⟩ hret

/-! ## The sizes of frames -/

/-- The sizes of the two frame forms. -/
def FrameSize (m : Mem) (pb size : Nat) : Prop :=
  isAddi m pb = true ∧ 0 < size ∧ size ≤ 128 ∧ 16 ∣ size
    ∨ isMovi m pb = true ∧ 0 < size ∧ size ≤ 2048 ∧ 4 ∣ size

theorem FrameAt.frameSize {pb size : Nat} (h : FrameAt m pb size) :
    FrameSize m pb size := by
  have hmovi := moviImm_bounds m pb
  cases h with
  | addi h hsize hpos hdvd =>
      have hlow := BitVec.le_two_mul_toInt (x := idx m pb 2)
      unfold sidx at hsize
      exact .inl ⟨h, hpos, by omega, hdvd⟩
  | sub h hsize hpos hdvd => exact .inr ⟨h, hpos, by omega, hdvd⟩
  | add h hsize hpos hdvd => exact .inr ⟨h, hpos, by omega, hdvd⟩

/-! ## Where the a0 store can be -/

/-- The first a0 store from `pb` on. -/
abbrev StoreHit (m : Mem) (pc pb q : Nat) : Prop :=
  (decode m).FirstHit (fun p => isS32i m p || isS32iN m p) pc pb q

/-- An `ADDI` is three bytes long and stores nothing. -/
theorem addi_step {pb : Nat} (h : isAddi m pb = true) :
    (decode m).next pb = pb + 3
      ∧ (isS32i m pb || isS32iN m pb) = false := by
  simp only [isAddi, Bool.and_eq_true, decide_eq_true_eq] at h
  simp [decode, isS32i, isS32iN, h.1]

/-- A `MOVI` is three bytes long and stores nothing. -/
theorem movi_step {pb : Nat} (h : isMovi m pb = true) :
    (decode m).next pb = pb + 3
      ∧ (isS32i m pb || isS32iN m pb) = false := by
  have hbits : ∀ x : BitVec 8, x &&& 0x0F = 0x02 →
      x &&& 0x08 = 0 ∧ x ≠ 0x09 := by
    decide
  simp only [isMovi, Bool.and_eq_true, decide_eq_true_eq] at h
  obtain ⟨hsize, hne⟩ := hbits _ h.1
  refine ⟨if_neg fun hset => hset hsize, Bool.eq_false_iff.mpr fun ht => ?_⟩
  simp only [isS32i, isS32iN, Bool.or_eq_true, Bool.and_eq_true,
    decide_eq_true_eq] at ht
  rcases ht with ⟨-, h1⟩ | h0
  · rw [h.2] at h1
    exact absurd h1 (by decide)
  · exact hne h0

/-- The first a0 store is behind the first instruction of the frame, which
is three bytes long and no store. -/
theorem FrameAt.store_behind {pb size pc q : Nat} (h : FrameAt m pb size)
    (hq : StoreHit m pc pb q) : pb + 3 ≤ q := by
  have hfirst : (decode m).next pb = pb + 3
      ∧ (isS32i m pb || isS32iN m pb) = false := by
    cases h with
    | addi h => exact addi_step h
    | sub h => exact movi_step h
    | add h => exact movi_step h
  cases hq with
  | here _ ht => simp [hfirst.2] at ht
  | there _ _ hq =>
      have hle := hq.visits.le
      omega

end BacktraceLog
