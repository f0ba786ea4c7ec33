import BacktraceLog.Unwind.Chain

/-!
# The searches behind a MOVI

They step on bit `0x80` of the first byte where every other walk steps on
bit `0x08`, and they look at 32 bytes wherever `pc` is. So they keep to
the instructions of the linear decode only where the two bits agree, and
what they find may not have been executed yet when execution stands at
`pc`.
-/

namespace BacktraceLog

variable {c : CodeMap} {m : Mem} {pc sp iLr : Word} {pb off : Nat}
  {r : Callee}

/-! ## Which instructions are looked at -/

theorem foundWithin32_iff {test : Nat → Bool} :
    foundWithin32 m test pb = true
      ↔ ∃ q, (subDecode m).FirstHit test (pb + 32) (pb + 3) q :=
  Stride.find?_isSome_iff

/-- Where the instruction ends that moves the stack pointer for the frame
at `pb`: the `ADDI` itself, or what the searches find behind the `MOVI`. -/
inductive Mover (m : Mem) (pb : Nat) : Nat → Prop where
  | addi : isAddi m pb = true → Mover m pb (pb + 3)
  | sub {q : Nat} : isMovi m pb = true → 0 < moviImm m pb →
      (subDecode m).FirstHit (isSub m pb) (pb + 32) (pb + 3) q →
      Mover m pb (q + 3)
  | addN {q : Nat} : isMovi m pb = true → moviImm m pb < 0 →
      (subDecode m).FirstHit (isAddN m pb) (pb + 32) (pb + 3) q →
      Mover m pb (q + 2)
  | add {q : Nat} : isMovi m pb = true → moviImm m pb < 0 →
      foundWithin32 m (isAddN m pb) pb = false →
      (subDecode m).FirstHit (isAdd m pb) (pb + 32) (pb + 3) q →
      Mover m pb (q + 3)

/-- Where the a0 store at `q` ends. -/
def storeEnd (m : Mem) (q : Nat) : Nat := if isS32i m q then q + 3 else q + 2

/-- Standing at `pc`, execution is through with the instruction that moves
the stack pointer and with the a0 store of the frame at `pb`. -/
structure SetUp (m : Mem) (pc pb : Nat) : Prop where
  mover : ∃ e, Mover m pb e ∧ e ≤ pc
  store : ∃ q, StoreHit m pc pb q ∧ storeEnd m q ≤ pc

/-- A search behind the `MOVI` with the window cut off at `stop`. -/
def foundBefore (m : Mem) (test : Nat → Bool) (pb stop : Nat) : Bool :=
  ((subDecode m).find? test (pb + 3) (min (pb + 32) stop)).isSome

/-- The search behind a `MOVI` succeeds as well with the window cut off at
`pc`. -/
structure SearchedBefore (m : Mem) (pc pb : Nat) : Prop where
  sub : isMovi m pb = true → 0 < moviImm m pb →
    foundBefore m (isSub m pb) pb (pc - 2) = true
  add : isMovi m pb = true → moviImm m pb < 0 →
    if foundWithin32 m (isAddN m pb) pb then
      foundBefore m (isAddN m pb) pb (pc - 1) = true
    else foundBefore m (isAdd m pb) pb (pc - 2) = true

/-- The decode path from `pb` leads to `pc`, or past an a0 store to one
more instruction before `pc`. -/
def PathPastStore (m : Mem) (pc pb : Nat) : Prop :=
  (decode m).Visits pb pc
    ∨ ∃ p, (decode m).Visits pb p
      ∧ (isS32i m p || isS32iN m p) = true ∧ (decode m).next p < pc

/-- The call succeeds through the frame `off` bytes back. -/
structure FrameSuccess (c : CodeMap) (m : Mem) (pc sp iLr : Word)
    (off : Nat) (r : Callee) : Prop where
  comes : ∃ k, ComesTo c m pc sp (usableLr c iLr) k off r
  valid : xtPcIsValid c r.pc = true
  frame : ∃ size a0, FrameAt m (pc.toNat - off) size
    ∧ Released m pc sp off size a0 r

theorem FrameSuccess.callee (h : FrameSuccess c m pc sp iLr off r)
    (o : Callee) : xtRetaddrCalleeEx c m pc sp iLr o = (true, r) := by
  obtain ⟨k, hk⟩ := h.comes
  exact callee_success_iff.mpr ⟨k, off, hk, h.valid⟩

/-- A released frame has an a0 store. -/
theorem Released.exists_store {size a0 : Nat}
    (h : Released m pc sp off size a0 r) :
    ∃ q, StoreHit m pc.toNat (pc.toNat - off) q := by
  have hslot := h.slot
  unfold findS32iA0A1 at hslot
  split at hslot
  · rename_i q hq
    exact ⟨q, Stride.find?_eq_some_iff.mp hq⟩
  · omega

/-- The decode steps to the end of an a0 store. -/
theorem next_store {q : Nat} (h : (isS32i m q || isS32iN m q) = true) :
    (decode m).next q = storeEnd m q := by
  unfold storeEnd
  by_cases hwide : isS32i m q = true
  · rw [if_pos hwide]
    simp only [isS32i, Bool.and_eq_true, decide_eq_true_eq] at hwide
    simp [decode, hwide.1]
  · have hnarrow : isS32iN m q = true := by simpa [hwide] using h
    rw [if_neg hwide]
    simp only [isS32iN, decide_eq_true_eq] at hnarrow
    simp [decode, hnarrow]

theorem store_end_iff {pc q : Nat} (h : StoreHit m pc pb q) :
    storeEnd m q ≤ pc ↔ PathPastStore m pc pb := by
  have hlt := h.lt_stop
  rw [← next_store h.test_eq]
  constructor
  · intro hend
    rcases Nat.lt_or_eq_of_le hend with hend | hend
    · exact .inr ⟨q, h.visits, h.test_eq, hend⟩
    · refine .inl (h.visits.trans (.step ?_))
      rw [hend]
      exact .refl _
  · rintro (hv | ⟨p, hv, ht, hnext⟩)
    · exact (h.visits.tail hv hlt).le
    · -- the first store is this one or comes before it
      have hp := (decode m).lt_next p
      have hfirst : ∃ q', StoreHit m pc pb q' ∧ q' ≤ p :=
        hv.exists_firstHit (by omega) ht
      obtain ⟨q', hq', hle⟩ := hfirst
      obtain rfl := h.unique hq'
      rcases Nat.lt_or_eq_of_le hle with hlt' | rfl
      · have hge := (h.visits.tail hv hlt').le
        omega
      · omega

/-- A search finds a match that ends before `stop` just when it succeeds
with its window cut off there. -/
theorem foundBefore_iff {test : Nat → Bool} {stop q : Nat}
    (h : (subDecode m).FirstHit test (pb + 32) (pb + 3) q) :
    q < stop ↔ foundBefore m test pb stop = true := by
  have hlt := h.lt_stop
  rw [foundBefore, Stride.find?_isSome_iff,
    ← Stride.firstHit_lt_iff h (Nat.min_le_left _ _)]
  omega

/-- The search succeeds with its window cut off, so it succeeds, and its
match ends before the cut. -/
theorem exists_of_foundBefore {test : Nat → Bool} {stop : Nat}
    (h : foundBefore m test pb stop = true) :
    ∃ q, (subDecode m).FirstHit test (pb + 32) (pb + 3) q ∧ q < stop := by
  obtain ⟨q, hq⟩ := Stride.find?_isSome_iff.mp h
  have hlt := hq.lt_stop
  exact ⟨q, hq.cut (by omega), by omega⟩

theorem mover_end_iff {size pc : Nat} (hframe : FrameAt m pb size)
    (haddi : pb + 3 ≤ pc) :
    (∃ e, Mover m pb e ∧ e ≤ pc) ↔ SearchedBefore m pc pb := by
  constructor
  · rintro ⟨e, he, hle⟩
    cases he with
    | addi h =>
        have hmovi := not_isMovi_of_isAddi h
        exact ⟨fun h' => by simp [hmovi] at h', fun h' => by simp [hmovi] at h'⟩
    | sub _ hpos hq =>
        exact ⟨fun _ _ => (foundBefore_iff hq).mp (by omega),
          fun _ hneg => by omega⟩
    | addN _ hneg hq =>
        refine ⟨fun _ hpos => by omega, fun _ _ => ?_⟩
        rw [if_pos (foundWithin32_iff.mpr ⟨_, hq⟩)]
        exact (foundBefore_iff hq).mp (by omega)
    | add _ hneg hno hq =>
        refine ⟨fun _ hpos => by omega, fun _ _ => ?_⟩
        rw [hno, if_neg Bool.false_ne_true]
        exact (foundBefore_iff hq).mp (by omega)
  · intro h
    cases hframe with
    | addi haddi' => exact ⟨_, .addi haddi', haddi⟩
    | sub hmovi hsize hpos =>
        obtain ⟨q, hq, hlt⟩ := exists_of_foundBefore (h.sub hmovi (by omega))
        exact ⟨_, .sub hmovi (by omega) hq, by omega⟩
    | add hmovi hsize hpos =>
        have hfound := h.add hmovi (by omega)
        by_cases hn : foundWithin32 m (isAddN m pb) pb = true
        · rw [if_pos hn] at hfound
          obtain ⟨q, hq, hlt⟩ := exists_of_foundBefore hfound
          exact ⟨_, .addN hmovi (by omega) hq, by omega⟩
        · rw [if_neg hn] at hfound
          obtain ⟨q, hq, hlt⟩ := exists_of_foundBefore hfound
          exact ⟨_, .add hmovi (by omega) (by simpa using hn) hq, by omega⟩

/-- **Whether the released frame had been set up**: exactly if the search
behind a `MOVI` does without what lies behind `pc`, and no a0 store
straddles it. -/
theorem frame_set_up_iff (h : FrameSuccess c m pc sp iLr off r) :
    SetUp m pc.toNat (pc.toNat - off)
      ↔ SearchedBefore m pc.toNat (pc.toNat - off)
        ∧ PathPastStore m pc.toNat (pc.toNat - off) := by
  obtain ⟨size, a0, hframe, hr⟩ := h.frame
  obtain ⟨q, hq⟩ := hr.exists_store
  have hbehind := hframe.store_behind hq
  have hlt := hq.lt_stop
  have hmover : (∃ e, Mover m (pc.toNat - off) e ∧ e ≤ pc.toNat)
      ↔ SearchedBefore m pc.toNat (pc.toNat - off) :=
    mover_end_iff hframe (by omega)
  constructor
  · rintro ⟨he, q', hq', hend⟩
    exact ⟨hmover.mp he, (store_end_iff hq').mp hend⟩
  · rintro ⟨hsearch, hpath⟩
    exact ⟨hmover.mpr hsearch, q, hq, (store_end_iff hq).mpr hpath⟩

/-- `movi a9, 64`, `sub a1, a1, a9`, `s32i a0, a1, 0`, with a return
address in the slot. -/
def earlySub : Mem where
  code a :=
    if a < 0x40100010 then 0
    else [0x92, 0xa0, 0x40, 0x90, 0x11, 0xc0, 0x02, 0x61, 0x00].getD
      (a - 0x40100010) 0
  stack a := if a = 0x3ffffe00 then 0x40100030 else 0

theorem earlySub_frameSuccess :
    FrameSuccess (smallMap 0) earlySub 0x40100019 0x3ffffe00 0 9
      ⟨0x40100030, 0x3ffffe40, 0x40100010⟩ where
  comes := ⟨0, by decide, by decide, fun _ hj => absurd hj (Nat.not_lt_zero _)⟩
  valid := by decide
  frame := ⟨64, 0, .sub (by decide) (by decide) (by decide) (by decide)
    (by decide), ⟨by decide, by decide, by decide, by decide⟩⟩

/-- Behind both instructions the frame is set up. -/
theorem frame_set_up_iff_earlySub :
    SetUp earlySub 0x40100019 0x40100010 :=
  (frame_set_up_iff earlySub_frameSuccess).mpr
    ⟨⟨fun _ _ => by decide, fun _ hneg => absurd hneg (by decide)⟩,
      .inl (.step (.step (.step (.refl _))))⟩

/-- `movi a9, 64`, `s32i a0, a1, 0`, `sub a1, a1, a9`, with a return
address in the slot. -/
def lateSub : Mem where
  code a :=
    if a < 0x40100010 then 0
    else [0x92, 0xa0, 0x40, 0x02, 0x61, 0x00, 0x90, 0x11, 0xc0].getD
      (a - 0x40100010) 0
  stack a := if a = 0x3ffffe00 then 0x40100030 else 0

/-- The frame is released in front of the `SUB` that would set it up. -/
theorem released_before_sub :
    xtRetaddrCalleeEx (smallMap 0) lateSub 0x40100016 0x3ffffe00 0 ⟨0, 0, 0⟩
        = (true, ⟨0x40100030, 0x3ffffe40, 0x40100010⟩)
      ∧ FrameAt lateSub 0x40100010 64
      ∧ Mover lateSub 0x40100010 0x40100019
      ∧ ¬ 0x40100019 ≤ (0x40100016 : Word).toNat := by
  refine ⟨by decide, ?_, ?_, by decide⟩
  · exact .sub (by decide) (by decide) (by decide) (by decide) (by decide)
  · exact .sub (by decide) (by decide)
      (Stride.find?_eq_some_iff.mp (show _ = some 0x40100016 by decide))

end BacktraceLog
