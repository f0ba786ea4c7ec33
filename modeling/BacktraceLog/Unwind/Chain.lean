import BacktraceLog.Lib.Words
import BacktraceLog.Unwind.Search
import BacktraceLog.Unwind.Slot

/-!
# Recovering a call chain

The code a compiler emits for a chain of calls, each function with an
`ADDI` prologue and one a0 store, and the condition on the bytes between
entry and call under which nothing there is mistaken for a stop: the
backward scan then arrives at the entry, and iterating it recovers the
chain exactly, frame by frame. What that takes of a prologue is stated for
any of the forms the scan knows; the `ADDI` one is an instance.
-/

namespace BacktraceLog

variable {c : CodeMap} {m : Mem}

/-- `s32i a0, a1, 4z` or `s32i.n a0, a1, 4z` at `q`. -/
def A0Store (m : Mem) (q z : Nat) : Prop :=
  idx m q 1 &&& 0x0F = 0x01
    ∧ (isS32i m q = true ∧ (idx m q 2).toNat = z
      ∨ isS32iN m q = true ∧ (idx m q 1 >>> 4).toNat = z)

/-- The byte position `p` before `pc` holds nothing the scan stops at: no
exception wrapper, no `ADDI` that reserves stack, no `MOVI` with a matching
`SUB` or `ADD` behind it, no return close to `pc` or out of lookback.
Other returns, `ADDI`s and `MOVI`s may be there. -/
structure Quiet (c : CodeMap) (m : Mem) (pc : Word) (p : Nat) : Prop where
  handler : p ≠ c.xtosCWrapperHandler.toNat
  addi : isAddi m p = true → 0 ≤ sidx m p 2 ∨ sidx m p 2 % 16 ≠ 0
  movi : isMovi m p = true → ∀ q, p + 3 ≤ q → q < p + 32 →
    isSub m p q = false ∧ isAddN m p q = false ∧ isAdd m p q = false
  ret : isRet m p = true →
    8 < pc.toNat - p ∧ pc.toNat - p ≤ c.maxLookback

/-- `f` was called from `g`: the function `f` stands in starts at `e`,
reserves `N` bytes, and its first a0 store puts the return address into
slot `z`; between `e` and `pc` it is quiet. -/
structure CallStep (c : CodeMap) (m : Mem) (f g : PcSp) (e N z : Nat) :
    Prop where
  entry_aligned : 4 ∣ e
  entry_above : f.pc.toNat < e + prevTextSize c f.pc
  addi : isAddi m e = true
  reserves : sidx m e 2 = -N
  size : 0 < N ∧ N ≤ 128 ∧ 16 ∣ N
  store : ∃ q, (decode m).FirstHit (fun p => isS32i m p || isS32iN m p)
    f.pc.toNat e q ∧ A0Store m q z
  slot : 4 * z < N
  return_valid : xtPcIsValid c g.pc = true
  return_pc : m.stack (f.sp + .ofNat 32 (4 * z)) = g.pc
  return_sp : g.sp = f.sp + .ofNat 32 N
  quiet : ∀ p, e < p → p + 2 ≤ f.pc.toNat → Quiet c m f.pc p

/-- Where the first a0 store from `pc - off` on goes, as an offset on the
stack: its base is `a1`, or a register that an `ADDMI` has set. -/
inductive A0Slot (m : Mem) (pc off a0 : Nat) : Prop where
  | onSp {q z : Nat} : FirstStore m pc off q 1 z → a0 = 4 * z →
      A0Slot m pc off a0
  | onBase {q z p hi : Nat} {ax : BitVec 8} :
      FirstStore m pc off q ax z → ax ≠ 1 →
      (decode m).FirstHit (isAddmi m ax) q (pc - off) p →
      sidx m p 2 = hi → a0 = 256 * hi + 4 * z → A0Slot m pc off a0

/-- A call as in `CallStep`, with a prologue of any form: `N` bytes are
reserved by an `ADDI`, or by a `MOVI` and a `SUB` or `ADD`, and the return
address is at the offset `a0` in them. -/
structure FrameStep (c : CodeMap) (m : Mem) (f g : PcSp) (e N a0 : Nat) :
    Prop where
  entry_aligned : 4 ∣ e
  entry_above : f.pc.toNat < e + prevTextSize c f.pc
  entry_le : e ≤ f.pc.toNat
  frame : FrameAt m e N
  store : A0Slot m f.pc.toNat (f.pc.toNat - e) a0
  slot : a0 < N
  return_valid : xtPcIsValid c g.pc = true
  return_pc : m.stack (f.sp + .ofNat 32 a0) = g.pc
  return_sp : g.sp = f.sp + .ofNat 32 N
  quiet : ∀ p, e < p → p + 2 ≤ f.pc.toNat → Quiet c m f.pc p

/-! ## Nothing nearer -/

/-- A search finds only what is in its window. -/
theorem foundWithin32_false {test : Nat → Bool} {pb : Nat}
    (h : ∀ q, pb + 3 ≤ q → q < pb + 32 → test q = false) :
    foundWithin32 m test pb = false := by
  rw [foundWithin32, Stride.find?_eq_none h]
  rfl

/-- A quiet place starts no frame. -/
theorem Quiet.not_frameAt {pc : Word} {p size : Nat} (h : Quiet c m pc p) :
    ¬ FrameAt m p size := by
  intro hframe
  cases hframe with
  | addi haddi hsize hpos hdvd =>
      have hskip := h.addi haddi
      omega
  | sub hmovi _ _ _ hfound =>
      have hnone : foundWithin32 m (isSub m p) p = false :=
        foundWithin32_false fun q h1 h2 => (h.movi hmovi q h1 h2).1
      simp [hnone] at hfound
  | add hmovi _ _ _ hfound =>
      have hnone : foundWithin32 m (isAddN m p) p = false :=
        foundWithin32_false fun q h1 h2 => (h.movi hmovi q h1 h2).2.1
      have hnone' : foundWithin32 m (isAdd m p) p = false :=
        foundWithin32_false fun q h1 h2 => (h.movi hmovi q h1 h2).2.2
      simp [hnone, hnone'] at hfound

theorem Quiet.stopAt_none {pc sp lr : Word} {off : Nat}
    (h : Quiet c m pc (pc.toNat - off)) (hoff : off ≤ pc.toNat) :
    stopAt c m pc sp lr off = none := by
  refine Option.eq_none_iff_forall_ne_some.mpr fun r hr => ?_
  cases stopAt_eq_some_iff.mp hr with
  | handler hhandler => exact h.handler hhandler
  | frame _ hframe _ => exact h.not_frameAt hframe
  | ret _ hret _ hrange =>
      have hfar := h.ret hret
      omega

/-! ## The entry is a stop -/

/-- `& ~3` rounds down to a multiple of four. -/
theorem toNat_and_not_three (x : Word) :
    (x &&& ~~~3).toNat = 4 * (x.toNat / 4) :=
  Align.toNat_and_not_lowMask x (k := 2) (by decide)

/-- Rounding down an aligned address. -/
theorem and_not_three {x : Word} (h : 4 ∣ x.toNat) : x &&& ~~~3 = x := by
  apply BitVec.eq_of_toNat_eq
  rw [toNat_and_not_three]
  omega

/-- The slot is found where the first store goes. -/
theorem A0Slot.findS32iA0A1_eq {pc off a0 : Nat}
    (h : A0Slot m pc off a0) : findS32iA0A1 m pc off = a0 := by
  cases h with
  | onSp hstore ha0 =>
      rw [hstore.on_a1, ha0]
      rfl
  | onBase hstore hax hp hhi ha0 =>
      rw [hstore.findS32iA0A1_eq, hstore.addmi_first hax hp, hhi, ha0,
        if_pos (by omega)]
      omega

theorem A0Slot.dvd {pc off a0 : Nat} (h : A0Slot m pc off a0) :
    4 ∣ a0 := by
  cases h with
  | onSp _ ha0 => omega
  | onBase _ _ _ _ ha0 => omega

/-- The store comes after the first instruction, and `pc` after it. -/
theorem FrameStep.entry_lt {f g : PcSp} {e N a0 : Nat}
    (h : FrameStep c m f g e N a0) : e + 3 < f.pc.toNat := by
  have hle := h.entry_le
  have hpb : f.pc.toNat - (f.pc.toNat - e) = e := by omega
  have hhit : ∃ q, StoreHit m f.pc.toNat e q := by
    cases h.store with
    | onSp hstore _ => exact ⟨_, hpb ▸ hstore.hit⟩
    | onBase hstore _ _ _ _ => exact ⟨_, hpb ▸ hstore.hit⟩
  obtain ⟨q, hq⟩ := hhit
  have hbehind := h.frame.store_behind hq
  have hlt := hq.lt_stop
  omega

/-- **The entry is a stop** that yields the caller's frame. -/
theorem FrameStep.stopAt_entry {f g : PcSp} {e N a0 : Nat}
    (h : FrameStep c m f g e N a0) (he : e ≠ c.xtosCWrapperHandler.toNat)
    (lr : Word) :
    stopAt c m f.pc f.sp lr (f.pc.toNat - e)
      = some ⟨g.pc, g.sp, .ofNat 32 e⟩ := by
  have hlt := h.entry_lt
  have hpb : f.pc.toNat - (f.pc.toNat - e) = e := by omega
  have hframe := h.frame
  have hfn : (f.pc - .ofNat 32 (f.pc.toNat - e)) &&& ~~~3
      = BitVec.ofNat 32 e := by
    have hpc := f.pc.isLt
    have hsub : f.pc - .ofNat 32 (f.pc.toNat - e) = BitVec.ofNat 32 e := by
      apply BitVec.eq_of_toNat_eq
      simp only [BitVec.toNat_sub, BitVec.toNat_ofNat]
      omega
    rw [hsub]
    refine and_not_three ?_
    rw [BitVec.toNat_ofNat, Nat.mod_eq_of_lt (by omega)]
    exact h.entry_aligned
  have hrel : Released m f.pc f.sp (f.pc.toNat - e) N a0
      ⟨g.pc, g.sp, .ofNat 32 e⟩ :=
    ⟨h.store.findS32iA0A1_eq, h.slot, h.store.dvd,
      by rw [h.return_pc, ← h.return_sp, hfn]⟩
  rw [← hpb] at he hframe
  exact stopAt_eq_some_iff.mpr (.frame he hframe hrel)

/-- One call back. -/
theorem FrameStep.callee {f g : PcSp} {e N a0 : Nat}
    (h : FrameStep c m f g e N a0) (he : e ≠ c.xtosCWrapperHandler.toNat)
    (iLr : Word) (o : Callee) :
    xtRetaddrCalleeEx c m f.pc f.sp iLr o
      = (true, ⟨g.pc, g.sp, .ofNat 32 e⟩) := by
  have hlt := h.entry_lt
  have habove := h.entry_above
  have hstop := h.stopAt_entry he (usableLr c iLr)
  have hscan : scanBack c m f.pc f.sp (usableLr c iLr) 2
      = some (f.pc.toNat - e) := by
    refine Stride.find?_eq_some_iff.mpr
      (Stride.firstHit_one (by omega) (by omega) ?_ fun off h1 h2 => ?_)
    · rw [hstop]
      rfl
    · have hquiet := h.quiet (f.pc.toNat - off) (by omega) (by omega)
      rw [hquiet.stopAt_none (by omega)]
      rfl
  exact callee_first o ⟨hscan, hstop⟩ h.return_valid

/-- One call back is one unwind. -/
theorem FrameStep.unwinds {f g : PcSp} {e N a0 : Nat}
    (h : FrameStep c m f g e N a0) (he : e ≠ c.xtosCWrapperHandler.toNat)
    (lr : Word) : Unwinds c m lr f g :=
  ⟨_, h.callee he lr⟩

/-- An `ADDI` prologue and a store on the stack pointer itself. -/
theorem CallStep.frameStep {f g : PcSp} {e N z : Nat}
    (h : CallStep c m f g e N z) : FrameStep c m f g e N (4 * z) := by
  obtain ⟨q, hq, hz⟩ := h.store
  have hle : e ≤ f.pc.toNat :=
    Nat.le_of_lt (Nat.lt_of_le_of_lt hq.visits.le hq.lt_stop)
  have hpb : f.pc.toNat - (f.pc.toNat - e) = e := by omega
  rw [← hpb] at hq
  exact {
    entry_aligned := h.entry_aligned
    entry_above := h.entry_above
    entry_le := hle
    frame := .addi h.addi h.reserves h.size.1 h.size.2.2
    store := .onSp ⟨hq, hz.1, hz.2⟩ rfl
    slot := h.slot
    return_valid := h.return_valid
    return_pc := h.return_pc
    return_sp := h.return_sp
    quiet := h.quiet }

theorem CallStep.unwinds {f g : PcSp} {e N z : Nat}
    (h : CallStep c m f g e N z) (he : e ≠ c.xtosCWrapperHandler.toNat)
    (lr : Word) : Unwinds c m lr f g :=
  h.frameStep.unwinds he lr

/-! ## The chain -/

/-- **A call chain is recovered exactly**: along a chain of calls, none of
whose functions is the exception wrapper itself, `i` unwinds from its
start give its `i`-th frame, whatever the link register. -/
theorem call_chain_recovered (c : CodeMap) (m : Mem) (k : Nat)
    (f : Nat → PcSp) (e N z : Nat → Nat)
    (hcalls : ∀ i, i < k → CallStep c m (f i) (f (i + 1)) (e i) (N i) (z i))
    (hentry : ∀ i, i < k → e i ≠ c.xtosCWrapperHandler.toNat)
    (i : Nat) (hi : i ≤ k) (lr : Word) :
    unwind c m i lr (f 0) = some (f i) := by
  -- the frames ahead of `f j`, for every `j` on the way
  have hfrom : ∀ i j lr, j + i ≤ k →
      unwind c m i lr (f j) = some (f (j + i)) := by
    intro i
    induction i with
    | zero => intro j lr _; rfl
    | succ i ih =>
        intro j lr hj
        have hstep := (hcalls j (by omega)).unwinds (hentry j (by omega)) lr
        rw [unwind_unwinds hstep, show j + (i + 1) = j + 1 + i by omega]
        exact ih (j + 1) 0 (by omega)
  have h := hfrom i 0 lr (by omega)
  rwa [Nat.zero_add] at h

/-- 64 bytes of code in IRAM, with the exception wrapper at `handler`. -/
def smallMap (handler : Word) : CodeMap where
  textStart := 0x40100000
  textEnd := 0x40100040
  flashCodeEnd := 0x40200000
  xtosCWrapperHandler := handler
  maxRetry := 3
  maxLookback := 1024
  retry_pos := by decide
  text_room := by decide
  flash_room := by decide

/-- `addi a1, a1, -16` and `s32i.n a0, a1, 12` at `0x40100010`, and a
return address in the slot. -/
def smallMem : Mem where
  code a :=
    if a < 0x40100010 then 0
    else [0x12, 0xc1, 0xf0, 0x09, 0x31].getD (a - 0x40100010) 0
  stack a := if a = 0x3ffffe0c then 0x40100030 else 0

theorem prevTextSize_smallMap (handler pc : Word) :
    prevTextSize (smallMap handler) pc = prevTextSize (smallMap 0) pc := rfl

theorem smallMem_callStep {handler : Word}
    (h : handler.toNat ≤ 0x40100010) :
    CallStep (smallMap handler) smallMem ⟨0x40100015, 0x3ffffe00⟩
      ⟨0x40100030, 0x3ffffe10⟩ 0x40100010 16 3 where
  entry_aligned := by decide
  entry_above := by
    rw [prevTextSize_smallMap]
    decide
  addi := by decide
  reserves := by decide
  size := by decide
  store := ⟨0x40100013, Stride.find?_eq_some_iff.mp (by decide), by decide,
    .inr (by decide)⟩
  slot := by decide
  return_valid := by
    rw [xtPcIsValid, prevTextSize_smallMap]
    decide
  return_pc := by decide
  return_sp := by decide
  quiet := by
    intro p h1 h2
    have h2 : p + 2 ≤ 0x40100015 := h2
    obtain rfl | rfl | rfl :
      p = 0x40100011 ∨ p = 0x40100012 ∨ p = 0x40100013 := by omega
    all_goals
      exact {
        handler := by
          show _ ≠ handler.toNat
          omega
        addi := fun h => absurd h (by decide)
        movi := fun h => absurd h (by decide)
        ret := fun h => absurd h (by decide) }

theorem call_chain_recovered_one :
    unwind (smallMap 0x40100000) smallMem 1 0 ⟨0x40100015, 0x3ffffe00⟩
      = some ⟨0x40100030, 0x3ffffe10⟩ :=
  call_chain_recovered (smallMap 0x40100000) smallMem 1
    (fun i => if i = 0 then ⟨0x40100015, 0x3ffffe00⟩
      else ⟨0x40100030, 0x3ffffe10⟩)
    (fun _ => 0x40100010) (fun _ => 16) (fun _ => 3)
    (fun i hi => by
      obtain rfl : i = 0 := by omega
      exact smallMem_callStep (by decide))
    (fun _ _ => by decide) 1 (Nat.le_refl 1) 0

/-- Where the function itself is the exception wrapper, the scan stops at
its entry without a frame. -/
theorem call_chain_stops_at_handler :
    CallStep (smallMap 0x40100010) smallMem ⟨0x40100015, 0x3ffffe00⟩
        ⟨0x40100030, 0x3ffffe10⟩ 0x40100010 16 3
      ∧ unwind (smallMap 0x40100010) smallMem 1 0 ⟨0x40100015, 0x3ffffe00⟩
        = none :=
  ⟨smallMem_callStep (by decide), by decide⟩

end BacktraceLog
