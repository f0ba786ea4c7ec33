import BacktraceLog.Crash.Ends
import BacktraceLog.Unwind.Frames

/-!
# What a trace depends on

A trace reads nothing below the stack pointer it starts from: whoever takes
it may use the stack there meanwhile. And retries are only taken where the
trace would end: with more of them it goes the same way, and further.
-/

namespace BacktraceLog

variable {c : CodeMap} {m : Mem} {lr pc sp : Word} {f g : PcSp}
  {fs gs : List PcSp} {off : Nat} {r : Callee} {stack : Word → Word}

/-- A chain carries over to where each of its unwinds and its end do, as
long as the frames have `I`. -/
theorem UnwindChain.transfer {c' : CodeMap} {m' : Mem} {I : PcSp → Prop}
    (hnext : ∀ lr f g, I f → Unwinds c m lr f g →
      Unwinds c' m' lr f g ∧ I g)
    (hlast : ∀ lr f, I f → Stuck c m lr f → Stuck c' m' lr f)
    (hI : I f) (h : UnwindChain c m lr f fs) :
    UnwindChain c' m' lr f fs := by
  induction h with
  | last hstuck => exact .last (hlast _ _ hI hstuck)
  | next hstep _ ih =>
      obtain ⟨hstep', hI'⟩ := hnext _ _ _ hI hstep
      exact .next hstep' (ih hI')

/-! ## The stack below -/

/-- The slots a frame released at `sp` can have hold the same. -/
def SameSlots (m : Mem) (stack : Word → Word) (sp : Word) : Prop :=
  ∀ k, k < 2048 → 4 ∣ k →
    stack (sp + .ofNat 32 k) = m.stack (sp + .ofNat 32 k)

/-- A stop reads one slot of the stack at most. -/
theorem Stop.withStack (hslots : SameSlots m stack sp)
    (h : Stop c m pc sp lr off r) :
    Stop c (m.withStack stack) pc sp lr off r := by
  cases h with
  | handler h => exact .handler h
  | frame hne hframe hr =>
      rename_i size a0
      have hsize : size ≤ 2048 := by
        rcases hframe.frameSize with h | h <;> omega
      have hinside := hr.inside
      refine .frame hne (hframe.withStack stack)
        ⟨hr.slot, hinside, hr.aligned, ?_⟩
      show r = ⟨stack _, _, _⟩
      rw [hslots a0 (by omega) hr.aligned]
      exact hr.callee
  | ret hne hret hpath hrange => exact .ret hne hret hpath hrange

theorem stopAt_withStack (hslots : SameSlots m stack sp) :
    stopAt c (m.withStack stack) pc sp lr = stopAt c m pc sp lr := by
  funext off
  refine Option.ext fun r => ?_
  rw [stopAt_eq_some_iff, stopAt_eq_some_iff]
  -- the stack of `m` can be put back
  have hback : SameSlots (m.withStack stack) m.stack sp :=
    fun k hk h4 => (hslots k hk h4).symm
  exact ⟨Stop.withStack hback, Stop.withStack hslots⟩

theorem callee_withStack (hslots : SameSlots m stack sp) (iLr : Word)
    (o : Callee) :
    xtRetaddrCalleeEx c (m.withStack stack) pc sp iLr o
      = xtRetaddrCalleeEx c m pc sp iLr o := by
  rw [xtRetaddrCalleeEx_search, xtRetaddrCalleeEx_search, stops, stops,
    stopAt_withStack hslots]

/-- Not too near the end of the address space the slots are all above. -/
theorem sameSlots_of_above {L : Nat} (hL : L ≤ maxLimit)
    (hsp : sp.toNat ≤ L + 2047)
    (hstack : ∀ a : Word, sp.toNat ≤ a.toNat → stack a = m.stack a) :
    SameSlots m stack sp := by
  intro k hk h4
  refine hstack _ ?_
  unfold maxLimit at hL
  rw [BitVec.toNat_add, BitVec.toNat_ofNat]
  omega

/-- A frame a trace can come to. -/
structure Above (m : Mem) (stack : Word → Word) (L : Nat) (f : PcSp) :
    Prop where
  below : f.sp.toNat ≤ L + 2047
  same : ∀ a : Word, f.sp.toNat ≤ a.toNat → stack a = m.stack a

theorem Above.slots {L : Nat} (hL : L ≤ maxLimit)
    (h : Above m stack L f) : SameSlots m stack f.sp :=
  sameSlots_of_above hL h.below h.same

theorem Above.next {L : Nat} (hL : L ≤ maxLimit)
    (hcode : NoCodeFrom c m L) (h : Above m stack L f)
    (hstep : Unwinds c m lr f g) : Above m stack L g := by
  obtain ⟨hup, hle⟩ := hstep.sp_le hL hcode h.below
  exact ⟨hle, fun a ha => h.same a (by omega)⟩

/-- **A trace reads nothing below its start**: on a stack that has a top,
the chain from a frame is the same with any other words below the stack
pointer of that frame. -/
theorem chain_above_sp (top : StackTop c m)
    (hsp : f.sp.toNat ≤ top.limit + 2047)
    (hstack : ∀ a : Word, f.sp.toNat ≤ a.toNat → stack a = m.stack a) :
    UnwindChain c (m.withStack stack) lr f fs ↔ UnwindChain c m lr f fs := by
  have hroom := top.room
  have hL : top.limit ≤ maxLimit := by omega
  have hI : Above m stack top.limit f := ⟨hsp, hstack⟩
  constructor
  · intro h
    refine h.transfer (I := Above m stack top.limit)
      (fun lr f g hf hstep => ?_) (fun lr f hf hstuck o => ?_) hI
    · obtain ⟨fn, hcall⟩ := hstep
      have hstep : Unwinds c m lr f g := ⟨fn, fun o => by
        rw [← callee_withStack (hf.slots hL)]
        exact hcall o⟩
      exact ⟨hstep, hf.next hL top.noCode hstep⟩
    · rw [← callee_withStack (hf.slots hL)]
      exact hstuck o
  · intro h
    refine h.transfer (I := Above m stack top.limit)
      (fun lr f g hf hstep => ?_) (fun lr f hf hstuck o => ?_) hI
    · obtain ⟨fn, hcall⟩ := hstep
      exact ⟨⟨fn, fun o => by
        rw [callee_withStack (hf.slots hL)]
        exact hcall o⟩, hf.next hL top.noCode ⟨fn, hcall⟩⟩
    · rw [callee_withStack (hf.slots hL)]
      exact hstuck o

/-- Other words below the stack pointer of the first frame. -/
theorem chain_above_sp_small :
    UnwindChain (smallMap 0) (smallMem.withStack fun a =>
        if a.toNat < 0x3ffffe00 then 0x40100030 else smallMem.stack a)
      0 ⟨0x40100015, 0x3ffffe00⟩
      [⟨0x40100015, 0x3ffffe00⟩, ⟨0x40100030, 0x3ffffe10⟩] := by
  refine (chain_above_sp smallTop (by decide) fun a ha => ?_).mpr
    smallMem_chain
  exact if_neg (Nat.not_lt.mpr ha)

/-! ## The retries -/

/-- The same code with `BACKTRACE_MAX_RETRY` raised. -/
def CodeMap.withRetry (c : CodeMap) (n : Nat) (h : c.maxRetry ≤ n) :
    CodeMap :=
  { c with maxRetry := n, retry_pos := Nat.lt_of_lt_of_le c.retry_pos h }

theorem Unwinds.withRetry {n : Nat} (hn : c.maxRetry ≤ n)
    (h : Unwinds c m lr f g) : Unwinds (c.withRetry n hn) m lr f g := by
  obtain ⟨fn, hcall⟩ := h
  refine ⟨fn, fun o => callee_success_iff.mpr ?_⟩
  obtain ⟨k, off, hk, hvalid⟩ := callee_success_iff.mp (hcall o)
  exact ⟨k, off, ⟨Nat.lt_of_lt_of_le hk.lt hn, hk.entry, hk.before⟩, hvalid⟩

theorem Unwinds.unique {g' : PcSp} (h : Unwinds c m lr f g)
    (h' : Unwinds c m lr f g') : g' = g := by
  obtain ⟨fn, hcall⟩ := h
  obtain ⟨fn', hcall'⟩ := h'
  have hsame := (hcall' ⟨0, 0, 0⟩).symm.trans (hcall ⟨0, 0, 0⟩)
  cases g
  cases g'
  cases hsame
  rfl

theorem Unwinds.not_stuck (h : Unwinds c m lr f g) : ¬ Stuck c m lr f := by
  intro hstuck
  obtain ⟨fn, hcall⟩ := h
  have hfail := hstuck ⟨0, 0, 0⟩
  rw [hcall] at hfail
  cases hfail

/-- **More retries only lengthen a trace**: the chain found with
`BACKTRACE_MAX_RETRY` retries is the start of any found with more. -/
theorem chain_grows_with_retries {n : Nat} (hn : c.maxRetry ≤ n)
    (h : UnwindChain c m lr f fs)
    (h' : UnwindChain (c.withRetry n hn) m lr f gs) : fs <+: gs := by
  induction h generalizing gs with
  | last _ =>
      obtain ⟨hs, rfl⟩ := h'.head
      exact ⟨hs, rfl⟩
  | next hstep _ ih =>
      cases h' with
      | last hstuck =>
          exact absurd hstuck (hstep.withRetry hn).not_stuck
      | next hstep' hrest' =>
          rw [(hstep.withRetry hn).unique hstep'] at hrest'
          exact (List.cons_prefix_cons).mpr ⟨rfl, ih hrest'⟩

theorem chain_grows_with_retries_small :
    [⟨0x40100015, 0x3ffffe00⟩, ⟨0x40100030, 0x3ffffe10⟩]
      <+: [(⟨0x40100015, 0x3ffffe00⟩ : PcSp), ⟨0x40100030, 0x3ffffe10⟩] := by
  have hcall : xtRetaddrCalleeEx ((smallMap 0).withRetry 9 (by decide))
      smallMem 0x40100015 0x3ffffe00 0 ⟨0, 0, 0⟩
        = (true, ⟨0x40100030, 0x3ffffe10, 0x40100010⟩) := by
    decide
  have hlast : (xtRetaddrCalleeEx ((smallMap 0).withRetry 9 (by decide))
      smallMem 0x40100030 0x3ffffe10 0 ⟨0, 0, 0⟩).1 = false := by
    decide
  exact chain_grows_with_retries (by decide) smallMem_chain
    (.next (unwinds_of_callee (f := ⟨0x40100015, 0x3ffffe00⟩) hcall)
      (.last (stuck_of_callee (f := ⟨0x40100030, 0x3ffffe10⟩) hlast)))

end BacktraceLog
