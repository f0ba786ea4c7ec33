import BacktraceLog.Crash.Depends

/-!
# The calls a crash interrupts

The callback against the code a compiler emits for calls: on the system
stack the exception handler with the frames of the callback below it, under
the exception frame the functions in progress. The first part comes up to
the handler, steps over the exception frame, and the record is made of the
return addresses of those functions, none of them missed and none made up.
-/

namespace BacktraceLog

variable {b : Build} {c : CodeMap} {m : Mem} {f g h : PcSp}
  {fs : List PcSp} {lr : Word}

/-! ## Paths of calls -/

/-- `xt_return_address_ex(lvl)` is `lvl` calls up from who calls its
caller. -/
theorem xtReturnAddressEx_of_unwind {captured : PcSp} {lvl : Nat}
    (h : unwind c m (lvl + 2) 0 captured = some g) (oSp : Word) :
    xtReturnAddressEx c m captured oSp lvl = g := by
  have hloop : levelLoop c m (lvl + 2) captured ⟨0, oSp⟩ = g :=
    levelLoop_run (n := 0) h
  have hvalid := unwind_valid h
  unfold xtReturnAddressEx
  simp only [hloop, hvalid, if_true]

/-! ## Up to the handler -/

/-- `h` stands in `_xtos_c_wrapper_handler`, with nothing to stop at before
its entry. -/
structure InHandler (c : CodeMap) (m : Mem) (h : PcSp) : Prop where
  behind : c.xtosCWrapperHandler.toNat + 2 ≤ h.pc.toNat
  inText : h.pc.toNat < c.xtosCWrapperHandler.toNat + prevTextSize c h.pc
  quiet : ∀ p, c.xtosCWrapperHandler.toNat < p → p + 2 ≤ h.pc.toNat →
    Quiet c m h.pc p

/-- The unwind stops there, and leaves the stack pointer as it is. -/
theorem InHandler.callee (hh : InHandler c m h) (fn : Word) :
    ∃ r, xtRetaddrCalleeEx c m h.pc h.sp 0 ⟨h.pc, h.sp, fn⟩ = (false, r)
      ∧ r.sp = h.sp := by
  obtain ⟨off, hoff⟩ : ∃ off, off = h.pc.toNat
      - c.xtosCWrapperHandler.toNat := ⟨_, rfl⟩
  have hbehind := hh.behind
  have htext := hh.inText
  have hstop : stopAt c m h.pc h.sp 0 off
      = some ⟨0, h.sp, .ofNat 32 (h.pc.toNat - off)⟩ :=
    stopAt_eq_some_iff.mpr (.handler (by omega))
  have hscan : scanBack c m h.pc h.sp 0 2 = some off := by
    refine Stride.find?_eq_some_iff.mpr
      (Stride.firstHit_one (by omega) (by omega) ?_ fun k h1 h2 => ?_)
    · rw [hstop]
      rfl
    · have hquiet := hh.quiet (h.pc.toNat - k) (by omega) (by omega)
      rw [hquiet.stopAt_none (by omega)]
      rfl
  have hhead := Retry.hits_of_firstHit
    (Stride.find?_eq_some_iff.mp hscan) hstop
  -- a NULL candidate ends the search
  have hsearch : searchStops c c.maxRetry (stops c m h.pc h.sp 0)
      = .gaveUp (off, ⟨0, h.sp, .ofNat 32 (h.pc.toNat - off)⟩) := by
    rw [stops, hhead, searchStops, Retry.search, validStop,
      xtPcIsValid_zero, if_neg (by decide),
      if_pos (.inl (decide_eq_true rfl))]
  rw [xtRetaddrCalleeEx_search, usableLr_zero, hsearch, calleeResult]
  refine ⟨_, rfl, ?_⟩
  split <;> rfl

/-- The loop of the first part comes to the handler. -/
theorem CallPath.unwindLoop (h : CallPath c m f fs g)
    (hg : InHandler c m g) {fuel : Nat} (hfuel : fs.length < fuel)
    (fn : Word) :
    ∃ fs' o, BacktraceLog.unwindLoop c m fuel 0 ⟨f.pc, f.sp, fn⟩
        = some (fs', o) ∧ o.sp = g.sp := by
  induction h generalizing fuel fn with
  | nil f =>
      obtain ⟨n, rfl⟩ : ∃ n, fuel = n + 1 := ⟨fuel - 1, by omega⟩
      obtain ⟨r, hr, hsp⟩ := hg.callee fn
      exact ⟨_, r, unwindLoop_stop hr, hsp⟩
  | call hstep he _ ih =>
      rw [List.length_cons] at hfuel
      obtain ⟨n, rfl⟩ : ∃ n, fuel = n + 1 := ⟨fuel - 1, by omega⟩
      obtain ⟨fn', hcall⟩ := hstep.unwinds he 0
      obtain ⟨fs', o, hloop, hsp⟩ := ih hg (Nat.lt_of_succ_lt_succ hfuel) fn'
      exact ⟨_, o, unwindLoop_next (hcall _) hloop, hsp⟩

/-! ## The record -/

/-- The stack at an exception: `handlers`, the calls from the callback up
to `handler`, the exception frame there, and above it `functions`, the
calls from the faulting function up to `outermost`. -/
structure ExceptionStack (c : CodeMap) (m : Mem) (env : CrashEnv)
    (r : RstInfo) where
  handler : PcSp
  handlers : List PcSp
  fault : PcSp
  functions : List PcSp
  outermost : PcSp
  handlers_path : CallPath c m env.captured handlers handler
  /-- the crash callback and who calls it -/
  two_le : 2 ≤ handlers.length
  inHandler : InHandler c m handler
  fault_sp : fault.sp = handler.sp + 256
  fault_pc : (faultStart r (m.stack (handler.sp + env.frameA0))).2
    = fault.pc
  fault_valid : xtPcIsValid c fault.pc = true
  functions_path : CallPath c m fault functions outermost
  functions_ne_nil : functions ≠ []
  outermost_stuck : Stuck c m 0 outermost

/-- The functions in progress, innermost first. -/
def ExceptionStack.frames {env : CrashEnv} {r : RstInfo}
    (x : ExceptionStack c m env r) : List PcSp :=
  x.functions ++ [x.outermost]

/-- The first part finds the fault. -/
theorem ExceptionStack.crashStart {env : CrashEnv} {r : RstInfo}
    (x : ExceptionStack c m env r) (hexc : r.reason < 100) :
    ∃ n a0 lr fn, BacktraceLog.crashStart c m env n r
      = some (a0, lr, ⟨x.fault.pc, x.fault.sp, fn⟩) := by
  obtain ⟨f, hf, -, hpath⟩ := x.handlers_path.drop x.two_le 0
  have hret := xtReturnAddressEx_of_unwind hf env.oSp
  obtain ⟨fs, o, hloop, hsp⟩ := hpath.unwindLoop x.inHandler
    (Nat.lt_succ_self _) env.fn
  refine ⟨(x.handlers.drop 2).length + 1, m.stack (o.sp + env.frameA0),
    (faultStart r (m.stack (o.sp + env.frameA0))).1, o.fn, ?_⟩
  have hvalid := x.fault_valid
  unfold BacktraceLog.crashStart
  rw [if_pos hexc]
  simp only [hret, hloop, hsp, x.fault_pc, hvalid, x.fault_sp,
    Bool.not_true, Bool.false_and, Bool.false_eq_true, if_false]

end BacktraceLog
