import BacktraceLog.Crash.Callback
import BacktraceLog.Log.Lasting
import BacktraceLog.Log.Report

/-!
# Call traces

`logCallTrace()` of the sketch TraceCall: called from a function of
interest, it adds the chain of calls up to there to the log, behind a
zero. No record is begun, so nothing but the addresses changes, and traces
add up until the buffer is full. The sketch TraceCallAlt has a variant that
prints the chain instead.
-/

namespace BacktraceLog

variable {b : Build} {c : CodeMap} {m : Mem} {f g captured : PcSp}
  {fs : List PcSp}

/-- `do { backtraceLog_write(pc); repeat = xt_retaddr_callee(pc, sp, NULL,
&pc, &sp); } while (repeat);` -/
def callTraceLoop (c : CodeMap) (m : Mem) :
    Nat → Device → PcSp → Option Device
  | 0, _, _ => none
  | fuel + 1, s, f =>
      let s := backtraceLogWrite s f.pc
      let r := xtRetaddrCallee c m f.pc f.sp 0 f
      if r.1 then callTraceLoop c m fuel s r.2 else some s

/-- What the step back into the caller leaves in `pc` and `sp`; whether it
succeeds is not looked at. -/
def callerOf (c : CodeMap) (m : Mem) (captured : PcSp) : PcSp :=
  (xtRetaddrCallee c m captured.pc captured.sp 0 captured).2

/-- `logCallTrace()`, with the `pc` and `sp` it captures. -/
def logCallTrace (b : Build) (c : CodeMap) (m : Mem) (captured : PcSp)
    (fuel : Nat) (s : Device) : Option Device :=
  -- always appending to previous log results
  let s := backtraceLogWrite s 0
  match callTraceLoop c m fuel s (callerOf c m captured) with
  | none => none
  | some s => some (backtraceLogFin b s)

theorem callTraceLoop_chain (h : UnwindChain c m 0 f fs) {s : Device}
    {fuel : Nat} (hfuel : fs.length ≤ fuel) :
    callTraceLoop c m fuel s f = some (writeAll s (fs.map PcSp.pc)) := by
  induction fuel generalizing f fs s with
  | zero =>
      obtain ⟨gs, rfl⟩ := h.head
      exact absurd hfuel (Nat.not_succ_le_zero _)
  | succ fuel ih =>
      cases h with
      | last hstuck =>
          have hfail := (xtRetaddrCallee_stuck hstuck f).1
          simp only [callTraceLoop, hfail, Bool.false_eq_true, if_false]
          rfl
      | next hstep hrest =>
          have hcall := xtRetaddrCallee_unwinds hstep f
          simp only [callTraceLoop, hcall, if_true]
          exact ih hrest (Nat.le_of_succ_le_succ hfuel)

/-- Where the chain ends, so does the trace, with a zero and the chain
written and the record sealed. -/
theorem logCallTrace_eq
    (h : UnwindChain c m 0 (callerOf c m captured) fs) {fuel : Nat}
    (hfuel : fs.length ≤ fuel) (s : Device) :
    logCallTrace b c m captured fuel s
      = some (backtraceLogFin b (writeAll s (0 :: fs.map PcSp.pc))) := by
  simp only [logCallTrace, callTraceLoop_chain h hfuel]
  rfl

/-- **A call trace only adds addresses**: for all fuel from some amount on
it ends, with the zero and the chain behind what the log held, as far as
there is room; the log is sealed and lasts as before, and no word but the
entries, `count`, `binCrc` and `chksum` has changed, in the log or
behind it. -/
theorem call_trace_appends {s : Device} (hs : Lasting b s)
    (h : UnwindChain c m 0 (callerOf c m captured) fs) :
    ∃ t, (∃ n, ∀ fuel, n ≤ fuel →
        logCallTrace b c m captured fuel s = some t)
      ∧ Lasting b t ∧ Sealed b t.ram
      ∧ items t.ram
        = (items s.ram ++ 0 :: fs.map PcSp.pc).take (capacity b)
      ∧ (∀ i, i ≠ 0 → i ≠ 4 → i ≠ 12 → (i < 13 ∨ 13 + capacity b ≤ i) →
        t.ram.word i = s.ram.word i)
      ∧ ∀ g ∈ fs.tail, xtPcIsValid c g.pc = true := by
  obtain ⟨hlasting, hseal, hitems⟩ := hs.finish (0 :: fs.map PcSp.pc)
  refine ⟨_, ⟨fs.length, fun fuel hfuel => logCallTrace_eq h hfuel s⟩,
    hlasting, hseal, hitems, fun i h0 h4 h12 hi => ?_, h.valid⟩
  rw [backtraceLogFin_eq (writeAll_booted hs.booted _),
    writeAll_eq hs.booted.pBT]
  show (closeRecord b (writeItems s.ram _)).word i = _
  rw [← hs.toNat_max] at hi
  rw [word_closeRecord _ h0 h4, word_writeItems _ _ h12 hi]

/-- The chain of `smallMem` from the caller on. -/
theorem smallMem_callerChain : UnwindChain (smallMap 0) smallMem 0
    (callerOf (smallMap 0) smallMem ⟨0x40100015, 0x3ffffe00⟩)
    [⟨0x40100030, 0x3ffffe10⟩] := by
  have hcaller : callerOf (smallMap 0) smallMem ⟨0x40100015, 0x3ffffe00⟩
      = ⟨0x40100030, 0x3ffffe10⟩ := by
    decide
  have hlast : (xtRetaddrCalleeEx (smallMap 0) smallMem 0x40100030
      0x3ffffe10 0 ⟨0, 0, 0⟩).1 = false := by
    decide
  rw [hcaller]
  exact .last (stuck_of_callee (f := ⟨0x40100030, 0x3ffffe10⟩) hlast)

theorem call_trace_appends_small :
    ∃ t, (∃ n, ∀ fuel, n ≤ fuel →
        logCallTrace minimalBuild (smallMap 0) smallMem
          ⟨0x40100015, 0x3ffffe00⟩ fuel freshLog = some t)
      ∧ Lasting minimalBuild t ∧ Sealed minimalBuild t.ram
      ∧ items t.ram
        = (items freshLog.ram ++ [0, 0x40100030]).take
          (capacity minimalBuild)
      ∧ (∀ i, i ≠ 0 → i ≠ 4 → i ≠ 12 →
        (i < 13 ∨ 13 + capacity minimalBuild ≤ i) →
        t.ram.word i = freshLog.ram.word i)
      ∧ ∀ g ∈ [(⟨0x40100030, 0x3ffffe10⟩ : PcSp)].tail,
        xtPcIsValid (smallMap 0) g.pc = true :=
  call_trace_appends lasting_freshLog smallMem_callerChain

/-! ## The printing variant -/

/-- ` %p:%p`, and `:<%p>` with the estimated start of the function, if
there is one. -/
def printCall (f : PcSp) (fn : Word) : List Printf :=
  ⟨" %p:%p", [f.pc, f.sp]⟩ :: if fn ≠ 0 then [⟨":<%p>", [fn]⟩] else []

/-- `do { ETS_PRINTF(" %p:%p", pc, sp); repeat = xt_retaddr_callee_ex(pc,
sp, NULL, &pc, &sp, &fn); if (fn) ETS_PRINTF(":<%p>", fn); }
while (repeat);` -/
def printTraceLoop (c : CodeMap) (m : Mem) :
    Nat → Callee → Option (List Printf × Callee)
  | 0, _ => none
  | fuel + 1, o =>
      let r := xtRetaddrCalleeEx c m o.pc o.sp 0 o
      let out := printCall ⟨o.pc, o.sp⟩ r.2.fn
      if r.1 then
        match printTraceLoop c m fuel r.2 with
        | none => none
        | some (rest, o) => some (out ++ rest, o)
      else some (out, r.2)

/-- `logCallTrace()` of the sketch TraceCallAlt: what it prints. -/
def logCallTraceAlt (c : CodeMap) (m : Mem) (env : CrashEnv) (fuel : Nat) :
    Option (List Printf) :=
  let o := (xtRetaddrCalleeEx c m env.captured.pc env.captured.sp 0
    ⟨env.captured.pc, env.captured.sp, env.fn⟩).2
  match printTraceLoop c m fuel o with
  | none => none
  | some (out, o) =>
      if env.pcSuspend ≠ 0 then
        let f := suspendedFrame m env
        match printTraceLoop c m fuel ⟨f.pc, f.sp, o.fn⟩ with
        | none => none
        | some (out', _) => some (⟨"\nBacktrace:", []⟩ :: out
            ++ ⟨" 0:0", []⟩ :: out' ++ [⟨"\n\n", []⟩])
      else some (⟨"\nBacktrace:", []⟩ :: out ++ [⟨"\n\n", []⟩])

/-- The frames printed as ` %p:%p`. -/
def printedFrames (out : List Printf) : List (List Word) :=
  (out.filter fun p => p.fmt = " %p:%p").map Printf.args

def frameArgs (f : PcSp) : List Word := [f.pc, f.sp]

@[simp] theorem printedFrames_append (out out' : List Printf) :
    printedFrames (out ++ out') = printedFrames out ++ printedFrames out' := by
  simp [printedFrames]

@[simp] theorem printedFrames_printCall (f : PcSp) (fn : Word) :
    printedFrames (printCall f fn) = [frameArgs f] := by
  unfold printCall
  split <;> simp [printedFrames, frameArgs]

/-- The estimated function does not enter into an unwind. -/
theorem callee_fn (pc sp lr : Word) (f : PcSp) (fn fn' : Word) :
    xtRetaddrCalleeEx c m pc sp lr ⟨f.pc, f.sp, fn⟩
      = xtRetaddrCalleeEx c m pc sp lr ⟨f.pc, f.sp, fn'⟩ := rfl

/-- Where the chain ends, so does the loop, each of its frames printed. -/
theorem printTraceLoop_chain (h : UnwindChain c m 0 f fs) {fuel : Nat}
    (hfuel : fs.length ≤ fuel) (fn : Word) :
    ∃ out o, printTraceLoop c m fuel ⟨f.pc, f.sp, fn⟩ = some (out, o)
      ∧ printedFrames out = fs.map frameArgs := by
  induction fuel generalizing f fs fn with
  | zero =>
      obtain ⟨gs, rfl⟩ := h.head
      exact absurd hfuel (Nat.not_succ_le_zero _)
  | succ fuel ih =>
      cases h with
      | last hstuck =>
          have hfail := hstuck ⟨f.pc, f.sp, fn⟩
          simp only [printTraceLoop, hfail, Bool.false_eq_true, if_false]
          exact ⟨_, _, rfl, printedFrames_printCall _ _⟩
      | next hstep hrest =>
          obtain ⟨fn', hcall⟩ := hstep
          obtain ⟨out, o, hloop, hout⟩ :=
            ih hrest (Nat.le_of_succ_le_succ hfuel) fn'
          simp only [printTraceLoop, hcall, if_true, hloop]
          exact ⟨_, _, rfl, by simp [hout]⟩

/-- **The two call traces agree**: from the same place the one prints the
frames whose addresses the other logs behind its zero, and then, where the
sketch was yielding, those of the suspended context, which the other does
not look at. -/
theorem call_traces_agree {s : Device} (hs : Lasting b s) (env : CrashEnv)
    {suspended : List PcSp}
    (h : UnwindChain c m 0 (callerOf c m env.captured) fs)
    (hsusp : env.pcSuspend ≠ 0 →
      UnwindChain c m 0 (suspendedFrame m env) suspended) :
    ∃ n, ∀ fuel, n ≤ fuel → ∃ out t,
      logCallTraceAlt c m env fuel = some out
      ∧ logCallTrace b c m env.captured fuel s = some t
      ∧ printedFrames out = fs.map frameArgs
        ++ (if env.pcSuspend ≠ 0 then suspended.map frameArgs else [])
      ∧ items t.ram
        = (items s.ram ++ 0 :: fs.map PcSp.pc).take (capacity b) := by
  refine ⟨fs.length + suspended.length, fun fuel hfuel => ?_⟩
  obtain ⟨-, -, hitems⟩ := hs.finish (0 :: fs.map PcSp.pc)
  have hlog := logCallTrace_eq (b := b) h (show fs.length ≤ fuel by omega) s
  obtain ⟨start, hstart⟩ : ∃ start, start = xtRetaddrCalleeEx c m
      env.captured.pc env.captured.sp 0
      ⟨env.captured.pc, env.captured.sp, env.fn⟩ := ⟨_, rfl⟩
  have hcaller : callerOf c m env.captured = ⟨start.2.pc, start.2.sp⟩ := by
    rw [hstart, callee_fn _ _ _ _ env.fn 0]
    rfl
  rw [hcaller] at h
  obtain ⟨out, o, hloop, hout⟩ := printTraceLoop_chain h
    (show fs.length ≤ fuel by omega) start.2.fn
  unfold logCallTraceAlt
  simp only [← hstart, hloop]
  by_cases hyield : env.pcSuspend ≠ 0
  · obtain ⟨out', o', hloop', hout'⟩ := printTraceLoop_chain (hsusp hyield)
      (show suspended.length ≤ fuel by omega) o.fn
    simp only [if_pos hyield, hloop']
    exact ⟨_, _, rfl, hlog, by simp [printedFrames, ← hout, ← hout'], hitems⟩
  · simp only [if_neg hyield]
    exact ⟨_, _, rfl, hlog, by simp [printedFrames, ← hout], hitems⟩

theorem call_traces_agree_small :
    ∃ n, ∀ fuel, n ≤ fuel → ∃ out t,
      logCallTraceAlt (smallMap 0) smallMem yielding fuel = some out
      ∧ logCallTrace minimalBuild (smallMap 0) smallMem yielding.captured
        fuel freshLog = some t
      ∧ printedFrames out = [[0x40100030, 0x3ffffe10], [0, 0x3fff0018]]
      ∧ items t.ram = (items freshLog.ram ++ [0, 0x40100030]).take
        (capacity minimalBuild) :=
  call_traces_agree lasting_freshLog yielding smallMem_callerChain
    fun _ => suspended_chain

end BacktraceLog
