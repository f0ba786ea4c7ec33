import BacktraceLog.Crash.Ends
import BacktraceLog.Hwdt.PostProcessing

/-!
# The record after a hardware watchdog reset

The backtrace starts from the stack frame released last, one above the
innermost call, where unwinding leads from it back to the stack pointer of
that call within 16 frames, and from the call itself otherwise. Either way
the trace comes past the innermost call tracked. It ends, and the record is
one of a crash.
-/

namespace BacktraceLog

variable {b : Build} {c : CodeMap} {m : Mem} {env : HwdtEnv}
  {t : StackLastPCPS} {bypass : Bool}

/-- The stack is read by `xt_retaddr_callee` and does not change while it
is. -/
def Unwinding (c : CodeMap) (m : Mem) (env : HwdtEnv) : Prop :=
  env.retaddr = fun _ f => xtRetaddrCallee c m f.pc f.sp 0 f

/-! ## The start -/

section

variable {r : PcSp → Bool × PcSp}

/-- A smaller limiter cuts the trace off earlier. -/
theorem take_hwdtFrames {k n : Nat} (h : k ≤ n) (f : PcSp) :
    (hwdtFrames (fun _ => r) n f).take k = hwdtFrames (fun _ => r) k f := by
  induction k generalizing n f with
  | zero => rfl
  | succ k ih =>
      obtain ⟨n, rfl⟩ : ∃ j, n = j + 1 := ⟨n - 1, by omega⟩
      simp only [hwdtFrames, List.take_succ_cons]
      by_cases hrepeat : (r f).1 = true
      · rw [if_pos hrepeat, if_pos hrepeat, ih (by omega)]
      · rw [if_neg hrepeat, if_neg hrepeat, List.take_nil]

/-- The stack pointer of the entry below is met on the way from the entry
at `level`, in 16 frames. -/
def LeadsBack (r : PcSp → Bool × PcSp) (t : StackLastPCPS)
    (level : Nat) : Prop :=
  ∃ g ∈ hwdtFrames (fun _ => r) 16 (t.pcSp level),
    g.sp = (t.last (level - 1)).sp

instance (r : PcSp → Bool × PcSp) (t : StackLastPCPS) (level : Nat) :
    Decidable (LeadsBack r t level) :=
  inferInstanceAs (Decidable (∃ _ ∈ _, _))

/-- The loop looks for the stack pointer in the frames of a trace. -/
theorem verifyLoop_level (limiter level : Nat) (f : PcSp) :
    (verifyLoop (fun _ => r) t limiter level f).1
      = if ∃ g ∈ hwdtFrames (fun _ => r) limiter f,
          g.sp = (t.last level).sp then level + 1 else level := by
  induction limiter generalizing f with
  | zero => simp [verifyLoop, hwdtFrames]
  | succ limiter ih =>
      by_cases hsp : f.sp = (t.last level).sp
      · simp [verifyLoop, hwdtFrames, hsp]
      · by_cases hrepeat : (r f).1 = true
        · simp [verifyLoop, hwdtFrames, hsp, hrepeat, ih]
        · simp [verifyLoop, hwdtFrames, hsp, hrepeat]

/-- Where the backtrace starts. -/
theorem hwdtStart_pos {level : Nat} (hpos : 0 < level)
    (hmax : level ≤ stackSz) :
    (hwdtStart (fun _ => r) t level).1
      = if LeadsBack r t level then t.pcSp level else t.pcSp (level - 1) := by
  have hrange : (stackSz : Int) ≥ level ∧ (0 : Int) ≤ level := by omega
  have hback : level - 1 + 1 = level := by omega
  rw [hwdtStart, if_pos hrange]
  simp only [Int.toNat_natCast, if_pos hpos, verifyLoop_level, hback]
  show t.pcSp (if LeadsBack r t level then level else level - 1) = _
  split <;> rfl

/-- **Past the innermost call**: from either start the trace meets the
stack pointer of the entry below `level` in its first 16 frames. -/
theorem hwdtFrames_start {level : Nat} (hpos : 0 < level)
    (hmax : level ≤ stackSz) :
    ∃ g ∈ (hwdtFrames (fun _ => r) 64
        (hwdtStart (fun _ => r) t level).1).take 16,
      g.sp = (t.last (level - 1)).sp := by
  rw [take_hwdtFrames (by omega), hwdtStart_pos hpos hmax]
  by_cases hleads : LeadsBack r t level
  · rw [if_pos hleads]
    exact hleads
  · rw [if_neg hleads]
    exact ⟨t.pcSp (level - 1), List.mem_cons_self, rfl⟩

end

/-- The level to start from, of a tracker that counts `n` calls. -/
theorem clampLevel_natCast (n : Nat) :
    (clampLevel n).1 = (min n stackSz : Nat) := by
  by_cases hover : stackSz < n
  · rw [clampLevel, if_pos (by omega), Nat.min_eq_right (by omega)]
  · rw [clampLevel_in_range (by omega) (by omega),
      Nat.min_eq_left (by omega)]

theorem frames_of_reports (hreports : Reports env bypass) (fuel : Nat)
    (s : Device) (t : StackLastPCPS) :
    (hwdtPostProcessing b env fuel s t bypass).frames
      = hwdtFrames env.retaddr 64
        (hwdtStart env.retaddr t (clampLevel t.level.toInt).1).1 := by
  obtain ⟨hreason, rfl⟩ := hreports
  rw [hwdtPostProcessing, if_neg (by simp), if_pos hreason]

/-- The frame the backtrace of a report starts from. -/
def reportStart (env : HwdtEnv) (t : StackLastPCPS) : PcSp :=
  (hwdtStart env.retaddr t (clampLevel t.level.toInt).1).1

/-- The backtrace is the unwinding from there, as far as the limiter lets
it. -/
theorem frames_of_chain (hunwind : Unwinding c m env)
    (hreports : Reports env bypass) {fs : List PcSp}
    (h : UnwindChain c m 0 (reportStart env t) fs) (fuel : Nat) (s : Device) :
    (hwdtPostProcessing b env fuel s t bypass).frames = fs.take 64 := by
  rw [frames_of_reports hreports]
  show hwdtFrames env.retaddr 64 (reportStart env t) = fs.take 64
  rw [hunwind]
  exact hwdtFrames_chain h 64

/-- The last call in a tracker's array. -/
theorem HoldsCalls.last_entry {calls : List LastPCPS} {call : LastPCPS}
    (h : HoldsCalls t calls)
    (hcall : call ∈ (calls.take stackSz).getLast?) :
    0 < min calls.length stackSz
      ∧ t.last (min calls.length stackSz - 1) = call := by
  rw [List.getLast?_eq_getElem?, Option.mem_def, List.length_take] at hcall
  obtain ⟨hlt, heq⟩ := List.getElem?_eq_some_iff.mp hcall
  rw [List.length_take] at hlt
  rw [List.getElem_take] at heq
  have hentry := h.2 (min stackSz calls.length - 1) (by omega) (by omega)
  rw [heq] at hentry
  rw [Nat.min_comm]
  exact ⟨by omega, hentry⟩

/-- **The backtrace comes past the innermost call**: whatever calls,
returns and interrupts there were, wherever no logger is at work a report
after a hardware watchdog reset starts from the innermost call there was
room for, or from the frame released after it, and has the stack pointer
of that call among its first 16 frames. -/
theorem hwdt_backtrace_through_innermost (b : Build) (c : CodeMap)
    (mem : Mem) {after : Nat → LastPCPS} {es : List CpuEvent}
    (hdepth : Run.Along Cpu.step (fun m => m.depth < 2 ^ 31)
      (Cpu.start after) es) :
    Run.Along Cpu.step
      (fun m => m.Quiet →
        ∀ call ∈ (m.openCalls.take stackSz).getLast?,
        ∀ (env : HwdtEnv) (fuel : Nat) (s : Device) (bypass : Bool),
        Unwinding c mem env → Reports env bypass →
        let frames :=
          (hwdtPostProcessing b env fuel s m.hwdtLastCall bypass).frames
        (frames.head? = some ⟨call.pc, call.sp⟩
          ∨ frames.head? = some (m.hwdtLastCall.pcSp
            (min m.openCalls.length stackSz)))
        ∧ ∃ g ∈ frames.take 16, g.sp = call.sp)
      (Cpu.start after) es := by
  refine (tracks_along hdepth).mono fun m h hq call hcall env fuel s bypass
    hunwind hreports => ?_
  have hholds := h.holds hq
  obtain ⟨hpos, hlast⟩ := hholds.last_entry hcall
  have hmax : min m.openCalls.length stackSz ≤ stackSz :=
    Nat.min_le_right _ _
  have hentry : m.hwdtLastCall.pcSp (min m.openCalls.length stackSz - 1)
      = ⟨call.pc, call.sp⟩ := by
    rw [StackLastPCPS.pcSp, hlast]
  intro frames
  have hframes : frames = hwdtFrames env.retaddr 64
      (hwdtStart env.retaddr m.hwdtLastCall
        (min m.openCalls.length stackSz : Nat)).1 := by
    rw [← clampLevel_natCast, ← hholds.1]
    exact frames_of_reports hreports fuel s m.hwdtLastCall
  have hhead : frames.head? = some (hwdtStart env.retaddr m.hwdtLastCall
      (min m.openCalls.length stackSz : Nat)).1 := by
    rw [hframes]
    rfl
  rw [hunwind] at hframes hhead
  refine ⟨?_, ?_⟩
  · rw [hhead, hwdtStart_pos hpos hmax]
    split
    · exact .inr rfl
    · exact .inl (congrArg some hentry)
  · rw [hframes, ← hlast]
    exact hwdtFrames_start hpos hmax

theorem hwdt_backtrace_through_innermost_interruptedCall :
    Run.Along Cpu.step
      (fun m => m.Quiet →
        ∀ call ∈ (m.openCalls.take stackSz).getLast?,
        ∀ (env : HwdtEnv) (fuel : Nat) (s : Device) (bypass : Bool),
        Unwinding (smallMap 0) smallMem env → Reports env bypass →
        let frames := (hwdtPostProcessing minimalBuild env fuel s
          m.hwdtLastCall bypass).frames
        (frames.head? = some ⟨call.pc, call.sp⟩
          ∨ frames.head? = some (m.hwdtLastCall.pcSp
            (min m.openCalls.length stackSz)))
        ∧ ∃ g ∈ frames.take 16, g.sp = call.sp)
      (Cpu.start fun _ => ⟨0, 0⟩) interruptedCall :=
  hwdt_backtrace_through_innermost minimalBuild (smallMap 0) smallMem
    (by decide)

/-! ## The record -/

/-- What the report puts into `rst_info`. -/
def wdtInfo : RstInfo := { RstInfo.zero with reason := reasonWdtRst }

/-- It is no division by zero, so nothing is marked. -/
theorem marked_wdtInfo (s : Device) (a0 : Word) :
    marked s wdtInfo a0 = s := by
  refine if_neg fun h => ?_
  exact absurd h.2 (by decide)

/-- The loop without a limiter ends where the chain does. -/
theorem suspendedFrames_chain {f : PcSp} {fs : List PcSp}
    (h : UnwindChain c m 0 f fs) {fuel : Nat} (hfuel : fs.length ≤ fuel) :
    suspendedFrames (fun _ f => xtRetaddrCallee c m f.pc f.sp 0 f) fuel f
      = (fs, true) := by
  induction fuel generalizing f fs with
  | zero =>
      obtain ⟨gs, rfl⟩ := h.head
      exact absurd hfuel (Nat.not_succ_le_zero _)
  | succ fuel ih =>
      cases h with
      | last hstuck =>
          have hfail := (xtRetaddrCallee_stuck hstuck f).1
          simp only [suspendedFrames, hfail, Bool.false_eq_true, if_false]
      | next hstep hrest =>
          have hcall := xtRetaddrCallee_unwinds hstep f
          simp only [suspendedFrames, hcall, if_true,
            ih hrest (Nat.le_of_succ_le_succ hfuel)]

/-- The addresses of a report. -/
def hwdtPcs (env : HwdtEnv) (frames suspended : List PcSp) : List Word :=
  frames.map PcSp.pc
    ++ if env.pcSuspend ≠ 0 then 0 :: suspended.map PcSp.pc else []

/-- How a report ends once its record is made. -/
def hwdtEnd (env : HwdtEnv) (t : StackLastPCPS) (s : Device) : HwdtEnd :=
  if 0 < env.stackFree then .overflow s else .returns s (.zeroed t.last)

theorem finish_of_reports (hunwind : Unwinding c m env)
    (hreports : Reports env bypass) {suspended : List PcSp}
    (hsusp : env.pcSuspend ≠ 0 →
      UnwindChain c m 0 env.suspended suspended) {fuel : Nat}
    (hfuel : suspended.length ≤ fuel) (s : Device) (t : StackLastPCPS) :
    (hwdtPostProcessing b env fuel s t bypass).finish
      = hwdtEnd env t (crashRecord b s wdtInfo 0 (hwdtPcs env
        (hwdtPostProcessing b env fuel s t bypass).frames suspended)) := by
  rw [frames_of_reports hreports, crashRecord, marked_wdtInfo, hwdtPcs,
    hwdtEnd]
  obtain ⟨hreason, rfl⟩ := hreports
  rw [hwdtPostProcessing, if_neg (by simp), if_pos hreason]
  by_cases hyield : env.pcSuspend ≠ 0
  · have hloop : suspendedFrames env.retaddr fuel env.suspended
        = (suspended, true) := by
      rw [hunwind]
      exact suspendedFrames_chain (hsusp hyield) hfuel
    simp only [if_pos hyield, hloop, if_true]
    rfl
  · simp only [if_neg hyield, if_true]
    rfl

/-- **A hardware watchdog reset is put on record**: on a stack that has a
top, from any log that lasts, whatever `pBT` and the reset reason are
before the SDK has set them and whatever the tracker holds, the report
ends for all fuel from some amount on, whether or not with an overflow,
and leaves the log holding the addresses it printed as far as there is
room, for a crash with no more than the reason known. What it printed is
the unwinding from its start, cut off after 64 frames. -/
theorem exists_hwdtRecord (b : Build) (top : StackTop c m)
    (hunwind : Unwinding c m env) (hreports : Reports env bypass)
    (hsusp : env.pcSuspend ≠ 0 → env.suspended.sp.toNat ≤ top.limit)
    {s : Device} (hs : Lasting b s) (p : Option Word) (reason : Word)
    (t : StackLastPCPS) :
    ∃ (suspended : List PcSp) (d : Device) (n : Nat),
      (env.pcSuspend ≠ 0 → UnwindChain c m 0 env.suspended suspended)
      ∧ ∀ fuel, n ≤ fuel →
        (hwdtPostProcessing b env fuel (started s p reason) t bypass).finish
          = hwdtEnd env t d
        ∧ HoldsCrash b (started s p reason) d wdtInfo 0 (hwdtPcs env
          (hwdtPostProcessing b env fuel (started s p reason) t
            bypass).frames suspended)
        ∧ ∀ fs, UnwindChain c m 0 (reportStart env t) fs →
          (hwdtPostProcessing b env fuel (started s p reason) t
            bypass).frames = fs.take 64 := by
  have hroom := top.room
  obtain ⟨suspended, hchain⟩ : ∃ suspended, env.pcSuspend ≠ 0 →
      UnwindChain c m 0 env.suspended suspended := by
    by_cases hyield : env.pcSuspend ≠ 0
    · have hle := hsusp hyield
      obtain ⟨fs, hfs, -⟩ := exists_chain_null
        (show top.limit ≤ maxLimit by omega) top.noCode
        (f := env.suspended) (by omega)
      exact ⟨fs, fun _ => hfs⟩
    · exact ⟨[], fun h => absurd h hyield⟩
  obtain ⟨frames, hframes⟩ : ∃ frames, ∀ fuel, (hwdtPostProcessing b env
      fuel (started s p reason) t bypass).frames = frames :=
    ⟨_, fun fuel => frames_of_reports hreports fuel _ t⟩
  refine ⟨suspended, crashRecord b (started s p reason) wdtInfo 0
    (hwdtPcs env frames suspended), suspended.length, hchain,
    fun fuel hfuel => ?_⟩
  rw [finish_of_reports hunwind hreports hchain hfuel, hframes]
  refine ⟨rfl, hs.crashRecord p reason wdtInfo 0 _, fun fs hfs => ?_⟩
  rw [← hframes fuel]
  exact frames_of_chain hunwind hreports hfs fuel _

end BacktraceLog
