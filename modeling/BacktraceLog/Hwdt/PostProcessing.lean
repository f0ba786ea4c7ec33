import BacktraceLog.Crash.Callback
import BacktraceLog.Hwdt.Tracker
import BacktraceLog.Log.Report

/-!
# The report after a hardware watchdog reset

`hwdt_post_processing` takes the innermost call tracked before the reset,
looks whether the stack frame released last still leads to it, and writes
a backtrace from there. It reads the entry at `level`, the one after the
innermost call; at `stack_sz` that is one past the array.
-/

namespace BacktraceLog

/-- What `hwdt_post_processing` reads besides the tracker and the log. -/
structure HwdtEnv where
  /-- `hwdt_info.reset_reason` -/
  resetReason : Word
  /-- `xt_retaddr_callee(pc, sp, NULL, &pc, &sp)`; no two calls have the
  same number -/
  retaddr : Nat → PcSp → Bool × PcSp
  /-- `g_pcont->pc_suspend` -/
  pcSuspend : Word
  /-- `pc` and `sp` of the suspended context -/
  suspended : PcSp
  /-- `stack_free` less what is found unused in the end -/
  stackFree : Int

/-- How a run of `hwdt_post_processing` ends. -/
inductive HwdtEnd where
  /-- it returns, `bypass` being clear -/
  | returns (s : Device) (t : StackLastPCPS)
  /-- the stack has overflowed: it waits for the watchdog, `bypass` set -/
  | overflow (s : Device)
  /-- it is in the suspended context still -/
  | running

/-- What a run of `hwdt_post_processing` does. -/
structure HwdtRun where
  /-- the indices of `hwdt_last_call.last` read -/
  reads : List Nat
  out : List Printf
  /-- the backtrace written, up to the suspended context -/
  frames : List PcSp
  finish : HwdtEnd

/-! ## Where the backtrace starts -/

namespace StackLastPCPS

/-- `pc = hwdt_last_call.last[level].pc; sp = hwdt_last_call.last[level].sp;` -/
def pcSp (t : StackLastPCPS) (level : Nat) : PcSp :=
  ⟨(t.last level).pc, (t.last level).sp⟩

end StackLastPCPS

/-- The level to start at, and what is printed about it. -/
def clampLevel (level : Int) : Int × List Printf :=
  if stackSz < level then
    (stackSz,
      [⟨"  level(%d) exceeded PC:SP tracker stack size(%d)\n",
        [.ofInt 32 level, .ofNat 32 stackSz]⟩])
  else if 0 > level then
    (-1, [⟨"  Internal error: Bad level(%d) for PC:SP tracker stack\n",
      [.ofInt 32 level]⟩])
  else (level, [])

/-- `do { if (sp == hwdt_last_call.last[level].sp) { level++; break; }
repeat = xt_retaddr_callee(..); } while (repeat && --limiter);`: the level,
and the indices read. -/
def verifyLoop (retaddr : Nat → PcSp → Bool × PcSp) (t : StackLastPCPS) :
    Nat → Nat → PcSp → Nat × List Nat
  | 0, level, _ => (level, [])
  | limiter + 1, level, f =>
      if f.sp = (t.last level).sp then (level + 1, [level])
      else
        let r := retaddr limiter f
        if r.1 then
          let v := verifyLoop retaddr t limiter level r.2
          (v.1, level :: v.2)
        else (level, [level])

/-- `pc` and `sp` to start with, and the indices read. -/
def hwdtStart (retaddr : Nat → PcSp → Bool × PcSp) (t : StackLastPCPS)
    (level : Int) : PcSp × List Nat :=
  if stackSz ≥ level ∧ 0 ≤ level then
    let level := level.toNat
    if level > 0 then
      -- the frame after the innermost call, if it leads back to that call
      let v := verifyLoop retaddr t 16 (level - 1) (t.pcSp level)
      (t.pcSp v.1, level :: v.2 ++ [v.1])
    else (t.pcSp level, [level])
  else (⟨0, 0⟩, [])

/-! ## The backtrace -/

/-- `do { backtraceLog_write(pc); repeat = xt_retaddr_callee(..); }
while (repeat && --limiter);` -/
def hwdtFrames (retaddr : Nat → PcSp → Bool × PcSp) :
    Nat → PcSp → List PcSp
  | 0, _ => []
  | limiter + 1, f =>
      let r := retaddr (16 + limiter) f
      f :: if r.1 then hwdtFrames retaddr limiter r.2 else []

/-- The same loop without the limiter, and whether it ends with this
fuel. -/
def suspendedFrames (retaddr : Nat → PcSp → Bool × PcSp) :
    Nat → PcSp → List PcSp × Bool
  | 0, _ => ([], false)
  | fuel + 1, f =>
      let r := retaddr (80 + fuel) f
      if r.1 then
        let fs := suspendedFrames retaddr fuel r.2
        (f :: fs.1, fs.2)
      else ([f], true)

/-- ` %p:%p` -/
def printFrame (f : PcSp) : Printf := ⟨" %p:%p", [f.pc, f.sp]⟩

/-- `hwdt_post_processing()`, as `DEBUG_ESP_HWDT_POST_REPORT_CB`. -/
def hwdtPostProcessing (b : Build) (env : HwdtEnv) (fuel : Nat)
    (s : Device) (t : StackLastPCPS) (bypass : Bool) : HwdtRun :=
  -- power on, external reset and deep sleep clear the bypass
  if env.resetReason ≠ 0 ∧ env.resetReason ≠ 6 ∧ env.resetReason ≠ 5
      ∧ bypass = true then
    ⟨[], [], [], .returns s t⟩
  else if env.resetReason = reasonWdtRst then
    let (level, complaint) := clampLevel t.level.toInt
    let (f, reads) := hwdtStart env.retaddr t level
    let s := backtraceLogBegin b s (some { RstInfo.zero with
      reason := reasonWdtRst })
    let frames := hwdtFrames env.retaddr 64 f
    let suspended :=
      if env.pcSuspend ≠ 0 then
        suspendedFrames env.retaddr fuel env.suspended
      else ([], true)
    let s := backtraceLogFin b (writeAll s (frames.map PcSp.pc
      ++ if env.pcSuspend ≠ 0 then 0 :: suspended.1.map PcSp.pc else []))
    let out := ⟨"\n\nHWDT Backtrace Crash Report:\n", []⟩ :: complaint
      ++ ⟨"  Backtrace:", []⟩ :: frames.map printFrame
      ++ (if env.pcSuspend ≠ 0 then
          ⟨" 0:0", []⟩ :: suspended.1.map printFrame else [])
      ++ if suspended.2 then ⟨"\n\n", []⟩ ::
          (if 0 < env.stackFree then
            [⟨"  Stack overflow during 'hwdt_post_processing' callback.\n",
              []⟩] else [])
        else []
    { reads := reads
      out := out
      frames := frames
      finish :=
        if suspended.2 then
          if 0 < env.stackFree then .overflow s
          else .returns s (.zeroed t.last)
        else .running }
  else ⟨[], [], [], .returns s (.zeroed t.last)⟩

/-- The backtrace is the unwind chain, as far as the limiter lets it. -/
theorem hwdtFrames_chain {c : CodeMap} {m : Mem} {f : PcSp} {fs : List PcSp}
    (h : UnwindChain c m 0 f fs) (limiter : Nat) :
    hwdtFrames (fun _ f => xtRetaddrCallee c m f.pc f.sp 0 f) limiter f
      = fs.take limiter := by
  induction limiter generalizing f fs with
  | zero => rfl
  | succ limiter ih =>
      cases h with
      | last hstuck =>
          have hfail := (xtRetaddrCallee_stuck hstuck f).1
          simp only [hwdtFrames, hfail, Bool.false_eq_true, if_false,
            List.take_succ_cons, List.take_nil]
      | next hstep hrest =>
          have hcall := xtRetaddrCallee_unwinds hstep f
          simp only [hwdtFrames, hcall, if_true, List.take_succ_cons]
          rw [ih hrest]

/-! ## What is read -/

variable {retaddr : Nat → PcSp → Bool × PcSp} {t : StackLastPCPS}

/-- The loop reads one entry, and stays there or goes one up. -/
theorem verifyLoop_reads (limiter level : Nat) (f : PcSp) :
    (∀ i ∈ (verifyLoop retaddr t limiter level f).2, i = level)
      ∧ level ≤ (verifyLoop retaddr t limiter level f).1
      ∧ (verifyLoop retaddr t limiter level f).1 ≤ level + 1 := by
  induction limiter generalizing f with
  | zero => simp [verifyLoop]
  | succ limiter ih =>
      simp only [verifyLoop]
      by_cases hsp : f.sp = (t.last level).sp
      · simp [hsp]
      · by_cases hrepeat : (retaddr limiter f).1
        · obtain ⟨hreads, hlow, hhigh⟩ := ih (retaddr limiter f).2
          simp only [if_neg hsp, if_pos hrepeat, List.forall_mem_cons]
          exact ⟨⟨trivial, hreads⟩, hlow, hhigh⟩
        · simp [hsp, hrepeat]

/-- From a level in range: the entry there is read, none above it is, and
one of those read is the start. -/
theorem hwdtStart_reads {level : Int} (h0 : 0 ≤ level)
    (hmax : level ≤ stackSz) :
    level.toNat ∈ (hwdtStart retaddr t level).2
      ∧ (∀ i ∈ (hwdtStart retaddr t level).2, i ≤ level.toNat)
      ∧ ∃ i ∈ (hwdtStart retaddr t level).2,
        (hwdtStart retaddr t level).1 = t.pcSp i := by
  rw [hwdtStart, if_pos ⟨hmax, h0⟩]
  by_cases hpos : level.toNat > 0
  · obtain ⟨hreads, hlow, hhigh⟩ :=
      verifyLoop_reads 16 (level.toNat - 1) (t.pcSp level.toNat)
    simp only [if_pos hpos]
    refine ⟨List.mem_append_left _ List.mem_cons_self, fun i hi => ?_,
      _, List.mem_append_right _ List.mem_cons_self, rfl⟩
    rcases List.mem_append.mp hi with hi | hi
    · rcases List.mem_cons.mp hi with rfl | hi
      · exact Nat.le_refl _
      · have := hreads i hi
        omega
    · rw [List.mem_singleton.mp hi]
      omega
  · simp only [if_neg hpos]
    simp

theorem clampLevel_in_range {level : Int} (h0 : 0 ≤ level)
    (hmax : level ≤ stackSz) : (clampLevel level).1 = level := by
  rw [clampLevel, if_neg (by omega), if_neg (by omega)]

/-- A level below zero leaves nothing to start from. -/
theorem hwdtStart_negative {level : Int} (h : level < 0) :
    (hwdtStart retaddr t (clampLevel level).1).2 = [] := by
  have hstack : (0 : Int) ≤ stackSz := Int.natCast_nonneg _
  have hclamp : (clampLevel level).1 = -1 := by
    rw [clampLevel, if_neg (by omega), if_pos h]
  rw [hclamp, hwdtStart, if_neg (by omega)]

/-- Past the array: from `stack_sz` on the first entry read is not in
it. -/
theorem hwdtStart_past {level : Int} (h : stackSz ≤ level) :
    stackSz ∈ (hwdtStart retaddr t (clampLevel level).1).2 := by
  have hclamp : (clampLevel level).1 = stackSz := by
    by_cases hover : (stackSz : Int) < level
    · rw [clampLevel, if_pos hover]
    · have heq : level = stackSz := by omega
      rw [clampLevel_in_range (by omega) (by omega), heq]
  rw [hclamp]
  exact (hwdtStart_reads (Int.natCast_nonneg _) (Int.le_refl _)).1

/-- A report is made after a hardware watchdog reset, unless the last one
ran out of stack. -/
def Reports (env : HwdtEnv) (bypass : Bool) : Prop :=
  env.resetReason = reasonWdtRst ∧ bypass = false

/-- No entry past the array is read, and the backtrace starts from one of
those read. -/
def ReadsTracked (t : StackLastPCPS) (r : HwdtRun) : Prop :=
  (∀ i ∈ r.reads, i < stackSz)
    ∧ ∀ f ∈ r.frames.head?, ∃ i ∈ r.reads, i < stackSz ∧ f = t.pcSp i

variable {env : HwdtEnv} {bypass : Bool}

theorem reads_of_not_reports (b : Build) (fuel : Nat) (s : Device)
    (t : StackLastPCPS) (h : ¬ Reports env bypass) :
    (hwdtPostProcessing b env fuel s t bypass).reads = []
      ∧ (hwdtPostProcessing b env fuel s t bypass).frames = [] := by
  unfold hwdtPostProcessing
  split
  · exact ⟨rfl, rfl⟩
  · rename_i hbypass
    by_cases hreason : env.resetReason = reasonWdtRst
    · have hon : bypass = true := by
        cases bypass with
        | true => rfl
        | false => exact absurd ⟨hreason, rfl⟩ h
      rw [hreason] at hbypass
      exact absurd ⟨by decide, by decide, by decide, hon⟩ hbypass
    · rw [if_neg hreason]
      exact ⟨rfl, rfl⟩

theorem reads_of_reports (b : Build) (fuel : Nat) (s : Device)
    (t : StackLastPCPS) (h : Reports env bypass) :
    (hwdtPostProcessing b env fuel s t bypass).reads
        = (hwdtStart env.retaddr t (clampLevel t.level.toInt).1).2
      ∧ (hwdtPostProcessing b env fuel s t bypass).frames.head?
        = some (hwdtStart env.retaddr t (clampLevel t.level.toInt).1).1 := by
  obtain ⟨hreason, rfl⟩ := h
  rw [hwdtPostProcessing, if_neg (by simp), if_pos hreason]
  exact ⟨rfl, rfl⟩

/-- The levels it is safe to report from. -/
theorem readsTracked_iff {b : Build} {fuel : Nat} {s : Device} :
    ReadsTracked t (hwdtPostProcessing b env fuel s t bypass)
      ↔ ¬ Reports env bypass ∨ 0 ≤ t.level.toInt ∧ t.level.toInt < stackSz := by
  by_cases hreports : Reports env bypass
  · obtain ⟨hreads, hhead⟩ := reads_of_reports b fuel s t hreports
    rw [ReadsTracked, hreads, hhead]
    constructor
    · intro h
      obtain ⟨i, hi, -⟩ := h.2 _ rfl
      refine .inr ⟨Int.not_lt.mp fun hneg => ?_,
        Int.not_le.mp fun hpast => ?_⟩
      · rw [hwdtStart_negative hneg] at hi
        cases hi
      · exact absurd (h.1 _ (hwdtStart_past hpast)) (Nat.lt_irrefl _)
    · intro h
      obtain ⟨h0, hlt⟩ := h.resolve_left (not_not_intro hreports)
      rw [clampLevel_in_range h0 (Int.le_of_lt hlt)]
      obtain ⟨-, hle, i, hi, hstart⟩ :=
        hwdtStart_reads h0 (Int.le_of_lt hlt)
      have hrange : ∀ j ∈ (hwdtStart env.retaddr t t.level.toInt).2,
          j < stackSz := by
        intro j hj
        have := hle j hj
        omega
      refine ⟨hrange, fun f hf => ⟨i, hi, hrange i hi, ?_⟩⟩
      rw [← hstart]
      exact (Option.some.inj hf).symm
  · obtain ⟨hreads, hframes⟩ := reads_of_not_reports b fuel s t hreports
    simp [ReadsTracked, hreads, hframes, hreports]

/-- A run that never has 48 calls open at once can be reported on at any
time: its level is that of an entry. -/
theorem readsTracked_of_depth {b : Build} {after : Nat → LastPCPS}
    {es : List CpuEvent}
    (hdepth : Run.Along Cpu.step (fun m => m.depth < stackSz)
      (Cpu.start after) es) :
    Run.Along Cpu.step
      (fun m => ∀ (env : HwdtEnv) (fuel : Nat) (s : Device) (bypass : Bool),
        ReadsTracked m.hwdtLastCall
          (hwdtPostProcessing b env fuel s m.hwdtLastCall bypass))
      (Cpu.start after) es := by
  have hsmall : ∀ m : Cpu, m.depth < stackSz → m.depth < 2 ^ 31 :=
    fun m hm => Nat.lt_trans hm (by decide)
  have htracks := tracks_along (hdepth.mono hsmall)
  refine (htracks.and hdepth).mono fun m hm env fuel s bypass => ?_
  obtain ⟨hlevel, hle⟩ := hm.1.level_toInt
  have hshallow := hm.2
  exact readsTracked_iff.mpr (.inr ⟨by omega, by omega⟩)

/-- **When only tracked frames are read**: whatever run of calls, returns
and interrupts led to the reset and whatever the unwinds come by, the
entries read are in the array and the backtrace starts from one of them
just where no report is made or the level is one of the array; and a run
that never has as many calls open as the array has entries keeps to such
levels. -/
theorem post_processing_reads_tracked_iff (b : Build)
    (after : Nat → LastPCPS) (es : List CpuEvent) :
    Run.Along Cpu.step
      (fun m => ∀ (env : HwdtEnv) (fuel : Nat) (s : Device) (bypass : Bool),
        ReadsTracked m.hwdtLastCall
            (hwdtPostProcessing b env fuel s m.hwdtLastCall bypass)
          ↔ ¬ Reports env bypass
            ∨ 0 ≤ m.hwdtLastCall.level.toInt
              ∧ m.hwdtLastCall.level.toInt < stackSz)
      (Cpu.start after) es
    ∧ (Run.Along Cpu.step (fun m => m.depth < stackSz) (Cpu.start after) es →
      Run.Along Cpu.step
        (fun m => ∀ (env : HwdtEnv) (fuel : Nat) (s : Device)
          (bypass : Bool), ReadsTracked m.hwdtLastCall
            (hwdtPostProcessing b env fuel s m.hwdtLastCall bypass))
        (Cpu.start after) es) :=
  ⟨Run.along_of_forall (fun _ _ _ _ _ => readsTracked_iff) _ _,
    readsTracked_of_depth⟩

/-- Calls one in the other, each with its logger run to the end. -/
def nestedCalls (n : Nat) : List CpuEvent :=
  (List.range n).flatMap fun i =>
    [.call (0x40201000 + .ofNat 32 (16 * i)) (0x3fffff00 - .ofNat 32 (32 * i)),
      .access, .access, .access, .access]

/-- A hardware watchdog reset, nothing to unwind to. -/
def wdtReset : HwdtEnv where
  resetReason := reasonWdtRst
  retaddr _ f := (false, f)
  pcSuspend := 0
  suspended := ⟨0, 0⟩
  stackFree := 0

/-- With as many calls open as the array has room for, the entry past it
is read. -/
theorem post_processing_reads_past_last :
    (Run.run Cpu.step (Cpu.start fun _ => ⟨0, 0⟩)
        (nestedCalls 48)).hwdtLastCall.level = 48
      ∧ ¬ ReadsTracked
        (Run.run Cpu.step (Cpu.start fun _ => ⟨0, 0⟩)
          (nestedCalls 48)).hwdtLastCall
        (hwdtPostProcessing minimalBuild wdtReset 0 (blank 1)
          (Run.run Cpu.step (Cpu.start fun _ => ⟨0, 0⟩)
            (nestedCalls 48)).hwdtLastCall false) := by
  have hlevel : (Run.run Cpu.step (Cpu.start fun _ => ⟨0, 0⟩)
      (nestedCalls 48)).hwdtLastCall.level = 48 := by
    decide +kernel
  refine ⟨hlevel, fun h => ?_⟩
  rcases readsTracked_iff.mp h with hquiet | ⟨-, hlt⟩
  · exact hquiet ⟨rfl, rfl⟩
  · rw [hlevel] at hlt
    exact absurd hlt (by decide)

end BacktraceLog
