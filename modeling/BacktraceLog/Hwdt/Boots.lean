import BacktraceLog.Hwdt.Record

/-!
# From boot to boot

`hwdt_post_processing` runs at every boot, before the sketch. The tracker
and `bypass` are in `noinit` RAM and come from the boot before. A report
that finds the stack overflowed sets `bypass` and waits for the watchdog;
the boot after it starts the sketch, and leaves the tracker as it is. What
counts as an overflow comes last: any use of the stack at all.
-/

namespace BacktraceLog

variable {b : Build}

/-! ## Boots -/

/-- What a run of `hwdt_post_processing` starts from, besides what
`noinit` RAM holds. -/
structure Boot where
  env : HwdtEnv
  fuel : Nat
  log : Device

/-- `hwdt_last_call` with those that use it, and `bypass`. Power on and
deep sleep leave anything in them, which the next boot does not look at. -/
structure Board where
  cpu : Cpu
  bypass : Bool
  /-- the sketch runs -/
  up : Bool

inductive BoardEvent where
  | cpu (e : CpuEvent)
  | boot (x : Boot)

namespace Board

/-- `hwdt_post_processing()`, and the start of the sketch if it returns.
Otherwise nothing runs until the next reset. -/
def boot (b : Build) (m : Board) (x : Boot) : Board :=
  match (hwdtPostProcessing b x.env x.fuel x.log m.cpu.hwdtLastCall
      m.bypass).finish with
  | .returns _ t => ⟨⟨t, ⟨[], .body⟩, []⟩, false, true⟩
  | .overflow _ => { m with bypass := true, up := false }
  | .running => { m with up := false }

def step (b : Build) (m : Board) : BoardEvent → Board
  | .cpu e => if m.up then { m with cpu := m.cpu.step e } else m
  | .boot x => m.boot b x

end Board

/-- The reset is taken for that of an overflow: no report. -/
def Bypassed (env : HwdtEnv) (bypass : Bool) : Prop :=
  env.resetReason ≠ 0 ∧ env.resetReason ≠ 6 ∧ env.resetReason ≠ 5
    ∧ bypass = true

instance (env : HwdtEnv) (bypass : Bool) : Decidable (Bypassed env bypass) :=
  inferInstanceAs (Decidable (_ ∧ _))

/-- The trace of the suspended context, if there is one, ends. -/
def SuspendedEnds (env : HwdtEnv) (fuel : Nat) : Prop :=
  env.pcSuspend ≠ 0 →
    (suspendedFrames env.retaddr fuel env.suspended).2 = true

/-- A report starts with the bypass clear. -/
theorem reports_of_wdt {env : HwdtEnv} {bypass : Bool}
    (h : ¬ Bypassed env bypass) (hwdt : env.resetReason = reasonWdtRst) :
    Reports env bypass := by
  refine ⟨hwdt, ?_⟩
  cases bypass with
  | false => rfl
  | true =>
      unfold Bypassed at h
      rw [hwdt] at h
      exact absurd ⟨by decide, by decide, by decide, rfl⟩ h

section

variable {env : HwdtEnv} {bypass : Bool} (fuel : Nat) (s : Device)
  (t : StackLastPCPS)

theorem finish_of_bypassed (h : Bypassed env bypass) :
    (hwdtPostProcessing b env fuel s t bypass).finish = .returns s t := by
  unfold Bypassed at h
  rw [hwdtPostProcessing, if_pos h]

theorem finish_of_not_wdt (h : ¬ Bypassed env bypass)
    (hwdt : env.resetReason ≠ reasonWdtRst) :
    (hwdtPostProcessing b env fuel s t bypass).finish
      = .returns s (.zeroed t.last) := by
  unfold Bypassed at h
  rw [hwdtPostProcessing, if_neg h, if_neg hwdt]

theorem finish_of_ends (h : Reports env bypass)
    (hends : SuspendedEnds env fuel) :
    ∃ d, (hwdtPostProcessing b env fuel s t bypass).finish
      = hwdtEnd env t d := by
  obtain ⟨hreason, rfl⟩ := h
  rw [hwdtPostProcessing, if_neg (by simp), if_pos hreason]
  by_cases hyield : env.pcSuspend ≠ 0
  · simp only [if_pos hyield, hends hyield, if_true]
    exact ⟨_, rfl⟩
  · simp only [if_neg hyield, if_true]
    exact ⟨_, rfl⟩

theorem finish_of_not_ends (h : Reports env bypass)
    (hends : ¬ SuspendedEnds env fuel) :
    (hwdtPostProcessing b env fuel s t bypass).finish = .running := by
  unfold SuspendedEnds at hends
  push Not at hends
  obtain ⟨hreason, rfl⟩ := h
  rw [hwdtPostProcessing, if_neg (by simp), if_pos hreason]
  simp only [if_pos hends.1, if_neg hends.2]

end

/-- What a boot can come to. -/
inductive BootEnds (m : Board) (x : Boot) : Board → Prop where
  /-- the tracker is what it was -/
  | bypassed (h : Bypassed x.env m.bypass) :
      BootEnds m x ⟨⟨m.cpu.hwdtLastCall, ⟨[], .body⟩, []⟩, false, true⟩
  | zeroed (h : ¬ Bypassed x.env m.bypass) :
      BootEnds m x ⟨.start m.cpu.hwdtLastCall.last, false, true⟩
  | overflow (h : Reports x.env m.bypass) :
      BootEnds m x { m with bypass := true, up := false }
  | running (h : Reports x.env m.bypass)
      (hends : ¬ SuspendedEnds x.env x.fuel) :
      BootEnds m x { m with up := false }

theorem Board.boot_ends (b : Build) (m : Board) (x : Boot) :
    BootEnds m x (m.boot b x) := by
  unfold Board.boot
  by_cases hbypass : Bypassed x.env m.bypass
  · rw [finish_of_bypassed _ _ _ hbypass]
    exact .bypassed hbypass
  · by_cases hwdt : x.env.resetReason = reasonWdtRst
    · have hreports := reports_of_wdt hbypass hwdt
      by_cases hends : SuspendedEnds x.env x.fuel
      · obtain ⟨d, hfinish⟩ := finish_of_ends (b := b) x.fuel x.log
          m.cpu.hwdtLastCall hreports hends
        rw [hfinish, hwdtEnd]
        by_cases hused : 0 < x.env.stackFree
        · rw [if_pos hused]
          exact .overflow hreports
        · rw [if_neg hused]
          exact .zeroed hbypass
      · rw [finish_of_not_ends _ _ _ hreports hends]
        exact .running hreports hends
    · rw [finish_of_not_wdt _ _ _ hbypass hwdt]
      exact .zeroed hbypass

/-! ## It does not loop forever -/

namespace Board

/-- The report of the boot, if it makes one, comes to an end. -/
def Ends (b : Build) (m : Board) : BoardEvent → Prop
  | .cpu _ => True
  | .boot x => (hwdtPostProcessing b x.env x.fuel x.log m.cpu.hwdtLastCall
      m.bypass).finish ≠ .running

/-- The boots among the events. -/
def boots : List BoardEvent → Nat
  | [] => 0
  | .cpu _ :: es => boots es
  | .boot _ :: es => boots es + 1

/-- The boots that start the sketch. -/
def starts (b : Build) : Board → List BoardEvent → Nat
  | _, [] => 0
  | m, .cpu e :: es => starts b (m.step b (.cpu e)) es
  | m, .boot x :: es =>
      starts b (m.boot b x) es + if (m.boot b x).up then 1 else 0

end Board

@[simp] theorem Board.bypass_step_cpu (b : Build) (m : Board)
    (e : CpuEvent) : (m.step b (.cpu e)).bypass = m.bypass := by
  simp only [Board.step]
  split <;> rfl

/-- A boot that does not start the sketch finds the bypass clear and
leaves it set. -/
theorem Board.boot_counts {m : Board} {x : Boot}
    (hends : Board.Ends b m (.boot x)) :
    1 + (if (m.boot b x).bypass then 0 else 1)
      ≤ 2 * (if (m.boot b x).up then 1 else 0)
        + if m.bypass then 0 else 1 := by
  have hcases := m.boot_ends b x
  generalize m.boot b x = m' at hcases
  cases hcases with
  | bypassed h => simp
  | zeroed h => simp
  | overflow h => simp [h.2]
  | running h hloop =>
      exact absurd (finish_of_not_ends _ _ _ h hloop) hends

/-- **It does not loop forever**: as long as every report ends, at least
every second boot starts the sketch, whatever the resets are and whatever
the stack came to. -/
theorem sketch_starts_every_second_boot (b : Build) (m : Board)
    (es : List BoardEvent)
    (hends : Run.Meets (Board.step b) (Board.Ends b) m es) :
    Board.boots es
      ≤ 2 * Board.starts b m es + if m.bypass then 0 else 1 := by
  induction es generalizing m with
  | nil => exact Nat.zero_le _
  | cons e es ih =>
      have hrest := ih _ hends.2
      cases e with
      | cpu e =>
          rw [Board.bypass_step_cpu] at hrest
          exact hrest
      | boot x =>
          have hfirst := Board.boot_counts hends.1
          have hrest : Board.boots es ≤ 2 * Board.starts b (m.boot b x) es
              + if (m.boot b x).bypass then 0 else 1 := hrest
          simp only [Board.boots, Board.starts]
          omega

/-- A watchdog reset, its report taking stack. -/
def overflowReset : Boot where
  env := { wdtReset with stackFree := 64 }
  fuel := 0
  log := blank 1

theorem sketch_starts_every_second_boot_twice :
    Board.boots [.boot overflowReset, .boot overflowReset]
      ≤ 2 * Board.starts minimalBuild ⟨.start fun _ => ⟨0, 0⟩, false, true⟩
        [.boot overflowReset, .boot overflowReset] + 1 :=
  sketch_starts_every_second_boot minimalBuild
    ⟨.start fun _ => ⟨0, 0⟩, false, true⟩
    [.boot overflowReset, .boot overflowReset]
    ⟨HwdtEnd.noConfusion, HwdtEnd.noConfusion, trivial⟩

/-! ## The tracker after a boot -/

namespace Board

/-- The tracker follows the calls, when there are any. -/
def Follows (m : Board) : Prop := m.up = true → Tracks m.cpu

/-- The depth can be counted, and a boot that leaves the tracker as it is
finds it at level 0. -/
def Keeps (m : Board) : BoardEvent → Prop
  | .cpu e => m.up = true → (m.cpu.step e).depth < 2 ^ 31
  | .boot x => Bypassed x.env m.bypass → m.cpu.hwdtLastCall.level = 0

end Board

/-- With no call open the level alone decides. -/
theorem tracks_idle_iff {t : StackLastPCPS} :
    Tracks ⟨t, ⟨[], .body⟩, []⟩ ↔ t.level = 0 := by
  constructor
  · intro h
    exact BitVec.eq_of_toNat_eq h.level
  · intro h
    refine ⟨?_, trivial, ⟨trivial, trivial⟩, ?_⟩
    · rw [h]
      rfl
    · show (0 : Nat) < 2 ^ 31
      decide

theorem Board.follows_step {m : Board} {e : BoardEvent} (h : m.Follows)
    (hkeeps : m.Keeps e) : (m.step b e).Follows := by
  cases e with
  | cpu e =>
      simp only [Board.step]
      by_cases hup : m.up = true
      · rw [if_pos hup]
        intro _
        exact tracks_step (h hup) (hkeeps hup)
      · rw [if_neg hup]
        exact h
  | boot x =>
      have hcases := m.boot_ends b x
      simp only [Board.step]
      generalize m.boot b x = m' at hcases
      cases hcases with
      | bypassed hbypass => exact fun _ => tracks_idle_iff.mpr (hkeeps hbypass)
      | zeroed _ => exact fun _ => tracks_start _
      | overflow _ => exact fun hup => by cases hup
      | running _ _ => exact fun hup => by cases hup

theorem Board.not_follows_step {m : Board} {e : BoardEvent}
    (hkeeps : ¬ m.Keeps e) : ¬ (m.step b e).Follows := by
  cases e with
  | cpu e =>
      simp only [Board.Keeps, Classical.not_imp] at hkeeps
      obtain ⟨hup, hdeep⟩ := hkeeps
      intro h
      simp only [Board.step, if_pos hup] at h
      exact hdeep (h hup).bound
  | boot x =>
      simp only [Board.Keeps, Classical.not_imp] at hkeeps
      obtain ⟨hbypass, hlevel⟩ := hkeeps
      intro h
      simp only [Board.step, Board.boot, finish_of_bypassed _ _ _ hbypass]
        at h
      exact hlevel (tracks_idle_iff.mp (h rfl))

/-- **When the tracker is right from boot to boot**: over any run of
boots, calls, returns and interrupts, from whatever was in `noinit` RAM
before the first boot, the tracker follows the calls of the sketch all
along if and only if the depth can always be counted and no boot after an
overflow leaves a level behind. -/
theorem tracks_across_boots_iff (b : Build) (t : StackLastPCPS)
    (bypass : Bool) (es : List BoardEvent) :
    Run.Along (Board.step b) Board.Follows
        ⟨⟨t, ⟨[], .body⟩, []⟩, bypass, false⟩ es
      ↔ Run.Meets (Board.step b) Board.Keeps
        ⟨⟨t, ⟨[], .body⟩, []⟩, bypass, false⟩ es :=
  Run.along_iff_meets (fun _ h => h)
    (fun _ _ h hkeeps => Board.follows_step h hkeeps)
    (fun _ _ _ hkeeps => Board.not_follows_step hkeeps)
    (fun hup => by cases hup)

/-! ## The stack check -/

/-- `CONT_STACKGUARD` -/
def contStackguard : Word := 0xfeefeffe

/-- `SYS_STACK_E000` -/
def sysStackE000 : Word := 0x3fffe000

/-- The words of the stack below `sp`. -/
def thisMutch (sp : Word) : Nat := (sp - sysStackE000).toNat / 4

/-- `paint_sys_stack()`, at `sp`: the words from `SYS_STACK_E000` on, and
how many bytes have been painted. -/
def paintSysStack (stack : Nat → Word) (sp : Word) : (Nat → Word) × Nat :=
  (fun i => if i < thisMutch sp then contStackguard else stack i,
    4 * thisMutch sp)

/-- `check_paint_sys_stack()`, at `sp`: the bytes up to the first word that
is not paint. -/
def checkPaintSysStack (stack : Nat → Word) (sp : Word) : Nat :=
  4 * ((List.range (thisMutch sp)).find?
    fun i => stack i ≠ contStackguard).getD (thisMutch sp)

/-- `stack_free = paint_sys_stack();`, and at the end, the stack being
`after` then, `stack_free -= check_paint_sys_stack();`. -/
def stackFreeAfter (stack : Nat → Word) (sp : Word) (after : Nat → Word)
    (sp' : Word) : Int :=
  (BitVec.ofNat 32 (paintSysStack stack sp).2
    - .ofNat 32 (checkPaintSysStack after sp')).toInt

/-- A stack pointer in the system stack. -/
def InSysStack (sp : Word) : Prop :=
  sysStackE000 ≤ sp ∧ sp ≤ 0x40000000

theorem InSysStack.thisMutch_le {sp : Word} (h : InSysStack sp) :
    thisMutch sp ≤ 2048 := by
  have hlow : (0x3fffe000 : Nat) ≤ sp.toNat := h.1
  have hhigh : sp.toNat ≤ 0x40000000 := h.2
  rw [thisMutch, BitVec.toNat_sub_of_le h.1]
  show (sp.toNat - 0x3fffe000) / 4 ≤ 2048
  omega

/-- The first word that is not paint is below `n` where any is. -/
theorem firstUsed_lt_iff (stack : Nat → Word) (k n : Nat) :
    ((List.range k).find? fun i => stack i ≠ contStackguard).getD k < n
      ↔ k < n ∨ ∃ i, i < n ∧ stack i ≠ contStackguard := by
  cases hfind : (List.range k).find? fun i => stack i ≠ contStackguard with
  | none =>
      have hpaint : ∀ i, i < k → stack i = contStackguard := by
        simpa using hfind
      simp only [Option.getD_none]
      constructor
      · exact .inl
      · intro h
        rcases h with h | ⟨i, hi, hused⟩
        · exact h
        · have : ¬ i < k := fun hik => hused (hpaint i hik)
          omega
  | some j =>
      obtain ⟨hused, hj, hpaint⟩ := List.find?_range_eq_some.mp hfind
      simp only [Option.getD_some]
      have hj : j < k := List.mem_range.mp hj
      constructor
      · intro h
        exact .inr ⟨j, h, by simpa using hused⟩
      · intro h
        rcases h with h | ⟨i, hi, hused'⟩
        · omega
        · have : ¬ i < j := fun hij => by
            have := hpaint i hij
            simp [hused'] at this
          omega

theorem stackFreeAfter_pos_iff {sp sp' : Word} (hsp : InSysStack sp)
    (hsp' : InSysStack sp') (stack after : Nat → Word) :
    0 < stackFreeAfter stack sp after sp'
      ↔ thisMutch sp' < thisMutch sp
        ∨ ∃ i, i < thisMutch sp ∧ after i ≠ (paintSysStack stack sp).1 i := by
  have hle := hsp.thisMutch_le
  have hle' := hsp'.thisMutch_le
  have hpaint : (∃ i, i < thisMutch sp
      ∧ after i ≠ (paintSysStack stack sp).1 i)
        ↔ ∃ i, i < thisMutch sp ∧ after i ≠ contStackguard := by
    refine exists_congr fun i => and_congr_right fun hi => ?_
    simp only [paintSysStack, if_pos hi]
  rw [hpaint, ← firstUsed_lt_iff]
  obtain ⟨n, hn⟩ : ∃ n, n = ((List.range (thisMutch sp')).find?
      fun i => after i ≠ contStackguard).getD (thisMutch sp') := ⟨_, rfl⟩
  have hn_le : n ≤ 2048 := by
    cases hfind : (List.range (thisMutch sp')).find?
        fun i => after i ≠ contStackguard with
    | none =>
        rw [hn, hfind]
        exact hle'
    | some j =>
        have hj := List.mem_range.mp (List.find?_range_eq_some.mp hfind).2.1
        rw [hn, hfind]
        show j ≤ 2048
        omega
  have hvalue : stackFreeAfter stack sp after sp'
      = 4 * (thisMutch sp : Int) - 4 * (n : Int) := by
    simp only [stackFreeAfter, paintSysStack, checkPaintSysStack, ← hn]
    rw [BitVec.toInt_eq_toNat_cond, BitVec.toNat_sub, BitVec.toNat_ofNat,
      BitVec.toNat_ofNat]
    split <;> omega
  rw [hvalue, ← hn]
  omega

/-- **When a report takes its stack for overflowed**: where it has changed
any word of the stack it has painted, not just the last one, or looks at
less of it than it has painted. -/
theorem stack_overflow_reported_iff (b : Build) {env : HwdtEnv}
    {bypass : Bool} (hreports : Reports env bypass) {fuel : Nat}
    (hends : SuspendedEnds env fuel) {sp sp' : Word} (hsp : InSysStack sp)
    (hsp' : InSysStack sp') {stack after : Nat → Word}
    (hfree : env.stackFree = stackFreeAfter stack sp after sp')
    (s : Device) (t : StackLastPCPS) :
    (∃ d, (hwdtPostProcessing b env fuel s t bypass).finish = .overflow d)
      ↔ thisMutch sp' < thisMutch sp
        ∨ ∃ i, i < thisMutch sp
          ∧ after i ≠ (paintSysStack stack sp).1 i := by
  obtain ⟨d, hfinish⟩ := finish_of_ends (b := b) fuel s t hreports hends
  rw [hfinish, ← stackFreeAfter_pos_iff hsp hsp', ← hfree, hwdtEnd]
  by_cases hused : 0 < env.stackFree
  · rw [if_pos hused]
    exact ⟨fun _ => hused, fun _ => ⟨d, rfl⟩⟩
  · rw [if_neg hused]
    constructor
    · intro h
      obtain ⟨d', h⟩ := h
      cases h
    · intro h
      exact absurd h hused

/-- The stack after a report that has written to the last word below the
stack pointer. -/
def usedStack (i : Nat) : Word := if i < 0x7bf then contStackguard else 0

/-- A watchdog reset with that report. -/
def usedReset : HwdtEnv := { wdtReset with
  stackFree := stackFreeAfter (fun _ => 0) 0x3fffff00 usedStack 0x3fffff00 }

theorem stack_overflow_reported_used :
    (∃ d, (hwdtPostProcessing minimalBuild usedReset 0 (blank 1)
        (.zeroed fun _ => ⟨0, 0⟩) false).finish = .overflow d)
      ↔ thisMutch 0x3fffff00 < thisMutch 0x3fffff00
        ∨ ∃ i, i < thisMutch 0x3fffff00
          ∧ usedStack i ≠ (paintSysStack (fun _ => 0) 0x3fffff00).1 i := by
  have hsp : InSysStack 0x3fffff00 := ⟨by decide, by decide⟩
  have hreports : Reports usedReset false := ⟨rfl, rfl⟩
  have hends : SuspendedEnds usedReset 0 := fun h => absurd rfl h
  have hfree : usedReset.stackFree
      = stackFreeAfter (fun _ => 0) 0x3fffff00 usedStack 0x3fffff00 := by
    rw [usedReset]
  exact stack_overflow_reported_iff minimalBuild hreports hends hsp hsp hfree
    (blank 1) (.zeroed fun _ => ⟨0, 0⟩)

end BacktraceLog
