import BacktraceLog.Hwdt.Record
import BacktraceLog.Log.Printed

/-!
# From a crash to its report

What the library is for, end to end: a crash is put on record, the device
resets, the log comes back at the next boot, and what the report prints
then is the crash: its reason, its exception as the record has it, and the
calls that led to it.
-/

namespace BacktraceLog

variable {b : Build} {c : CodeMap} {m : Mem} {u d t : Device} {r : RstInfo}
  {a0 : Word} {pcs : List Word}

/-- What is read off the report of a crash. -/
def crashShown (b : Build) (boots crashes : Word) (r : RstInfo) (a0 : Word)
    (pcs : List Word) : Shown where
  bootCounter := some [boots]
  crashCount := if crashes = 0 then none else some [crashes]
  binCrc := none
  reason := some [r.reason]
  exception :=
    if r.reason < 100 ∧ r.reason ≠ reasonWdtRst then
      some (exceptionLines (storedInfo r a0)).args
    else none
  pcs := pcs.take (capacity b)
  inInterruptHandler := (pcs.take (capacity b)).getLast? = some 0x4000050c

theorem reason_storedInfo (r : RstInfo) (a0 : Word) :
    (storedInfo r a0).reason = r.reason := by
  unfold storedInfo
  split <;> rfl

/-- A log with the words of a crash record, the boot counter apart. -/
theorem HoldsCrash.reported (h : HoldsCrash b u d r a0 pcs)
    (hpcs : pcs ≠ []) (hp : t.pBT ≠ none)
    (hword : ∀ i, i ≠ 0 → i ≠ 2 → i < 13 + b.MAX →
      t.ram.word i = d.ram.word i) :
    readReport (report b t)
      = crashShown b t.ram.bootCounter d.ram.crashCount r a0 pcs := by
  have hle := capacity_le b
  have hlen := h.lasting.length_items_le
  rw [length_items] at hlen
  have hitems : BacktraceLog.items t.ram = pcs.take (capacity b) := by
    rw [← h.items]
    exact items_congr (hword 12 (by omega) (by omega) (by omega))
      fun i hi => hword (13 + i) (by omega) (by omega) (by omega)
  have hinfo : t.ram.rstInfo = storedInfo r a0 := by
    rw [← h.rstInfo]
    exact Ram.rstInfo_congr fun i h1 h2 =>
      hword i (by omega) (by omega) (by omega)
  have hcrash : t.ram.crashCount = d.ram.crashCount :=
    hword 3 (by omega) (by omega) (by omega)
  have hcrc : t.ram.binCrc = b.crcVal := by
    rw [← h.binCrc]
    exact hword 4 (by omega) (by omega) (by omega)
  have hcount : ¬ t.ram.count = 0 := by
    intro h0
    rw [items_of_count_zero h0] at hitems
    have hfour := four_le_capacity b
    rcases List.take_eq_nil_iff.mp hitems.symm with hzero | hnil
    · omega
    · exact hpcs hnil
  rw [report_eq b hp, read_reportLines, shown, crashShown, hitems, hcrash,
    hcrc, hinfo, reason_storedInfo]
  simp only [hcount, false_or, if_true, if_false, ite_not]

/-- The chain of user space has a first frame, so there is something to
report. -/
theorem CrashTrace.pcs_ne_nil {env : CrashEnv} (x : CrashTrace c m env r) :
    x.pcs ≠ [] := by
  obtain ⟨gs, hgs⟩ := x.user_chain.head
  unfold CrashTrace.pcs recorded
  rw [hgs]
  split <;> simp

/-- **A crash is reported after the reset**: on a stack that has a top, any
crash of a device whose log lasts ends with a record, and after any reset
that leaves it the copy or the buffer the report shows the crash: its
reason, the exception if it was one, one more crash, and the addresses of
the trace as far as there is room, with no complaint about the `.bin`. -/
theorem crash_reported_after_reset (b : Build) (top : StackTop c m)
    (env : CrashEnv) (hsp : env.captured.sp.toNat ≤ top.limit)
    (hsusp : env.pcSuspend ≠ 0 → env.spSuspend.toNat + 24 ≤ top.limit)
    {s : Device} (hs : Lasting b s) (r : RstInfo) :
    ∃ (x : CrashTrace c m env r) (d : Device),
      (∃ n, ∀ fuel, n ≤ fuel →
        shareCustomCrashCb b c m env fuel s r = some d)
      ∧ ∀ u, BootsFrom d u → u.pBT = none → Survives b u.resetReason →
        readReport (report b (setPBT b u).1)
          = crashShown b (d.ram.bootCounter + 1)
            ((setPBT b s).1.ram.crashCount + 1) r x.a0 x.pcs := by
  obtain ⟨x⟩ := exists_crashTrace top env hsp hsusp r
  obtain ⟨d, hends, hrecord⟩ := x.exists_record b hs
  refine ⟨x, d, hends, fun u hu hp hsurv => ?_⟩
  have hkeeps := hrecord.lasting.boot (hrecord.lasting.finds hu)
    (setPBT_boot hs.booted.fits hp)
  obtain ⟨hboots, hword⟩ := hkeeps.record hsurv hrecord.isSealed
  have hreport := hrecord.reported x.pcs_ne_nil hkeeps.lasting.booted.pBT
    hword
  rw [hboots, hrecord.crashCount] at hreport
  exact hreport

theorem crash_reported_after_reset_small :
    ∃ (x : CrashTrace (smallMap 0) smallMem yielding
        ⟨2, 0, 0x40100015, 0, 0, 0, 0⟩) (d : Device),
      (∃ n, ∀ fuel, n ≤ fuel →
        shareCustomCrashCb minimalBuild (smallMap 0) smallMem yielding fuel
          freshLog ⟨2, 0, 0x40100015, 0, 0, 0, 0⟩ = some d)
      ∧ ∀ u, BootsFrom d u → u.pBT = none →
        Survives minimalBuild u.resetReason →
        readReport (report minimalBuild (setPBT minimalBuild u).1)
          = crashShown minimalBuild (d.ram.bootCounter + 1)
            ((setPBT minimalBuild freshLog).1.ram.crashCount + 1)
            ⟨2, 0, 0x40100015, 0, 0, 0, 0⟩ x.a0 x.pcs :=
  crash_reported_after_reset minimalBuild smallTop yielding (by decide)
    (fun _ => by decide) lasting_freshLog _

/-! ## A hardware watchdog reset -/

theorem hwdtPcs_ne_nil (env : HwdtEnv) (suspended : List PcSp)
    {frames : List PcSp} (h : frames ≠ []) :
    hwdtPcs env frames suspended ≠ [] := by
  simp [hwdtPcs, h]

/-- A report's trace has a first frame. -/
theorem frames_ne_nil {env : HwdtEnv} {bypass : Bool}
    (hreports : Reports env bypass) (b : Build) (fuel : Nat) (s : Device)
    (tracker : StackLastPCPS) :
    (hwdtPostProcessing b env fuel s tracker bypass).frames ≠ [] := by
  have hhead := (reads_of_reports b fuel s tracker hreports).2
  intro hnil
  rw [hnil] at hhead
  cases hhead

/-- **A hardware watchdog reset is reported in the boot it leads to**: the
record is made before the SDK has set the reset reason, and `preinit()`
calls `set_pBT` again, with `pBT` zeroed or not; the report of that boot
shows the trace, which is the unwinding from its start cut off after 64
frames, the reason, and no exception. -/
theorem watchdog_reported_at_boot (b : Build) (top : StackTop c m)
    {env : HwdtEnv} {bypass : Bool} (hunwind : Unwinding c m env)
    (hreports : Reports env bypass)
    (hsusp : env.pcSuspend ≠ 0 → env.suspended.sp.toNat ≤ top.limit)
    {s : Device} (hs : Lasting b s) (p : Option Word) (reason : Word)
    (tracker : StackLastPCPS) :
    ∃ (suspended : List PcSp) (d : Device) (n : Nat),
      (env.pcSuspend ≠ 0 → UnwindChain c m 0 env.suspended suspended)
      ∧ ∀ fuel, n ≤ fuel →
        let x := hwdtPostProcessing b env fuel (started s p reason) tracker
          bypass
        x.finish = hwdtEnd env tracker d
        ∧ (∀ fs, UnwindChain c m 0 (reportStart env tracker) fs →
          x.frames = fs.take 64)
        ∧ ∀ p', readReport (report b
            (setPBT b (started d p' reasonWdtRst)).1)
          = crashShown b
            (setPBT b (started d p' reasonWdtRst)).1.ram.bootCounter
            ((setPBT b (started s p reason)).1.ram.crashCount + 1) wdtInfo 0
            (hwdtPcs env x.frames suspended) := by
  obtain ⟨suspended, d, n, hchain, hends⟩ :=
    exists_hwdtRecord b top hunwind hreports hsusp hs p reason tracker
  refine ⟨suspended, d, n, hchain, fun fuel hfuel => ?_⟩
  obtain ⟨hfinish, hrecord, hframes⟩ := hends fuel hfuel
  refine ⟨hfinish, hframes, fun p' => ?_⟩
  have hpcs := hwdtPcs_ne_nil env suspended
    (frames_ne_nil hreports b fuel (started s p reason) tracker)
  rw [← hrecord.crashCount]
  rcases hrecord.lasting.setPBT_cases p' reasonWdtRst with
    ⟨-, -, hsame, hlasting⟩ | ⟨-, hkeeps⟩
  · rw [hsame]
    exact hrecord.reported hpcs hlasting.booted.pBT fun _ _ _ _ => rfl
  · have hsurv : Survives b reasonWdtRst := .inr (by decide)
    exact hrecord.reported hpcs hkeeps.lasting.booted.pBT
      (hkeeps.record hsurv hrecord.isSealed).word

/-- A hardware watchdog reset on the stack of `smallMem`. -/
def smallReset : HwdtEnv where
  resetReason := reasonWdtRst
  retaddr _ f := xtRetaddrCallee (smallMap 0) smallMem f.pc f.sp 0 f
  pcSuspend := 1
  suspended := ⟨0, 0x3fff0018⟩
  stackFree := 0

theorem watchdog_reported_at_boot_small :
    ∃ (suspended : List PcSp) (d : Device) (n : Nat),
      (smallReset.pcSuspend ≠ 0 → UnwindChain (smallMap 0) smallMem 0
        smallReset.suspended suspended)
      ∧ ∀ fuel, n ≤ fuel →
        let x := hwdtPostProcessing minimalBuild smallReset fuel
          (started freshLog none 1) (.zeroed fun _ => ⟨0, 0⟩) false
        x.finish = hwdtEnd smallReset (.zeroed fun _ => ⟨0, 0⟩) d
        ∧ (∀ fs, UnwindChain (smallMap 0) smallMem 0
            (reportStart smallReset (.zeroed fun _ => ⟨0, 0⟩)) fs →
          x.frames = fs.take 64)
        ∧ ∀ p', readReport (report minimalBuild
            (setPBT minimalBuild (started d p' reasonWdtRst)).1)
          = crashShown minimalBuild
            (setPBT minimalBuild
              (started d p' reasonWdtRst)).1.ram.bootCounter
            ((setPBT minimalBuild (started freshLog none 1)).1.ram.crashCount
              + 1) wdtInfo 0 (hwdtPcs smallReset x.frames suspended) :=
  watchdog_reported_at_boot minimalBuild smallTop
    (show Unwinding (smallMap 0) smallMem smallReset from rfl) ⟨rfl, rfl⟩
    (fun _ => by decide) lasting_freshLog none 1 _

end BacktraceLog
