import BacktraceLog.Log.Record

/-!
# The two reports

`BacktraceLog::report(Print&)` for a sketch and `backtraceLog_report` for
any `printf`, as the calls they make to print. They were written out twice
and have come apart in one test: only the first leaves out the exception
block after a hardware watchdog reset.
-/

namespace BacktraceLog

variable {b : Build}

/-- One call of a `printf` function. -/
structure Printf where
  fmt : String
  args : List Word
deriving DecidableEq, Repr

/-- `REASON_WDT_RST`, a hardware watchdog reset -/
def reasonWdtRst : Word := 1

/-- The `Config` line of the build. -/
def configLine (b : Build) (s : Device) : Printf :=
  let size : Word := .ofNat 32 (4 * (13 + b.MAX))
  let rtcSize : Word := .ofNat 32 s.rtcStatus.size
  match b.site with
  | .iram _ _ _ =>
      if b.RTC_OFFSET ≠ 0 then
        ⟨"  Config: IRAM log buffer w/RTC(%u): %u bytes, MAX backtrace: %u levels\r\n",
          [rtcSize, size, s.ram.max]⟩
      else
        ⟨"  Config: IRAM log buffer: %u bytes, MAX backtrace: %u levels\r\n",
          [size, s.ram.max]⟩
  | .dram _ =>
      if b.RTC_OFFSET ≠ 0 then
        ⟨"  Config: DRAM log buffer w/RTC(%u): %u bytes, MAX backtrace: %u levels\r\n",
          [rtcSize, size, s.ram.max]⟩
      else
        ⟨"  Config: DRAM log buffer: %u bytes, MAX backtrace: %u levels\r\n",
          [size, s.ram.max]⟩

/-- The two lines on an exception. -/
def exceptionLines (r : RstInfo) : Printf :=
  ⟨"  Exception (%d):\r\n  epc1=0x%08x epc2=0x%08x epc3=0x%08x excvaddr=0x%08x depc=0x%08x\r\n",
    [r.exccause, r.epc1, r.epc2, r.epc3, r.excvaddr, r.depc]⟩

/-- `BacktraceLog::report(out)`: what `out` prints. -/
def report (b : Build) (s : Device) : List Printf :=
  ⟨"Backtrace Crash Report\r\n", []⟩ ::
  if s.pBT = none then [⟨"  Log buffer not defined\r\n", []⟩]
  else
    [⟨"  Boot Count: %u\r\n", [s.ram.bootCounter]⟩, configLine b s]
    ++ (if s.ram.crashCount ≠ 0 then
        [⟨"  Crash count: %u\r\n", [s.ram.crashCount]⟩] else [])
    ++ if s.ram.count ≠ 0 then
        (if s.ram.binCrc ≠ b.crcVal then
          [⟨"  Current '.bin' CRC, 0x%08X, does not match Backtrace's, 0x%08X\r\n",
            [b.crcVal, s.ram.binCrc]⟩] else [])
        ++ [⟨"  Reset Reason: %u\r\n", [s.ram.rstInfo.reason]⟩]
        ++ (if s.ram.rstInfo.reason < 100
            ∧ s.ram.rstInfo.reason ≠ reasonWdtRst then
          [exceptionLines s.ram.rstInfo] else [])
        ++ [⟨"  Backtrace:", []⟩]
        ++ (List.range s.ram.count.toNat).map
          (fun i => ⟨" %p", [s.ram.pc i]⟩)
        ++ [⟨"\r\n", []⟩]
        ++ (if s.ram.pc (s.ram.count.toNat - 1) = 0x4000050c then
          [⟨"  Backtrace Context: level 1 Interrupt Handler\r\n", []⟩]
          else [])
      else [⟨"  Backtrace empty\r\n", []⟩]

/-- Who prints for `backtraceLog_report`: its argument, or the ROM. -/
inductive Printer where
  /-- `ets_printf_P`: the argument, `umm_info_safe_printf_P` if it is NULL -/
  | etsPrintfP
  /-- `ets_printf` -/
  | etsPrintf
deriving DecidableEq, Repr

/-- `backtraceLog_report(ets_printf_P)`: the calls with their printers. -/
def backtraceLogReport (b : Build) (s : Device) : List (Printer × Printf) :=
  (.etsPrintfP, ⟨"Backtrace Crash Report\r\n", []⟩) ::
  if s.pBT = none then
    [(.etsPrintfP, ⟨"  Insufficient IRAM for log buffer.\r\n", []⟩)]
  else
    [(.etsPrintfP, ⟨"  Boot Count: %u\r\n", [s.ram.bootCounter]⟩),
      (.etsPrintfP, configLine b s)]
    ++ (if s.ram.crashCount ≠ 0 then
        [(.etsPrintfP, ⟨"  Crash count: %u\r\n", [s.ram.crashCount]⟩)]
        else [])
    ++ if s.ram.count ≠ 0 then
        (if s.ram.binCrc ≠ b.crcVal then
          [(.etsPrintfP,
            ⟨"  Current '.bin' CRC, 0x%08X, does not match Backtrace's, 0x%08X\r\n",
              [b.crcVal, s.ram.binCrc]⟩)] else [])
        ++ [(.etsPrintfP,
          ⟨"  Reset Reason: %u\r\n", [s.ram.rstInfo.reason]⟩)]
        ++ (if s.ram.rstInfo.reason < 100 then
          [(.etsPrintfP, exceptionLines s.ram.rstInfo)] else [])
        ++ [(.etsPrintf, ⟨"  Backtrace:", []⟩)]
        ++ (List.range s.ram.count.toNat).map
          (fun i => (.etsPrintfP, ⟨" %p", [s.ram.pc i]⟩))
        ++ [(.etsPrintfP, ⟨"\r\n", []⟩)]
        ++ (if s.ram.pc (s.ram.count.toNat - 1) = 0x4000050c then
          [(.etsPrintfP,
            ⟨"  Backtrace Context: level 1 Interrupt Handler\r\n", []⟩)]
          else [])
      else [(.etsPrintfP, ⟨"  Backtrace empty\r\n", []⟩)]

/-- The heading of the addresses is all the ROM's `ets_printf` prints, so a
printer given for the report misses that one line. -/
theorem backtraceLogReport_etsPrintf (b : Build) {s : Device}
    (hp : s.pBT ≠ none) :
    (backtraceLogReport b s).filter (fun c => c.1 = .etsPrintf)
      = if s.ram.count = 0 then []
        else [(.etsPrintf, ⟨"  Backtrace:", []⟩)] := by
  by_cases hc : s.ram.count = 0
  · simp [backtraceLogReport, hp, hc, apply_ite (List.filter _)]
  · have hc' : ¬ s.ram.count = 0#32 := hc
    simp [backtraceLogReport, hp, hc', apply_ite (List.filter _)]

/-- The two tests before the exception block differ in what they do after
a hardware watchdog reset. -/
theorem exception_block_iff (r : RstInfo) :
    (if r.reason < 100 ∧ r.reason ≠ reasonWdtRst then [exceptionLines r]
      else []) = (if r.reason < 100 then [exceptionLines r] else [])
      ↔ r.reason ≠ reasonWdtRst := by
  by_cases hr : r.reason = reasonWdtRst
  · have hlt : reasonWdtRst < 100#32 := by decide
    simp [hr, hlt]
  · simp [hr]

/-- **When the two reports agree**: on an empty log, and wherever the
reset was not one of the hardware watchdog. -/
theorem reports_agree_iff (b : Build) {s : Device} (hp : s.pBT ≠ none) :
    report b s = (backtraceLogReport b s).map Prod.snd
      ↔ s.ram.count = 0 ∨ s.ram.rstInfo.reason ≠ reasonWdtRst := by
  by_cases hc : s.ram.count = 0
  · simp [report, backtraceLogReport, hp, hc, apply_ite (List.map Prod.snd)]
  · have hc' : ¬ s.ram.count = 0#32 := hc
    rw [← exception_block_iff]
    -- what stands before and after the exception block cancels
    simp [report, backtraceLogReport, hp, hc', apply_ite (List.map Prod.snd),
      Function.comp_def]

/-- A finished record of a hardware watchdog reset, one address long. -/
def wdtRecord (b : Build) : Device :=
  backtraceLogFin b (backtraceLogWrite
    (backtraceLogBegin b (firstBoot b (fun _ => 0) (fun _ => 0) ⟨0, 0⟩)
      (some ⟨reasonWdtRst, 0, 0, 0, 0, 0, 0⟩))
    0x40201234)

theorem reports_agree_oneRecord :
    report minimalBuild (oneRecord minimalBuild)
      = (backtraceLogReport minimalBuild (oneRecord minimalBuild)).map
          Prod.snd :=
  (reports_agree_iff minimalBuild (by decide)).2 (Or.inr (by decide))

/-- After a hardware watchdog reset only one of the two prints the
exception block. -/
theorem reports_differ_wdtRecord :
    ∃ s : Device, s.pBT ≠ none ∧ s.ram.count ≤ s.ram.max
      ∧ report minimalBuild s
          ≠ (backtraceLogReport minimalBuild s).map Prod.snd := by
  refine ⟨wdtRecord minimalBuild, by decide, by decide, fun h => ?_⟩
  have hlen := congrArg List.length h
  revert hlen
  decide

end BacktraceLog
