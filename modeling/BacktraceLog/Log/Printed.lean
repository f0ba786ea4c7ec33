import BacktraceLog.Log.Report

/-!
# What a report tells

A report is read by who has only the terminal output: each line by its
format, an absent line as its default. Of a log that has addresses nothing
is lost but the fields of `rst_info` behind the reason, where there was no
exception.
-/

namespace BacktraceLog

variable {b : Build} {s t : Device}

/-! ## Reading -/

/-- The arguments of the line with this format, if it was printed. -/
def lineArgs (fmt : String) (ps : List Printf) : Option (List Word) :=
  (ps.find? fun p => p.fmt = fmt).map Printf.args

/-- What is printed as ` %p`. -/
def addresses (ps : List Printf) : List Word :=
  (ps.filter fun p => p.fmt = " %p").flatMap Printf.args

/-- A report as it is read. -/
structure Shown where
  bootCounter : Option (List Word)
  crashCount : Option (List Word)
  /-- the CRC of the `.bin` and that of the record, where they differ -/
  binCrc : Option (List Word)
  reason : Option (List Word)
  exception : Option (List Word)
  pcs : List Word
  inInterruptHandler : Bool
deriving DecidableEq, Repr

/-- The reader. -/
def readReport (ps : List Printf) : Shown where
  bootCounter := lineArgs "  Boot Count: %u\r\n" ps
  crashCount := lineArgs "  Crash count: %u\r\n" ps
  binCrc := lineArgs
    "  Current '.bin' CRC, 0x%08X, does not match Backtrace's, 0x%08X\r\n" ps
  reason := lineArgs "  Reset Reason: %u\r\n" ps
  exception := lineArgs
    "  Exception (%d):\r\n  epc1=0x%08x epc2=0x%08x epc3=0x%08x excvaddr=0x%08x depc=0x%08x\r\n"
    ps
  pcs := addresses ps
  inInterruptHandler :=
    (lineArgs "  Backtrace Context: level 1 Interrupt Handler\r\n" ps).isSome

/-- What a report of the log can tell, the exception block standing where
`block` says. -/
def shown (b : Build) (s : Device) (block : Prop) [Decidable block] :
    Shown where
  bootCounter := some [s.ram.bootCounter]
  crashCount :=
    if s.ram.crashCount = 0 then none else some [s.ram.crashCount]
  binCrc :=
    if s.ram.count = 0 ∨ s.ram.binCrc = b.crcVal then none
    else some [b.crcVal, s.ram.binCrc]
  reason :=
    if s.ram.count = 0 then none else some [s.ram.rstInfo.reason]
  exception :=
    if s.ram.count = 0 ∨ ¬ block then none
    else some (exceptionLines s.ram.rstInfo).args
  pcs := items s.ram
  inInterruptHandler := (items s.ram).getLast? = some 0x4000050c

theorem getLast?_items (p : Ram) (h : p.count ≠ 0) :
    (items p).getLast? = some (p.pc (p.count.toNat - 1)) := by
  have hpos : p.count.toNat ≠ 0 := fun h0 => h (BitVec.eq_of_toNat_eq h0)
  rw [items, List.getLast?_map, List.getLast?_range, if_neg hpos]
  rfl

/-! ## The lines of both reports -/

/-- The lines of an address, the exception block standing where `block`
says. -/
def recordLines (b : Build) (s : Device) (block : Prop) [Decidable block] :
    List Printf :=
  (if s.ram.binCrc ≠ b.crcVal then
    [⟨"  Current '.bin' CRC, 0x%08X, does not match Backtrace's, 0x%08X\r\n",
      [b.crcVal, s.ram.binCrc]⟩] else [])
  ++ [⟨"  Reset Reason: %u\r\n", [s.ram.rstInfo.reason]⟩]
  ++ (if block then [exceptionLines s.ram.rstInfo] else [])
  ++ [⟨"  Backtrace:", []⟩]
  ++ (items s.ram).map (fun pc => ⟨" %p", [pc]⟩)
  ++ [⟨"\r\n", []⟩]
  ++ (if (items s.ram).getLast? = some 0x4000050c then
    [⟨"  Backtrace Context: level 1 Interrupt Handler\r\n", []⟩]
    else [])

/-- The lines of a report on a log there is. -/
def reportLines (b : Build) (s : Device) (block : Prop) [Decidable block] :
    List Printf :=
  ⟨"Backtrace Crash Report\r\n", []⟩ ::
  ⟨"  Boot Count: %u\r\n", [s.ram.bootCounter]⟩ :: configLine b s ::
  ((if s.ram.crashCount ≠ 0 then
      [⟨"  Crash count: %u\r\n", [s.ram.crashCount]⟩] else [])
    ++ if s.ram.count ≠ 0 then recordLines b s block
      else [⟨"  Backtrace empty\r\n", []⟩])

theorem report_eq (b : Build) (hp : s.pBT ≠ none) :
    report b s = reportLines b s (s.ram.rstInfo.reason < 100
      ∧ s.ram.rstInfo.reason ≠ reasonWdtRst) := by
  unfold report reportLines
  rw [if_neg hp]
  by_cases hc : s.ram.count ≠ 0
  · simp only [if_pos hc, recordLines, getLast?_items _ hc,
      Option.some.injEq]
    simp only [items, List.map_map]
    rfl
  · simp only [if_neg hc]
    rfl

theorem backtraceLogReport_eq (b : Build) (hp : s.pBT ≠ none) :
    (backtraceLogReport b s).map Prod.snd
      = reportLines b s (s.ram.rstInfo.reason < 100) := by
  unfold backtraceLogReport reportLines
  rw [if_neg hp]
  by_cases hc : s.ram.count ≠ 0
  · simp only [if_pos hc, recordLines, getLast?_items _ hc,
      Option.some.injEq]
    simp only [items, List.map_map, List.map_cons, List.map_append,
      apply_ite (List.map Prod.snd), List.map_nil]
    rfl
  · simp only [if_neg hc, List.map_cons, List.map_append,
      apply_ite (List.map Prod.snd), List.map_nil]
    rfl

/-! ## Reading the lines -/

@[simp] theorem lineArgs_nil (fmt : String) : lineArgs fmt [] = none := rfl

@[simp] theorem lineArgs_cons (fmt : String) (p : Printf)
    (ps : List Printf) :
    lineArgs fmt (p :: ps)
      = if p.fmt = fmt then some p.args else lineArgs fmt ps := by
  unfold lineArgs
  by_cases h : p.fmt = fmt
  · simp [h]
  · simp [h]

@[simp] theorem lineArgs_append (fmt : String) (ps qs : List Printf) :
    lineArgs fmt (ps ++ qs) = (lineArgs fmt ps).or (lineArgs fmt qs) := by
  induction ps with
  | nil => rfl
  | cons p ps ih =>
      rw [List.cons_append, lineArgs_cons, lineArgs_cons, ih]
      split <;> rfl

@[simp] theorem lineArgs_ite (fmt : String) (c : Prop) [Decidable c]
    (ps qs : List Printf) :
    lineArgs fmt (if c then ps else qs)
      = if c then lineArgs fmt ps else lineArgs fmt qs :=
  apply_ite (lineArgs fmt) c ps qs

theorem lineArgs_pcs {fmt : String} (h : " %p" ≠ fmt) (pcs : List Word) :
    lineArgs fmt (pcs.map fun pc => ⟨" %p", [pc]⟩) = none := by
  induction pcs with
  | nil => rfl
  | cons pc pcs ih => rw [List.map_cons, lineArgs_cons, if_neg h, ih]

@[simp] theorem addresses_nil : addresses [] = [] := rfl

@[simp] theorem addresses_cons (p : Printf) (ps : List Printf) :
    addresses (p :: ps)
      = (if p.fmt = " %p" then p.args else []) ++ addresses ps := by
  unfold addresses
  by_cases h : p.fmt = " %p"
  · simp [h]
  · simp [h]

@[simp] theorem addresses_append (ps qs : List Printf) :
    addresses (ps ++ qs) = addresses ps ++ addresses qs := by
  simp [addresses]

@[simp] theorem addresses_ite (c : Prop) [Decidable c]
    (ps qs : List Printf) :
    addresses (if c then ps else qs)
      = if c then addresses ps else addresses qs :=
  apply_ite addresses c ps qs

theorem addresses_pcs (pcs : List Word) :
    addresses (pcs.map fun pc => ⟨" %p", [pc]⟩) = pcs := by
  induction pcs with
  | nil => rfl
  | cons pc pcs ih => rw [List.map_cons, addresses_cons, ih]; rfl

/-- No line but its own is read for the `Config` line. -/
theorem fmt_configLine (b : Build) (s : Device) :
    ∀ fmt ∈ ["  Boot Count: %u\r\n", "  Crash count: %u\r\n",
      "  Current '.bin' CRC, 0x%08X, does not match Backtrace's, 0x%08X\r\n",
      "  Reset Reason: %u\r\n",
      "  Exception (%d):\r\n  epc1=0x%08x epc2=0x%08x epc3=0x%08x excvaddr=0x%08x depc=0x%08x\r\n",
      "  Backtrace Context: level 1 Interrupt Handler\r\n", " %p"],
      (configLine b s).fmt ≠ fmt := by
  unfold configLine
  split <;> split <;> simp

theorem addresses_reportLines (b : Build) (s : Device) (block : Prop)
    [Decidable block] : addresses (reportLines b s block) = items s.ram := by
  have hconfig := fmt_configLine b s
  simp only [List.forall_mem_cons] at hconfig
  by_cases hc : s.ram.count = 0
  · simp [reportLines, hc, hconfig, items_of_count_zero hc]
  · have hc' : ¬ s.ram.count = 0#32 := hc
    simp [reportLines, recordLines, hc', hconfig, addresses_pcs,
      exceptionLines]

theorem read_reportLines (b : Build) (s : Device) (block : Prop)
    [Decidable block] :
    readReport (reportLines b s block) = shown b s block := by
  have hconfig := fmt_configLine b s
  simp only [List.forall_mem_cons] at hconfig
  rw [readReport, shown, addresses_reportLines]
  by_cases hc : s.ram.count = 0
  · simp [reportLines, hc, hconfig, items_of_count_zero hc]
  · have hc' : ¬ s.ram.count = 0#32 := hc
    simp [reportLines, recordLines, hc', hconfig, lineArgs_pcs,
      exceptionLines]
    split <;> simp_all

/-- The addresses a report prints are those the log holds. -/
theorem addresses_report (b : Build) (hp : s.pBT ≠ none) :
    addresses (report b s) = items s.ram := by
  rw [report_eq b hp, addresses_reportLines]

/-- **A report can be read back**: from the lines of either report, taken
by their formats alone, come the boot counter, the crash count, the
addresses in order and, if there are any, the two CRCs where they differ,
the reset reason, the exception where the report prints one, and whether
the last address is that of the interrupt handler. -/
theorem reports_read_back (b : Build) (hp : s.pBT ≠ none) :
    readReport (report b s)
        = shown b s (s.ram.rstInfo.reason < 100
          ∧ s.ram.rstInfo.reason ≠ reasonWdtRst)
      ∧ readReport ((backtraceLogReport b s).map Prod.snd)
        = shown b s (s.ram.rstInfo.reason < 100) := by
  rw [report_eq b hp, backtraceLogReport_eq b hp]
  exact ⟨read_reportLines b s _, read_reportLines b s _⟩

theorem reports_read_back_oneRecord :
    readReport (report minimalBuild (oneRecord minimalBuild))
        = shown minimalBuild (oneRecord minimalBuild)
          ((oneRecord minimalBuild).ram.rstInfo.reason < 100
            ∧ (oneRecord minimalBuild).ram.rstInfo.reason ≠ reasonWdtRst)
      ∧ readReport ((backtraceLogReport minimalBuild
          (oneRecord minimalBuild)).map Prod.snd)
        = shown minimalBuild (oneRecord minimalBuild)
          ((oneRecord minimalBuild).ram.rstInfo.reason < 100) :=
  reports_read_back minimalBuild (oneRecord_sealed fits_minimalBuild).1.pBT

/-! ## A copy of the log -/

/-- The copies agree exactly where the buffers do, to the end of the
array. -/
theorem readLog_eq_iff (hs : s.pBT ≠ none) (ht : t.pBT ≠ none) :
    readLog b t = readLog b s
      ↔ ∀ i, i < 13 + b.MAX → t.ram.word i = s.ram.word i := by
  unfold readLog
  rw [if_neg hs, if_neg ht]
  simp only [List.map_inj_left, List.mem_range]

/-- A log whose copy is the same reads and reports the same, and passes the
same test: nothing they look at is past the array. -/
theorem report_of_readLog (hs : s.pBT ≠ none) (ht : t.pBT ≠ none)
    (hcount : s.ram.count.toNat ≤ b.MAX)
    (hstatus : t.rtcStatus = s.rtcStatus)
    (h : readLog b t = readLog b s) :
    report b t = report b s
      ∧ (backtraceLogReport b t).map Prod.snd
        = (backtraceLogReport b s).map Prod.snd
      ∧ (∀ sz, read t sz = read s sz)
      ∧ (Sealed b t.ram ↔ Sealed b s.ram) := by
  rw [readLog_eq_iff hs ht] at h
  have hitems : items t.ram = items s.ram :=
    items_congr (h 12 (by omega)) fun i hi => h (13 + i) (by omega)
  have hrst : t.ram.rstInfo = s.ram.rstInfo :=
    Ram.rstInfo_congr fun i _ hi => h i (by omega)
  have hconfig : configLine b t = configLine b s := by
    simp only [configLine, Ram.max, h 1 (by omega), hstatus]
  have hlines : ∀ (block : Prop) [Decidable block],
      reportLines b t block = reportLines b s block := by
    intro block _
    simp only [reportLines, recordLines, hitems, hrst, hconfig,
      Ram.bootCounter, Ram.crashCount, Ram.binCrc, Ram.count,
      h 2 (by omega), h 3 (by omega), h 4 (by omega), h 12 (by omega)]
  refine ⟨?_, ?_, fun sz => ?_, ?_⟩
  · rw [report_eq b hs, report_eq b ht, hlines]
    simp only [hrst]
  · rw [backtraceLogReport_eq b hs, backtraceLogReport_eq b ht, hlines]
    simp only [hrst]
  · rw [read_eq hs, read_eq ht, hitems]
  · exact ⟨fun hseal => hseal.congr fun i hi => (h i hi).symm,
      fun hseal => hseal.congr h⟩

end BacktraceLog
