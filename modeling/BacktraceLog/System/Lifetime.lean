import BacktraceLog.Crash.CallTrace
import BacktraceLog.Hwdt.Record
import BacktraceLog.Lib.Bounded
import BacktraceLog.Lib.Run
import BacktraceLog.Log.Printed

/-!
# The life of a log

All that can happen to a log from the first boot on: crashes, call traces,
records a sketch makes itself, a clear, boots of every kind, hardware
watchdog resets, and other users of the RTC memory. To the list of
addresses each of them is one edit of a bounded list, whatever state the
log is in, and so the log shows at any time the start of the list those
edits leave without a bound.
-/

namespace BacktraceLog

open Bounded (Edit)

variable {b : Build} {s t : Device} {e : Edit Word}

/-- What can happen to a log, and what it is to the list of addresses. -/
inductive Happens (b : Build) (s : Device) : Edit Word → Device → Prop where
  /-- the crash callback ends -/
  | crash {c : CodeMap} {m : Mem} {env : CrashEnv} {r : RstInfo}
      {t : Device} (x : CrashTrace c m env r)
      (h : ∃ n, ∀ fuel, n ≤ fuel →
        shareCustomCrashCb b c m env fuel s r = some t) :
      Happens b s (.replace x.pcs) t
  /-- `logCallTrace()` ends -/
  | callTrace {c : CodeMap} {m : Mem} {captured : PcSp} {fs : List PcSp}
      {t : Device} (hchain : UnwindChain c m 0 (callerOf c m captured) fs)
      (h : ∃ n, ∀ fuel, n ≤ fuel →
        logCallTrace b c m captured fuel s = some t) :
      Happens b s (.extend (0 :: fs.map PcSp.pc)) t
  /-- `begin`, writes, `fin` -/
  | record (r : Option RstInfo) (pcs : List Word) :
      Happens b s (.replace pcs)
        (backtraceLogFin b (writeAll (backtraceLogBegin b s r) pcs))
  /-- `append`, writes, `fin`, with room for the zero -/
  | append (pcs : List Word) (hroom : available s < capacity b) :
      Happens b s (.extend (0 :: pcs))
        (backtraceLogFin b (writeAll (backtraceLogAppend b s) pcs))
  | clear : Happens b s .erase (backtraceLogClear b s)
  /-- a boot that finds its log again -/
  | bootKept {u : Device} (hu : BootsFrom s u) (hp : u.pBT = none)
      (h : Survives b u.resetReason) : Happens b s .keep (setPBT b u).1
  | bootLost {u : Device} (hu : BootsFrom s u) (hp : u.pBT = none)
      (h : ¬ Survives b u.resetReason) : Happens b s .erase (setPBT b u).1
  /-- `set_pBT` once more in the same boot -/
  | setAgain (p : Word) (reason : Word) :
      Happens b s .keep (setPBT b (started s (some p) reason)).1
  /-- the report after a hardware watchdog reset ends -/
  | watchdog {c : CodeMap} {m : Mem} {env : HwdtEnv} {tracker : StackLastPCPS}
      {bypass : Bool} {p : Option Word} {reason : Word} {t : Device}
      {frames suspended : List PcSp} (hunwind : Unwinding c m env)
      (hreports : Reports env bypass)
      (hsusp : env.pcSuspend ≠ 0 →
        UnwindChain c m 0 env.suspended suspended)
      (h : ∃ n, ∀ fuel, n ≤ fuel →
        (hwdtPostProcessing b env fuel (started s p reason) tracker
            bypass).frames = frames
          ∧ (hwdtPostProcessing b env fuel (started s p reason) tracker
            bypass).finish = hwdtEnd env tracker t) :
      Happens b s (.replace (hwdtPcs env frames suspended)) t
  /-- another user of the RTC memory, such as eboot, stores a word -/
  | rtcWrite (j : Nat) (v : Word)
      (hj : j < b.RTC_OFFSET ∨ b.RTC_OFFSET + 13 + maxDepth b ≤ j) :
      Happens b s .keep { s with rtc := Function.update s.rtc j v }

/-! ## A store behind the last entry -/

/-- An address put behind the others where there is room. -/
theorem InShape.putItem (h : InShape b s)
    (hroom : (items s.ram).length < capacity b) (v : Word) :
    InShape b { s with ram := putItem s.ram v }
      ∧ items (putItem s.ram v) = items s.ram ++ [v] := by
  have hmax := h.toNat_max
  have hlt := s.ram.max.isLt
  rw [length_items] at hroom
  have hcount : (BacktraceLog.putItem s.ram v).count.toNat
      = s.ram.count.toNat + 1 := by
    rw [count_putItem, BitVec.toNat_add]
    exact Nat.mod_eq_of_lt (show s.ram.count.toNat + 1 < 2 ^ 32 by omega)
  have hsame : (BacktraceLog.putItem s.ram v).max = s.ram.max :=
    word_putItem s.ram v (by omega) (by omega)
  refine ⟨h.withRam hsame ?_ fun i hi =>
    word_putItem s.ram v (by omega) (by omega),
    items_putItem v (by omega)⟩
  show (BacktraceLog.putItem s.ram v).count.toNat
    ≤ (BacktraceLog.putItem s.ram v).max.toNat
  rw [hcount, hsame]
  omega

theorem Lasting.append (h : Lasting b s)
    (hroom : available s < capacity b) :
    InShape b (backtraceLogAppend b s)
      ∧ items (backtraceLogAppend b s).ram = items s.ram ++ [0] := by
  rw [available_eq h.booted.pBT] at hroom
  -- `set_pBT` finds the log sealed, or boots an empty one again
  have hset : Lasting b (BacktraceLog.setPBT b s).1
      ∧ items (BacktraceLog.setPBT b s).1.ram = items s.ram := by
    rcases h.setPBT_cases s.pBT s.resetReason with
      ⟨-, -, hsame, hlasting⟩ | ⟨hunsealed, hkeeps⟩
    · have hsame : (BacktraceLog.setPBT b s).1 = s := hsame
      rw [hsame]
      exact ⟨h, rfl⟩
    · have hnil : items s.ram = [] := by
        refine items_of_count_zero (h.sealed_or_empty.resolve_left ?_)
        exact fun hseal => hunsealed ⟨h.booted.pBT, hseal⟩
      refine ⟨hkeeps.lasting, ?_⟩
      by_cases hsurv : Survives b s.resetReason
      · exact hkeeps.kept hsurv
      · exact (hkeeps.lost hsurv).trans hnil.symm
  have happend : backtraceLogAppend b s
      = { (BacktraceLog.setPBT b s).1 with
        ram := BacktraceLog.putItem (BacktraceLog.setPBT b s).1.ram 0 } := by
    unfold backtraceLogAppend
    rw [if_neg hset.1.booted.pBT]
    rfl
  rw [← hset.2] at hroom
  have hput := hset.1.toInShape.putItem hroom 0
  rw [happend, ← hset.2]
  exact hput

/-! ## Steps -/

/-- A step of the life of a log, seen as an edit. -/
def Edits (b : Build) (s : Device) (e : Edit Word) (t : Device) : Prop :=
  Lasting b t ∧ items t.ram = e.applyBounded (capacity b) (items s.ram)

theorem edits_of_setPBT (h : Lasting b s) (p : Word) (reason : Word) :
    Edits b s .keep (setPBT b (started s (some p) reason)).1 := by
  rcases h.setPBT_cases (some p) reason with
    ⟨-, -, hsame, hlasting⟩ | ⟨hunsealed, hkeeps⟩
  · rw [hsame]
    exact ⟨hlasting, rfl⟩
  · have hnil : items s.ram = [] := by
      refine items_of_count_zero (h.sealed_or_empty.resolve_left ?_)
      exact fun hseal => hunsealed ⟨by simp, hseal⟩
    refine ⟨hkeeps.lasting, ?_⟩
    show _ = items s.ram
    by_cases hsurv : Survives b reason
    · exact hkeeps.kept hsurv
    · exact (hkeeps.lost hsurv).trans hnil.symm

theorem edits_of_boot (h : Lasting b s) {u : Device} (hu : BootsFrom s u)
    (hp : u.pBT = none) : BootKeeps b s u (setPBT b u).1 :=
  h.boot (h.finds hu) (setPBT_boot h.booted.fits hp)

/-- The copy is words of the RTC memory that no other user stores to. -/
theorem edits_of_rtcWrite (h : Lasting b s) {j : Nat} {v : Word}
    (hj : j < b.RTC_OFFSET ∨ b.RTC_OFFSET + 13 + maxDepth b ≤ j) :
    Edits b s .keep { s with rtc := Function.update s.rtc j v } := by
  refine ⟨?_, rfl⟩
  exact {
    booted := ⟨h.booted.fits, h.booted.pBT, h.booted.status⟩
    max := h.max
    count_le := h.count_le
    zeroTail := h.zeroTail
    mirrored := fun hr i hi => by
      show Function.update s.rtc j v (b.RTC_OFFSET + i) = _
      rw [Function.update_of_ne (by omega)]
      exact h.mirrored hr i hi
    sealed_or_empty := h.sealed_or_empty }

/-- **Each thing that happens is one edit**, and the log lasts. -/
theorem Happens.edits (h : Happens b s e t) (hs : Lasting b s) :
    Edits b s e t := by
  cases h with
  | crash x h =>
      rename_i c m env r
      obtain ⟨n, hn⟩ := h
      obtain ⟨k, hk⟩ := x.callback b hs.booted.pBT
      have hrecord := hs.crashRecord s.pBT s.resetReason r x.a0 x.pcs
      have hsame := (hn (max n k) (Nat.le_max_left n k)).symm.trans
        (hk (max n k) (Nat.le_max_right n k))
      rw [Option.some.inj hsame]
      exact ⟨hrecord.lasting, hrecord.items⟩
  | callTrace hchain h =>
      rename_i c m captured fs
      obtain ⟨n, hn⟩ := h
      have hdone := hn (max n fs.length) (Nat.le_max_left n _)
      rw [logCallTrace_eq hchain (Nat.le_max_right n _)] at hdone
      rw [← Option.some.inj hdone]
      obtain ⟨hlasting, -, hitems⟩ := hs.finish (0 :: fs.map PcSp.pc)
      exact ⟨hlasting, hitems⟩
  | record r pcs =>
      obtain ⟨hshape, hnil⟩ := hs.begin s.pBT s.resetReason r
      obtain ⟨hlasting, -, hitems⟩ := hshape.finish pcs
      rw [hnil, List.nil_append] at hitems
      exact ⟨hlasting, hitems⟩
  | append pcs hroom =>
      obtain ⟨hshape, hzero⟩ := hs.append hroom
      obtain ⟨hlasting, -, hitems⟩ := hshape.finish pcs
      rw [hzero, List.append_assoc] at hitems
      exact ⟨hlasting, hitems⟩
  | clear => exact hs.clear
  | bootKept hu hp hsurv =>
      have hkeeps := edits_of_boot hs hu hp
      exact ⟨hkeeps.lasting, hkeeps.kept hsurv⟩
  | bootLost hu hp hlost =>
      have hkeeps := edits_of_boot hs hu hp
      exact ⟨hkeeps.lasting, hkeeps.lost hlost⟩
  | setAgain p reason => exact edits_of_setPBT hs p reason
  | watchdog hunwind hreports hsusp h =>
      rename_i c m env tracker bypass p reason frames suspended
      obtain ⟨n, hn⟩ := h
      obtain ⟨hframes, hfinish⟩ := hn (max n suspended.length)
        (Nat.le_max_left n _)
      rw [finish_of_reports hunwind hreports hsusp (Nat.le_max_right n _),
        hframes] at hfinish
      have hrecord := hs.crashRecord p reason wdtInfo 0
        (hwdtPcs env frames suspended)
      have hsame : crashRecord b (started s p reason) wdtInfo 0
          (hwdtPcs env frames suspended) = t := by
        unfold hwdtEnd at hfinish
        split at hfinish
        · exact HwdtEnd.overflow.inj hfinish
        · exact (HwdtEnd.returns.inj hfinish).1
      rw [← hsame]
      exact ⟨hrecord.lasting, hrecord.items⟩
  | rtcWrite j v hj => exact edits_of_rtcWrite hs hj

/-! ## The whole life -/

/-- **What a log shows, at any time of its life**: from a first boot, with
no log in the RTC copy or one that fits, after whatever has happened, it is
the start of the list that a log without a bound would hold; both reports
print that, and `available` and `read` give it. -/
theorem log_lifetime (hf : Fits b) {words rtc : Nat → Word}
    (hcopy : CopyFits b rtc) (status : RtcStatus) {es : List (Edit Word)}
    (h : Lts.Path (Happens b) (firstBoot b words rtc status) es t) :
    let pcs := (Run.run Edit.apply
      (items (firstBoot b words rtc status).ram) es).take (capacity b)
    Lasting b t ∧ available t = pcs.length
      ∧ (∀ sz, read t sz = pcs.take sz)
      ∧ addresses (report b t) = pcs
      ∧ addresses ((backtraceLogReport b t).map Prod.snd) = pcs := by
  intro pcs
  have hfirst : Lasting b (firstBoot b words rtc status) :=
    (lasting_firstBoot hf hcopy status).1
  have hstep : ∀ s t l e, Lasting b s ∧ items s.ram = l → Happens b s e t →
      Lasting b t ∧ items t.ram = e.applyBounded (capacity b) l := by
    rintro s t l e ⟨hs, rfl⟩ hstep
    exact hstep.edits hs
  obtain ⟨hlasting, hbounded⟩ := h.simulates hstep ⟨hfirst, rfl⟩
  have hitems : items t.ram = pcs :=
    hbounded.trans (Edit.run_applyBounded hfirst.length_items_le es)
  have hp := hlasting.booted.pBT
  refine ⟨hlasting, ?_, fun sz => ?_, ?_, ?_⟩
  · rw [available_eq hp, hitems]
  · rw [read_eq hp, hitems]
  · rw [addresses_report b hp, hitems]
  · rw [backtraceLogReport_eq b hp, addresses_reportLines, hitems]

/-- A call trace of a first boot, and a soft watchdog reset after it. -/
def tracedLog : Device :=
  backtraceLogFin minimalBuild (writeAll freshLog [0, 0x40100030])

theorem tracedLog_path : Lts.Path (Happens minimalBuild) freshLog
    [.extend [0, 0x40100030], .keep]
    (setPBT minimalBuild (started tracedLog none 3)).1 := by
  have htrace : Happens minimalBuild freshLog (.extend [0, 0x40100030])
      tracedLog :=
    .callTrace smallMem_callerChain
      ⟨1, fun fuel hfuel => logCallTrace_eq smallMem_callerChain hfuel _⟩
  exact .cons htrace (.cons (.bootKept (bootsFrom_started _ _ _) rfl
    (.inr (by decide))) (.nil _))

theorem log_lifetime_traced :
    addresses (report minimalBuild
      (setPBT minimalBuild (started tracedLog none 3)).1)
      = (Run.run Edit.apply (items freshLog.ram)
        [.extend [0, 0x40100030], .keep]).take (capacity minimalBuild) :=
  (log_lifetime fits_minimalBuild (fun hr => absurd hr (by decide)) ⟨0, 0⟩
    tracedLog_path).2.2.2.1

end BacktraceLog
