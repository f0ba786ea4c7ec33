import BacktraceLog.Log.Record
import BacktraceLog.Unwind.Levels
import BacktraceLog.Unwind.Progress

/-!
# The crash callback

`SHARE_CUSTOM_CRASH_CB__DEBUG_ESP_BACKTRACELOG`: a record is begun, the
place to start from is found behind the exception frame, and what the
unwinder comes by is written, first from there and then, where the sketch
was yielding, from the suspended context. The unwinder's outputs are its
next inputs; what the record holds in the end is stated against the chain
of successful unwinds, which knows neither the outputs nor the buffer.

The stack the unwinder reads is taken to lie outside the log buffer and
the callback's own variables.
-/

namespace BacktraceLog

variable {b : Build} {c : CodeMap} {m : Mem}

/-- What the callback reads besides the log, the code and the stack. -/
structure CrashEnv where
  /-- `pc` and `sp` as `xt_return_address_ex` captures them, and what its
  uninitialised `o_sp` holds -/
  captured : PcSp
  oSp : Word
  /-- what the uninitialised `fn` holds -/
  fn : Word
  /-- `offsetof(struct __exception_frame, a0)`, of the core -/
  frameA0 : Word
  /-- `g_pcont->PC_SUSPEND` and `g_pcont->SP_SUSPEND` -/
  pcSuspend : Word
  spSuspend : Word

/-- `divide_by_0_exception` -/
def divideBy0Exception : Word := 0x4000dce5

/-! ## Where the trace starts -/

/-- `pBT->log.rst_info.exccause = 6; pBT->log.rst_info.epc1 = lr;` -/
def redirectDivideBy0 (p : Ram) (lr : Word) : Ram :=
  WordMem.store (WordMem.store p 6 6) 7 lr

/-- Where the exception occurred: the log, `lr` and `pc`. A division by
zero is marked in the log and followed from the caller of the ROM divide
function. -/
def exceptionStart (s : Device) (rstInfo : RstInfo) (lr : Word) :
    Device × Word × Word :=
  if rstInfo.epc2 ≠ 0 then (s, lr, rstInfo.epc2)
  else if rstInfo.exccause = 0 ∧ divideBy0Exception = rstInfo.epc1 then
    ({ s with ram := redirectDivideBy0 s.ram lr }, 0, lr)
  else (s, lr, rstInfo.epc1)

/-- The first part of the callback: the log, and `lr`, `pc` and `sp` to
start with. The loop up to the exception frame needs fuel. -/
def userStart (c : CodeMap) (m : Mem) (env : CrashEnv) (fuel : Nat)
    (s : Device) (rstInfo : RstInfo) : Option (Device × Word × Callee) :=
  if rstInfo.reason < 100 then
    let pcSp := xtReturnAddressEx c m env.captured env.oSp 0
    match unwindLoop c m fuel 0 ⟨pcSp.pc, pcSp.sp, env.fn⟩ with
    | none => none
    | some (_, o) =>
        let (s, lr, pc) :=
          exceptionStart s rstInfo (m.stack (o.sp + env.frameA0))
        -- step back before the exception occurred
        let sp := o.sp + 256
        if !xtPcIsValid c pc && xtPcIsValid c lr then
          some (s, 0, ⟨lr, sp, o.fn⟩)
        else some (s, lr, ⟨pc, sp, o.fn⟩)
  else
    let pcSp := xtReturnAddressEx c m env.captured env.oSp 3
    some (s, 0, ⟨pcSp.pc, pcSp.sp, env.fn⟩)

/-! ## The traces -/

/-- `do { i_pc = pc; i_sp = sp; backtraceLog_write(pc); repeat =
xt_retaddr_callee_ex(i_pc, i_sp, lr, &pc, &sp, &fn); lr = NULL; }
while (repeat);` -/
def traceLoop (c : CodeMap) (m : Mem) :
    Nat → Device → Word → Callee → Option (Device × Callee)
  | 0, _, _, _ => none
  | fuel + 1, s, lr, o =>
      let s := backtraceLogWrite s o.pc
      let r := xtRetaddrCalleeEx c m o.pc o.sp lr o
      if r.1 then traceLoop c m fuel s 0 r.2 else some (s, r.2)

/-- `a0` and `a1` of the suspended context, see `cont_continue` in
`cont.S`. -/
def suspendedFrame (m : Mem) (env : CrashEnv) : PcSp :=
  ⟨m.stack (env.spSuspend + 16), env.spSuspend + 24⟩

/-- The rest of the callback: user space, the suspended context, and the
end of the record. -/
def traceUserSpace (b : Build) (c : CodeMap) (m : Mem) (env : CrashEnv)
    (fuel : Nat) (s : Device) (lr : Word) (o : Callee) : Option Device :=
  match traceLoop c m fuel s lr o with
  | none => none
  | some (s, o) =>
      if env.pcSuspend ≠ 0 then
        -- mark the transition
        let s := backtraceLogWrite s 0
        let f := suspendedFrame m env
        match traceLoop c m fuel s 0 ⟨f.pc, f.sp, o.fn⟩ with
        | none => none
        | some (s, _) => some (backtraceLogFin b s)
      else some (backtraceLogFin b s)

/-- `SHARE_CUSTOM_CRASH_CB__DEBUG_ESP_BACKTRACELOG(rst_info, ..)` -/
def shareCustomCrashCb (b : Build) (c : CodeMap) (m : Mem) (env : CrashEnv)
    (fuel : Nat) (s : Device) (rstInfo : RstInfo) : Option Device :=
  if s.pBT = none then some s
  else
    match userStart c m env fuel (backtraceLogBegin b s (some rstInfo))
        rstInfo with
    | none => none
    | some (s, lr, o) => traceUserSpace b c m env fuel s lr o

/-! ## The chain -/

/-- The frames from `f` on, by successful unwinds up to one from which the
next unwind fails; the link register is for the first one. -/
inductive UnwindChain (c : CodeMap) (m : Mem) :
    Word → PcSp → List PcSp → Prop where
  | last {lr : Word} {f : PcSp} : Stuck c m lr f → UnwindChain c m lr f [f]
  | next {lr : Word} {f g : PcSp} {fs : List PcSp} :
      Unwinds c m lr f g → UnwindChain c m 0 g fs →
      UnwindChain c m lr f (f :: fs)

variable {lr : Word} {f : PcSp} {fs : List PcSp}

theorem UnwindChain.head (h : UnwindChain c m lr f fs) :
    ∃ gs, fs = f :: gs := by
  cases h with
  | last _ => exact ⟨[], rfl⟩
  | next _ _ => exact ⟨_, rfl⟩

/-- Every frame behind the first one was unwound to. -/
theorem UnwindChain.valid (h : UnwindChain c m lr f fs) :
    ∀ g ∈ fs.tail, xtPcIsValid c g.pc = true := by
  induction h with
  | last _ =>
      intro g hg
      cases hg
  | next hstep hrest ih =>
      intro g hg
      obtain ⟨gs, rfl⟩ := hrest.head
      rcases List.mem_cons.mp hg with rfl | hg
      · exact hstep.valid
      · exact ih g hg

/-- What the loop writes is the chain, and nothing else. -/
theorem traceLoop_chain (h : UnwindChain c m lr f fs) {s : Device}
    {fuel : Nat} (hfuel : fs.length ≤ fuel) (fn : Word) :
    ∃ o, traceLoop c m fuel s lr ⟨f.pc, f.sp, fn⟩
      = some (writeAll s (fs.map PcSp.pc), o) := by
  induction h generalizing s fuel fn with
  | last hstuck =>
      rename_i lr f
      obtain ⟨n, rfl⟩ : ∃ n, fuel = n + 1 := ⟨fuel - 1, by
        simp only [List.length_singleton] at hfuel
        omega⟩
      refine ⟨(xtRetaddrCalleeEx c m f.pc f.sp lr ⟨f.pc, f.sp, fn⟩).2, ?_⟩
      simp only [traceLoop, hstuck ⟨f.pc, f.sp, fn⟩, Bool.false_eq_true,
        if_false]
      rfl
  | next hstep _ ih =>
      obtain ⟨fn', hcall⟩ := hstep
      obtain ⟨n, rfl⟩ : ∃ n, fuel = n + 1 := ⟨fuel - 1, by
        simp only [List.length_cons] at hfuel
        omega⟩
      simp only [List.length_cons] at hfuel
      simp only [traceLoop, hcall, if_true]
      exact ih (by omega) fn'

/-! ## The record -/

/-- What is written: the chain of user space, and behind a zero that of
the suspended context, if there is one. -/
def recorded (env : CrashEnv) (user suspended : List PcSp) : List Word :=
  if env.pcSuspend ≠ 0 then
    user.map PcSp.pc ++ 0 :: suspended.map PcSp.pc
  else user.map PcSp.pc

/-- Where both chains end, so does the trace, with all of them written in
order and the record closed. -/
theorem traceUserSpace_eq (env : CrashEnv) {user suspended : List PcSp}
    (huser : UnwindChain c m lr f user)
    (hsusp : env.pcSuspend ≠ 0 →
      UnwindChain c m 0 (suspendedFrame m env) suspended)
    {fuel : Nat} (hfuel : user.length ≤ fuel ∧ suspended.length ≤ fuel)
    (s : Device) (fn : Word) :
    traceUserSpace b c m env fuel s lr ⟨f.pc, f.sp, fn⟩
      = some (backtraceLogFin b
        (writeAll s (recorded env user suspended))) := by
  obtain ⟨o, ho⟩ := traceLoop_chain huser (s := s) hfuel.1 fn
  simp only [traceUserSpace, ho]
  by_cases hyield : env.pcSuspend ≠ 0
  · obtain ⟨o', ho'⟩ := traceLoop_chain (hsusp hyield)
      (s := backtraceLogWrite (writeAll s (user.map PcSp.pc)) 0) hfuel.2 o.fn
    simp only [if_pos hyield, ho', recorded]
    rw [writeAll, writeAll, writeAll, List.foldl_append]
    rfl
  · simp only [if_neg hyield, recorded]

theorem writeAll_booted {s : Device} (hs : Booted b s) (pcs : List Word) :
    Booted b (writeAll s pcs) := by
  rw [writeAll_eq hs.pBT]
  exact ⟨hs.fits, hs.pBT, hs.status⟩

/-- The record after the writes and `backtraceLog_fin`. -/
theorem record_closed {s : Device} (hs : Booted b s)
    (hbegun : s.ram.count = 0) (pcs : List Word) :
    items (backtraceLogFin b (writeAll s pcs)).ram
        = pcs.take s.ram.max.toNat
      ∧ Sealed b (backtraceLogFin b (writeAll s pcs)).ram
      ∧ ∀ i, i ≠ 0 → i ≠ 4 → i ≠ 12 → (i < 13 ∨ 13 + s.ram.max.toNat ≤ i) →
        (backtraceLogFin b (writeAll s pcs)).ram.word i = s.ram.word i := by
  have hwritten := writeAll_booted hs pcs
  have hram : (writeAll s pcs).ram = writeItems s.ram pcs := by
    rw [writeAll_eq hs.pBT]
  have hle : s.ram.count ≤ s.ram.max := by
    rw [hbegun]
    exact Nat.zero_le _
  rw [backtraceLogFin_eq hwritten]
  refine ⟨?_, sealed_closeRecord _, fun i h0 h4 h12 hi => ?_⟩
  · rw [items_closeRecord, hram, items_writeItems hle,
      items_of_count_zero hbegun, List.nil_append]
  · rw [word_closeRecord _ h0 h4, hram, word_writeItems _ _ h12 hi]

/-- **The crash callback records exactly the unwind chain**: from a record
begun, with the chain of user space and, where the sketch was yielding,
that of the suspended context at hand, the trace ends for all fuel from
some amount on; the record then holds the first `max` addresses of the
two, in order and with a zero between them, all of them code but for the
first of each and the zero, the log is sealed, and no word but the stored
entries, `count`, `binCrc` and `chksum` has changed. -/
theorem crash_records_chain (c : CodeMap) (m : Mem) (env : CrashEnv)
    {s : Device} (hs : Booted b s) (hbegun : s.ram.count = 0) (lr : Word)
    (f : PcSp) (fn : Word) {user suspended : List PcSp}
    (huser : UnwindChain c m lr f user)
    (hsusp : env.pcSuspend ≠ 0 →
      UnwindChain c m 0 (suspendedFrame m env) suspended) :
    (∀ g ∈ user.tail, xtPcIsValid c g.pc = true)
      ∧ (env.pcSuspend ≠ 0 →
        ∀ g ∈ suspended.tail, xtPcIsValid c g.pc = true)
      ∧ ∃ s', (∃ n, ∀ fuel, n ≤ fuel →
          traceUserSpace b c m env fuel s lr ⟨f.pc, f.sp, fn⟩ = some s')
        ∧ items s'.ram
          = (recorded env user suspended).take s.ram.max.toNat
        ∧ Sealed b s'.ram
        ∧ ∀ i, i ≠ 0 → i ≠ 4 → i ≠ 12 →
          (i < 13 ∨ 13 + s.ram.max.toNat ≤ i) →
          s'.ram.word i = s.ram.word i := by
  refine ⟨huser.valid, fun hyield => (hsusp hyield).valid, _,
    ⟨user.length + suspended.length, fun fuel hfuel => ?_⟩,
    record_closed hs hbegun (recorded env user suspended)⟩
  exact traceUserSpace_eq env huser hsusp ⟨by omega, by omega⟩ s fn

/-- A crash while the sketch was yielding. -/
def yielding : CrashEnv where
  captured := ⟨0x40100015, 0x3ffffe00⟩
  oSp := 0
  fn := 0
  frameA0 := 0x10
  pcSuspend := 1
  spSuspend := 0x3fff0000

/-- The log of a first boot with a record begun. -/
def begunLog : Device :=
  backtraceLogBegin minimalBuild
    (firstBoot minimalBuild (fun _ => 0) (fun _ => 0) ⟨0, 0⟩) none

theorem begunLog_begun :
    Booted minimalBuild begunLog ∧ begunLog.ram.count = 0 := by
  have h := firstBoot_taken fits_minimalBuild (fun _ => 0) (fun _ => 0) ⟨0, 0⟩
  exact begin_booted (h.booted fits_minimalBuild) none

theorem smallMem_chain : UnwindChain (smallMap 0) smallMem 0
    ⟨0x40100015, 0x3ffffe00⟩
    [⟨0x40100015, 0x3ffffe00⟩, ⟨0x40100030, 0x3ffffe10⟩] := by
  have hcall : xtRetaddrCalleeEx (smallMap 0) smallMem 0x40100015 0x3ffffe00
      0 ⟨0, 0, 0⟩ = (true, ⟨0x40100030, 0x3ffffe10, 0x40100010⟩) := by
    decide
  have hlast : (xtRetaddrCalleeEx (smallMap 0) smallMem 0x40100030
      0x3ffffe10 0 ⟨0, 0, 0⟩).1 = false := by
    decide
  exact .next (unwinds_of_callee (f := ⟨0x40100015, 0x3ffffe00⟩) hcall)
    (.last (stuck_of_callee (f := ⟨0x40100030, 0x3ffffe10⟩) hlast))

theorem suspended_chain : UnwindChain (smallMap 0) smallMem 0
    (suspendedFrame smallMem yielding) [⟨0, 0x3fff0018⟩] := by
  have hlast : (xtRetaddrCalleeEx (smallMap 0) smallMem 0 0x3fff0018 0
      ⟨0, 0, 0⟩).1 = false := by
    decide
  exact .last (stuck_of_callee (f := ⟨0, 0x3fff0018⟩) hlast)

theorem crash_records_chain_small :
    ∃ s', (∃ n, ∀ fuel, n ≤ fuel →
        traceUserSpace minimalBuild (smallMap 0) smallMem yielding fuel
          begunLog 0 ⟨0x40100015, 0x3ffffe00, 0⟩ = some s')
      ∧ items s'.ram
        = (recorded yielding
            [⟨0x40100015, 0x3ffffe00⟩, ⟨0x40100030, 0x3ffffe10⟩]
            [⟨0, 0x3fff0018⟩]).take begunLog.ram.max.toNat
      ∧ Sealed minimalBuild s'.ram := by
  obtain ⟨-, -, s', hends, hitems, hsealed, -⟩ :=
    crash_records_chain (smallMap 0) smallMem yielding begunLog_begun.1
      begunLog_begun.2 0 ⟨0x40100015, 0x3ffffe00⟩ 0 smallMem_chain
      fun _ => suspended_chain
  exact ⟨s', hends, hitems, hsealed⟩

/-! ## The whole callback -/

/-- The device `t` is `s` with at most two words of `rst_info` changed. -/
def Redirected (s t : Device) : Prop :=
  t = s ∨ ∃ lr, t = { s with ram := redirectDivideBy0 s.ram lr }

theorem exceptionStart_redirected (s : Device) (rstInfo : RstInfo)
    (lr : Word) : Redirected s (exceptionStart s rstInfo lr).1 := by
  unfold exceptionStart
  by_cases h2 : rstInfo.epc2 ≠ 0
  · rw [if_pos h2]
    exact .inl rfl
  rw [if_neg h2]
  by_cases h0 : rstInfo.exccause = 0 ∧ divideBy0Exception = rstInfo.epc1
  · rw [if_pos h0]
    exact .inr ⟨lr, rfl⟩
  · rw [if_neg h0]
    exact .inl rfl

theorem userStart_redirected {env : CrashEnv} {fuel : Nat} {s t : Device}
    {rstInfo : RstInfo} {o : Callee}
    (h : userStart c m env fuel s rstInfo = some (t, lr, o)) :
    Redirected s t := by
  unfold userStart at h
  by_cases hexc : rstInfo.reason < 100
  · simp only [if_pos hexc] at h
    split at h
    · cases h
    · rename_i o' _
      have hred := exceptionStart_redirected s rstInfo
        (m.stack (o'.sp + env.frameA0))
      split at h
      · cases h
        exact hred
      · cases h
        exact hred
  · simp only [if_neg hexc] at h
    cases h
    exact .inl rfl

theorem Redirected.word {s t : Device} (h : Redirected s t) {i : Nat}
    (h6 : i ≠ 6) (h7 : i ≠ 7) : t.ram.word i = s.ram.word i := by
  rcases h with rfl | ⟨lr, rfl⟩
  · rfl
  · show (redirectDivideBy0 s.ram lr).word i = _
    rw [redirectDivideBy0, WordMem.word_store_ne _ _ h7,
      WordMem.word_store_ne _ _ h6]

theorem Redirected.booted {s t : Device} (h : Redirected s t)
    (hs : Booted b s) : Booted b t := by
  rcases h with rfl | ⟨lr, rfl⟩
  · exact hs
  · exact ⟨hs.fits, hs.pBT, hs.status⟩

/-- More fuel than the loop needs changes nothing. -/
theorem unwindLoop_mono {n k : Nat} {o : Callee} {x : List PcSp × Callee}
    (h : unwindLoop c m n lr o = some x) (hle : n ≤ k) :
    unwindLoop c m k lr o = some x := by
  induction n generalizing k lr o x with
  | zero => cases h
  | succ n ih =>
      obtain ⟨k, rfl⟩ : ∃ j, k = j + 1 := ⟨k - 1, by omega⟩
      simp only [unwindLoop] at h ⊢
      by_cases hcall : (xtRetaddrCalleeEx c m o.pc o.sp lr o).1 = true
      · rw [if_pos hcall] at h ⊢
        cases hrest : unwindLoop c m n 0 (xtRetaddrCalleeEx c m o.pc o.sp lr
            o).2 with
        | none =>
            rw [hrest] at h
            cases h
        | some y =>
            rw [hrest] at h
            rw [ih hrest (by omega)]
            exact h
      · rw [if_neg hcall] at h ⊢
        exact h

theorem userStart_mono {env : CrashEnv} {n k : Nat} {s : Device}
    {rstInfo : RstInfo} {x : Device × Word × Callee}
    (h : userStart c m env n s rstInfo = some x) (hle : n ≤ k) :
    userStart c m env k s rstInfo = some x := by
  unfold userStart at h ⊢
  by_cases hexc : rstInfo.reason < 100
  · simp only [if_pos hexc] at h ⊢
    split at h
    · cases h
    · rename_i hloop
      rw [unwindLoop_mono hloop hle]
      exact h
  · simp only [if_neg hexc] at h ⊢
    exact h

/-- **The whole callback** on a booted device: wherever its first part
finds a start from which the chains end, it comes to an end with the
record of those chains closed. On a sealed log the capacity is as it was,
and one more crash is counted. -/
theorem crash_callback_record (env : CrashEnv) {s t : Device}
    (hs : Booted b s) (rstInfo : RstInfo) {fuel₀ : Nat} {o : Callee}
    (hstart : userStart c m env fuel₀
      (backtraceLogBegin b s (some rstInfo)) rstInfo = some (t, lr, o))
    {user suspended : List PcSp}
    (huser : UnwindChain c m lr ⟨o.pc, o.sp⟩ user)
    (hsusp : env.pcSuspend ≠ 0 →
      UnwindChain c m 0 (suspendedFrame m env) suspended) :
    ∃ s', (∃ n, ∀ fuel, n ≤ fuel →
        shareCustomCrashCb b c m env fuel s rstInfo = some s')
      ∧ items s'.ram = (recorded env user suspended).take s'.ram.max.toNat
      ∧ Sealed b s'.ram
      ∧ (Sealed b s.ram → s'.ram.max = s.ram.max
        ∧ s'.ram.crashCount = s.ram.crashCount + 1) := by
  obtain ⟨hbegun, hempty⟩ := begin_booted hs (some rstInfo)
  have hred := userStart_redirected hstart
  have hcount : t.ram.count = 0 := by
    rw [Ram.count, hred.word (by omega) (by omega)]
    exact hempty
  have hclosed := record_closed (hred.booted hbegun) hcount
    (recorded env user suspended)
  have hkept : ∀ {i : Nat}, i = 1 ∨ i = 3 →
      (backtraceLogFin b (writeAll t (recorded env user suspended))).ram.word i
        = (backtraceLogBegin b s (some rstInfo)).ram.word i := by
    intro i hi
    rw [hclosed.2.2 i (by omega) (by omega) (by omega) (.inl (by omega)),
      hred.word (by omega) (by omega)]
  have hmax : (backtraceLogFin b
      (writeAll t (recorded env user suspended))).ram.max = t.ram.max :=
    hclosed.2.2 1 (by omega) (by omega) (by omega) (.inl (by omega))
  refine ⟨_, ⟨fuel₀ + user.length + suspended.length, fun fuel hfuel => ?_⟩,
    ?_, hclosed.2.1, fun hsealed => ?_⟩
  · rw [shareCustomCrashCb, if_neg hs.pBT,
      userStart_mono hstart (show fuel₀ ≤ fuel by omega)]
    exact traceUserSpace_eq env huser hsusp ⟨by omega, by omega⟩ t o.fn
  · rw [hmax]
    exact hclosed.1
  · have hbegin := backtraceLogBegin_sealed hs hsealed (some rstInfo)
    rw [hbegin] at hkept
    constructor
    · rw [Ram.max, hkept (.inl rfl), word_openRecord _ _ (by omega)]
    · rw [Ram.crashCount, hkept (.inr rfl)]
      exact crashCount_openRecord _ _

end BacktraceLog
