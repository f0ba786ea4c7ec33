import BacktraceLog.Crash.Callback
import BacktraceLog.Log.Lasting

/-!
# The crash callback ends

The callback has three loops without a limiter, and follows what it finds
on the stack. On a stack that has a top none of them runs forever: there
is a chain from wherever the trace starts, the first loop stops not far
above the limit, and so the start it leaves is one a chain begins at. The
record that results is the one those chains make.
-/

namespace BacktraceLog

variable {b : Build} {c : CodeMap} {m : Mem} {lr : Word} {f g : PcSp}
  {L : Nat}

/-! ## Chains -/

/-- An unwind without a link register climbs. -/
theorem Unwinds.climbs (hL : L ≤ maxLimit) (hcode : NoCodeFrom c m L)
    (hsp : f.sp.toNat ≤ L + 2047) (h : Unwinds c m 0 f g) :
    f.sp.toNat < L ∧ f.sp.toNat + 4 ≤ g.sp.toNat
      ∧ g.sp.toNat ≤ L + 2047 := by
  obtain ⟨fn, hcall⟩ := h
  exact callee_null_climbs hL hcode hsp (hcall ⟨0, 0, 0⟩)

/-- With one it climbs or stays. -/
theorem Unwinds.sp_le (hL : L ≤ maxLimit) (hcode : NoCodeFrom c m L)
    (hsp : f.sp.toNat ≤ L + 2047) (h : Unwinds c m lr f g) :
    f.sp.toNat ≤ g.sp.toNat ∧ g.sp.toNat ≤ L + 2047 := by
  obtain ⟨fn, hcall⟩ := h
  obtain ⟨hvalid, ⟨heq, -⟩ | ⟨size, a0, h1, h2, h3, h4, h5, h6, h7⟩⟩ :=
    callee_success_sp (hcall ⟨0, 0, 0⟩)
  · have hsame : g.sp = f.sp := heq
    rw [hsame]
    exact ⟨Nat.le_refl _, hsp⟩
  · obtain ⟨-, hup, hle⟩ : f.sp.toNat < L ∧ f.sp.toNat + 4 ≤ g.sp.toNat
        ∧ g.sp.toNat ≤ L + 2047 :=
      released_below hL hcode hsp h1 h2 h3 h4 h5 h6 h7 hvalid
    exact ⟨by omega, hle⟩

/-- Above a limit without code addresses, every chain comes to an end. -/
theorem exists_chain_null (hL : L ≤ maxLimit) (hcode : NoCodeFrom c m L)
    (hsp : f.sp.toNat ≤ L + 2047) :
    ∃ fs, UnwindChain c m 0 f fs ∧ fs.length ≤ wordsBelow L f.sp + 1 := by
  -- by induction on the words below the limit
  obtain ⟨n, hn⟩ : ∃ n, wordsBelow L f.sp ≤ n := ⟨_, Nat.le_refl _⟩
  induction n generalizing f with
  | zero =>
      rcases unwinds_or_stuck c m 0 f with ⟨g, hstep⟩ | hstuck
      · have hlow := (hstep.climbs hL hcode hsp).1
        unfold wordsBelow at hn
        omega
      · exact ⟨[f], .last hstuck, by simp⟩
  | succ n ih =>
      rcases unwinds_or_stuck c m 0 f with ⟨g, hstep⟩ | hstuck
      · obtain ⟨hlow, hup, hle⟩ := hstep.climbs hL hcode hsp
        have hless : wordsBelow L g.sp + 1 ≤ wordsBelow L f.sp := by
          unfold wordsBelow
          omega
        obtain ⟨fs, hchain, hlen⟩ := ih hle (by omega)
        refine ⟨f :: fs, .next hstep hchain, ?_⟩
        rw [List.length_cons]
        omega
      · exact ⟨[f], .last hstuck, by simp⟩

/-- The same with a link register for the first unwind. -/
theorem exists_chain (hL : L ≤ maxLimit) (hcode : NoCodeFrom c m L)
    (hsp : f.sp.toNat ≤ L + 2047) (lr : Word) :
    ∃ fs, UnwindChain c m lr f fs
      ∧ fs.length ≤ wordsBelow L f.sp + 2 := by
  rcases unwinds_or_stuck c m lr f with ⟨g, hstep⟩ | hstuck
  · obtain ⟨hup, hle⟩ := hstep.sp_le hL hcode hsp
    obtain ⟨fs, hchain, hlen⟩ := exists_chain_null hL hcode hle
    have hless : wordsBelow L g.sp ≤ wordsBelow L f.sp := by
      unfold wordsBelow
      omega
    refine ⟨f :: fs, .next hstep hchain, ?_⟩
    rw [List.length_cons]
    omega
  · exact ⟨[f], .last hstuck, by simp⟩

/-! ## Where a call leaves the stack pointer -/

/-- A stop moves the stack pointer by the frame it releases, if it
releases one. -/
theorem Stop.sp_eq {pc sp lr : Word} {off : Nat} {r : Callee}
    (h : Stop c m pc sp lr off r) :
    ∃ size : Nat, size ≤ 2048 ∧ r.sp = sp + .ofNat 32 size := by
  cases h with
  | handler _ => exact ⟨0, by omega, (BitVec.add_zero _).symm⟩
  | frame _ hframe hr =>
      have hsize := hframe.frameSize
      refine ⟨_, ?_, by rw [hr.callee]⟩
      rcases hsize with h | h <;> omega
  | ret _ _ _ _ => exact ⟨0, by omega, (BitVec.add_zero _).symm⟩

/-- A call that fails leaves the stack pointer alone or moves it by at
most a frame. -/
theorem callee_false_sp {pc sp iLr : Word} {o r : Callee}
    (h : xtRetaddrCalleeEx c m pc sp iLr o = (false, r)) (ho : o.sp = sp) :
    ∃ size : Nat, size ≤ 2048 ∧ r.sp = sp + .ofNat 32 size := by
  rcases callee_failure h with ⟨off, hblocked⟩ | rfl
  · obtain ⟨k, hk, -⟩ := hblocked.last
    exact (mem_stops.mp (List.mem_of_getElem? hk.entry)).2.2.sp_eq
  · exact ⟨0, by omega, by
      rw [← ho]
      exact (BitVec.add_zero _).symm⟩

/-- The loop of the callback's first part stops less than two frames above
the limit. -/
theorem unwindLoop_sp_le (hL : L ≤ maxLimit) (hcode : NoCodeFrom c m L)
    {fuel : Nat} {o o' : Callee} {fs : List PcSp}
    (hsp : o.sp.toNat ≤ L + 2047)
    (h : unwindLoop c m fuel 0 o = some (fs, o')) :
    o'.sp.toNat ≤ L + 4095 := by
  induction fuel generalizing o fs with
  | zero => cases h
  | succ fuel ih =>
      obtain ⟨ok, r, hr⟩ : ∃ ok r,
          xtRetaddrCalleeEx c m o.pc o.sp 0 o = (ok, r) := ⟨_, _, rfl⟩
      cases ok with
      | false =>
          rw [unwindLoop_stop hr] at h
          cases h
          obtain ⟨size, hsize, hmove⟩ := callee_false_sp hr rfl
          unfold maxLimit at hL
          rw [hmove, BitVec.toNat_add, BitVec.toNat_ofNat]
          omega
      | true =>
          obtain ⟨-, -, hle⟩ := callee_null_climbs hL hcode hsp hr
          simp only [unwindLoop, hr, if_true] at h
          cases hrest : unwindLoop c m fuel 0 r with
          | none =>
              rw [hrest] at h
              cases h
          | some y =>
              rw [hrest] at h
              cases h
              exact ih hle hrest

/-- What `levelLoop` leaves is either no code address or a frame not far
above the limit. -/
theorem levelLoop_sp_le (hL : L ≤ maxLimit) (hcode : NoCodeFrom c m L)
    {n : Nat} {i o : PcSp} (hi : i.sp.toNat ≤ L + 2047)
    (ho : xtPcIsValid c o.pc = true → o.sp.toNat ≤ L + 2047)
    (hvalid : xtPcIsValid c (levelLoop c m n i o).pc = true) :
    (levelLoop c m n i o).sp.toNat ≤ L + 2047 := by
  induction n generalizing i o with
  | zero => exact ho hvalid
  | succ n ih =>
      rcases unwinds_or_stuck c m 0 i with ⟨g, hstep⟩ | hstuck
      · have hle := (hstep.climbs hL hcode hi).2.2
        rw [levelLoop_unwinds hstep] at hvalid ⊢
        exact ih hle (fun _ => hle) hvalid
      · rw [levelLoop_stuck hstuck] at hvalid ⊢
        by_cases hblocked : ∃ off r, Blocked c m i.pc i.sp 0 off r
        · rw [(xtRetaddrCallee_stuck hstuck o).2.1 hblocked] at hvalid
          cases hvalid
        · rw [(xtRetaddrCallee_stuck hstuck o).2.2 hblocked] at hvalid ⊢
          exact ho hvalid

theorem xtReturnAddressEx_sp_le (hL : L ≤ maxLimit)
    (hcode : NoCodeFrom c m L) {captured : PcSp}
    (hsp : captured.sp.toNat ≤ L + 2047) (oSp : Word) (lvl : Nat) :
    (xtReturnAddressEx c m captured oSp lvl).sp.toNat ≤ L + 2047 := by
  unfold xtReturnAddressEx
  by_cases hvalid : xtPcIsValid c
      (levelLoop c m (lvl + 2) captured ⟨0, oSp⟩).pc = true
  · simp only [hvalid, if_true]
    refine levelLoop_sp_le hL hcode hsp (fun h => ?_) hvalid
    rw [xtPcIsValid_zero] at h
    cases h
  · simp only [hvalid, Bool.false_eq_true, if_false]
    exact Nat.zero_le _

/-! ## Where the trace starts -/

/-- An exception at the ROM's division by zero. -/
def DividesBy0 (r : RstInfo) : Prop :=
  r.epc2 = 0 ∧ r.exccause = 0 ∧ divideBy0Exception = r.epc1

instance (r : RstInfo) : Decidable (DividesBy0 r) :=
  inferInstanceAs (Decidable (_ ∧ _))

/-- `lr` and `pc` of an exception, `a0` being what its frame holds. -/
def faultStart (r : RstInfo) (a0 : Word) : Word × Word :=
  if DividesBy0 r then (0, a0)
  else (a0, if r.epc2 ≠ 0 then r.epc2 else r.epc1)

theorem exceptionStart_eq (s : Device) (r : RstInfo) (a0 : Word) :
    exceptionStart s r a0
      = (if DividesBy0 r then { s with ram := redirectDivideBy0 s.ram a0 }
          else s, faultStart r a0) := by
  unfold exceptionStart faultStart
  by_cases h2 : r.epc2 ≠ 0
  · have hno : ¬ DividesBy0 r := fun h => h2 h.1
    rw [if_pos h2, if_neg hno, if_neg hno, if_pos h2]
  · rw [if_neg h2]
    by_cases h0 : r.exccause = 0 ∧ divideBy0Exception = r.epc1
    · have hyes : DividesBy0 r := ⟨not_not.mp h2, h0⟩
      rw [if_pos h0, if_pos hyes, if_pos hyes]
    · have hno : ¬ DividesBy0 r := fun h => h0 h.2
      rw [if_neg h0, if_neg hno, if_neg hno, if_neg h2]

/-- The first part of the callback without the log: what the exception
frame holds in `a0`, and `lr`, `pc` and `sp` to start with. -/
def crashStart (c : CodeMap) (m : Mem) (env : CrashEnv) (fuel : Nat)
    (rstInfo : RstInfo) : Option (Word × Word × Callee) :=
  if rstInfo.reason < 100 then
    let pcSp := xtReturnAddressEx c m env.captured env.oSp 0
    match unwindLoop c m fuel 0 ⟨pcSp.pc, pcSp.sp, env.fn⟩ with
    | none => none
    | some (_, o) =>
        let a0 := m.stack (o.sp + env.frameA0)
        let (lr, pc) := faultStart rstInfo a0
        if !xtPcIsValid c pc && xtPcIsValid c lr then
          some (a0, 0, ⟨lr, o.sp + 256, o.fn⟩)
        else some (a0, lr, ⟨pc, o.sp + 256, o.fn⟩)
  else
    let pcSp := xtReturnAddressEx c m env.captured env.oSp 3
    some (0, 0, ⟨pcSp.pc, pcSp.sp, env.fn⟩)

/-- The log with a division by zero marked in it. -/
def marked (s : Device) (r : RstInfo) (a0 : Word) : Device :=
  if r.reason < 100 ∧ DividesBy0 r then
    { s with ram := redirectDivideBy0 s.ram a0 }
  else s

/-- The log takes no part in finding the start. -/
theorem userStart_of_crashStart {env : CrashEnv} {fuel : Nat} {r : RstInfo}
    {a0 : Word} {o : Callee}
    (h : crashStart c m env fuel r = some (a0, lr, o)) (s : Device) :
    userStart c m env fuel s r = some (marked s r a0, lr, o) := by
  unfold crashStart at h
  unfold userStart marked
  by_cases hexc : r.reason < 100
  · simp only [if_pos hexc] at h ⊢
    cases hloop : unwindLoop c m fuel 0
        ⟨(xtReturnAddressEx c m env.captured env.oSp 0).pc,
          (xtReturnAddressEx c m env.captured env.oSp 0).sp, env.fn⟩ with
    | none =>
        rw [hloop] at h
        cases h
    | some y =>
        obtain ⟨fs, o'⟩ := y
        rw [hloop] at h
        simp only [exceptionStart_eq] at h ⊢
        simp only [hexc, true_and]
        split at h
        · rename_i hback
          rw [if_pos hback]
          cases h
          rfl
        · rename_i hback
          rw [if_neg hback]
          cases h
          rfl
  · simp only [if_neg hexc] at h ⊢
    cases h
    rw [if_neg fun hd => hexc hd.1]

theorem crashStart_mono {env : CrashEnv} {n k : Nat} {r : RstInfo}
    {x : Word × Word × Callee} (h : crashStart c m env n r = some x)
    (hle : n ≤ k) : crashStart c m env k r = some x := by
  unfold crashStart at h ⊢
  by_cases hexc : r.reason < 100
  · simp only [if_pos hexc] at h ⊢
    cases hloop : unwindLoop c m n 0
        ⟨(xtReturnAddressEx c m env.captured env.oSp 0).pc,
          (xtReturnAddressEx c m env.captured env.oSp 0).sp, env.fn⟩ with
    | none =>
        rw [hloop] at h
        cases h
    | some y =>
        rw [unwindLoop_mono hloop hle]
        rw [hloop] at h
        exact h
  · simp only [if_neg hexc] at h ⊢
    exact h

/-! ## The record -/

/-- What the callback finds on its way: what is in the frame, where the
traces start, and the chains from there. -/
structure CrashTrace (c : CodeMap) (m : Mem) (env : CrashEnv)
    (rstInfo : RstInfo) where
  a0 : Word
  lr : Word
  start : PcSp
  fn : Word
  user : List PcSp
  suspended : List PcSp
  starts : ∃ n, crashStart c m env n rstInfo
    = some (a0, lr, ⟨start.pc, start.sp, fn⟩)
  user_chain : UnwindChain c m lr start user
  suspended_chain : env.pcSuspend ≠ 0 →
    UnwindChain c m 0 (suspendedFrame m env) suspended

/-- The addresses it records. -/
def CrashTrace.pcs {env : CrashEnv} {r : RstInfo}
    (x : CrashTrace c m env r) : List Word :=
  recorded env x.user x.suspended

/-- A record with all the callback does to it. -/
def crashRecord (b : Build) (s : Device) (r : RstInfo) (a0 : Word)
    (pcs : List Word) : Device :=
  backtraceLogFin b
    (writeAll (marked (backtraceLogBegin b s (some r)) r a0) pcs)

/-- **The callback makes the record of what it finds.** -/
theorem CrashTrace.callback {env : CrashEnv} {r : RstInfo}
    (x : CrashTrace c m env r) (b : Build) {s : Device}
    (hp : s.pBT ≠ none) :
    ∃ n, ∀ fuel, n ≤ fuel →
      shareCustomCrashCb b c m env fuel s r
        = some (crashRecord b s r x.a0 x.pcs) := by
  obtain ⟨n, hstart⟩ := x.starts
  refine ⟨n + x.user.length + x.suspended.length, fun fuel hfuel => ?_⟩
  have hfound := userStart_of_crashStart
    (crashStart_mono hstart (show n ≤ fuel by omega))
    (backtraceLogBegin b s (some r))
  rw [shareCustomCrashCb, if_neg hp, hfound]
  exact traceUserSpace_eq env x.user_chain x.suspended_chain
    ⟨by omega, by omega⟩ _ x.fn

/-- The `rst_info` a crash leaves in the log. -/
def storedInfo (r : RstInfo) (a0 : Word) : RstInfo :=
  if r.reason < 100 ∧ DividesBy0 r then { r with exccause := 6, epc1 := a0 }
  else r

theorem rstInfo_redirectDivideBy0 (p : Ram) (a0 : Word) :
    (redirectDivideBy0 p a0).rstInfo
      = { p.rstInfo with exccause := 6, epc1 := a0 } := by
  simp [redirectDivideBy0, Ram.rstInfo]

theorem InShape.marked {s : Device} (h : InShape b s) (r : RstInfo)
    (a0 : Word) :
    InShape b (marked s r a0)
      ∧ (∀ i, i ≠ 6 → i ≠ 7 → (marked s r a0).ram.word i = s.ram.word i)
      ∧ (s.ram.rstInfo = r → (marked s r a0).ram.rstInfo = storedInfo r a0)
    := by
  unfold BacktraceLog.marked storedInfo
  by_cases hd : r.reason < 100 ∧ DividesBy0 r
  · have hword : ∀ i, i ≠ 6 → i ≠ 7 →
        (redirectDivideBy0 s.ram a0).word i = s.ram.word i :=
      fun i h6 h7 => by
        rw [redirectDivideBy0, WordMem.word_store_ne _ _ h7,
          WordMem.word_store_ne _ _ h6]
    rw [if_pos hd, if_pos hd]
    refine ⟨h.withRam (hword 1 (by omega) (by omega)) ?_ fun i hi =>
      hword i (by omega) (by omega), hword, fun hr => ?_⟩
    · rw [Ram.count, Ram.max, hword 12 (by omega) (by omega),
        hword 1 (by omega) (by omega)]
      exact h.count_le
    · rw [rstInfo_redirectDivideBy0, hr]
  · rw [if_neg hd, if_neg hd]
    exact ⟨h, fun _ _ _ => rfl, id⟩

/-- What a crash record leaves in a log that lasts: the addresses, the
`rst_info` of the crash, one crash more than before. -/
structure HoldsCrash (b : Build) (u t : Device) (r : RstInfo) (a0 : Word)
    (pcs : List Word) : Prop where
  lasting : Lasting b t
  isSealed : Sealed b t.ram
  items : items t.ram = pcs.take (capacity b)
  rstInfo : t.ram.rstInfo = storedInfo r a0
  binCrc : t.ram.binCrc = b.crcVal
  crashCount : t.ram.crashCount = (setPBT b u).1.ram.crashCount + 1

theorem Lasting.crashRecord {s : Device} (h : Lasting b s)
    (p : Option Word) (reason : Word) (r : RstInfo) (a0 : Word)
    (pcs : List Word) :
    HoldsCrash b (started s p reason)
      (crashRecord b (started s p reason) r a0 pcs) r a0 pcs := by
  obtain ⟨hshape, hnil⟩ := h.begin p reason (some r)
  have hset := h.setPBT p reason
  have hbegin := backtraceLogBegin_eq (b := b) (started s p reason) (some r)
  rw [if_neg hset.booted.pBT] at hbegin
  obtain ⟨hmarked, hword, hinfo⟩ := hshape.marked r a0
  obtain ⟨hlasting, hseal, hitems⟩ := hmarked.finish pcs
  have hempty : BacktraceLog.items (BacktraceLog.marked
      (backtraceLogBegin b (started s p reason) (some r)) r a0).ram = [] := by
    rw [← hnil]
    exact items_congr (hword 12 (by omega) (by omega))
      fun i _ => hword (13 + i) (by omega) (by omega)
  -- the writes and `fin` leave the header alone
  have hkept : ∀ i, i ≠ 0 → i ≠ 4 → i < 12 →
      (BacktraceLog.crashRecord b (started s p reason) r a0 pcs).ram.word i
        = (BacktraceLog.marked (backtraceLogBegin b (started s p reason)
          (some r)) r a0).ram.word i := by
    intro i h0 h4 h12
    rw [BacktraceLog.crashRecord,
      backtraceLogFin_eq (writeAll_booted hmarked.booted _),
      writeAll_eq hmarked.booted.pBT]
    show (closeRecord b (writeItems _ _)).word i = _
    rw [word_closeRecord _ h0 h4,
      word_writeItems _ _ (by omega) (.inl (by omega))]
  refine ⟨hlasting, hseal, ?_, ?_, ?_, ?_⟩
  · rw [hempty, List.nil_append] at hitems
    exact hitems
  · rw [← hinfo (by rw [hbegin]; exact rstInfo_openRecord _ _)]
    exact Ram.rstInfo_congr fun i h1 h2 =>
      hkept i (by omega) (by omega) (by omega)
  · rw [BacktraceLog.crashRecord,
      backtraceLogFin_eq (writeAll_booted hmarked.booted _)]
    exact binCrc_closeRecord _
  · rw [Ram.crashCount, hkept 3 (by omega) (by omega) (by omega),
      hword 3 (by omega) (by omega), hbegin]
    exact crashCount_openRecord _ _

/-! ## The callback ends -/

/-- A stack with a top: from the limit on no word is a code address, and
the limit is far enough below the wrap for all that is added to a stack
pointer on the way. -/
structure StackTop (c : CodeMap) (m : Mem) where
  limit : Nat
  room : limit + 4096 ≤ maxLimit
  noCode : NoCodeFrom c m limit

theorem StackTop.noCode_above (top : StackTop c m) {L : Nat}
    (h : top.limit ≤ L) : NoCodeFrom c m L :=
  fun a ha => top.noCode a (Nat.le_trans h ha)

/-- The first part ends, not far above the limit. -/
theorem exists_crashStart (top : StackTop c m) (env : CrashEnv)
    (hsp : env.captured.sp.toNat ≤ top.limit) (r : RstInfo) :
    ∃ n a0 lr o, crashStart c m env n r = some (a0, lr, o)
      ∧ o.sp.toNat ≤ top.limit + 4096 + 2047 := by
  have hroom := top.room
  have hL : top.limit ≤ maxLimit := by omega
  by_cases hexc : r.reason < 100
  · have hret := xtReturnAddressEx_sp_le hL top.noCode
      (show env.captured.sp.toNat ≤ top.limit + 2047 by omega) env.oSp 0
    obtain ⟨n, hfuel⟩ : ∃ n, wordsBelow top.limit
        (xtReturnAddressEx c m env.captured env.oSp 0).sp < n :=
      ⟨_, Nat.lt_succ_self _⟩
    obtain ⟨fs, o, hloop, -, -, -⟩ := unwindLoop_null hL top.noCode
      (o := ⟨(xtReturnAddressEx c m env.captured env.oSp 0).pc,
        (xtReturnAddressEx c m env.captured env.oSp 0).sp, env.fn⟩)
      hret hfuel
    have hle := unwindLoop_sp_le hL top.noCode hret hloop
    have hsum : (o.sp + 256).toNat = o.sp.toNat + 256 := by
      unfold maxLimit at hroom
      rw [BitVec.toNat_add]
      exact Nat.mod_eq_of_lt (show o.sp.toNat + 256 < 2 ^ 32 by omega)
    have hstart : ∃ a0 lr pc, crashStart c m env n r
        = some (a0, lr, ⟨pc, o.sp + 256, o.fn⟩) := by
      unfold crashStart
      simp only [if_pos hexc, hloop]
      split
      · exact ⟨_, _, _, rfl⟩
      · exact ⟨_, _, _, rfl⟩
    obtain ⟨a0, lr, pc, hstart⟩ := hstart
    refine ⟨n, a0, lr, _, hstart, ?_⟩
    show (o.sp + 256).toNat ≤ _
    omega
  · have hret := xtReturnAddressEx_sp_le hL top.noCode
      (show env.captured.sp.toNat ≤ top.limit + 2047 by omega) env.oSp 3
    refine ⟨0, 0, 0, ⟨(xtReturnAddressEx c m env.captured env.oSp 3).pc,
      (xtReturnAddressEx c m env.captured env.oSp 3).sp, env.fn⟩, ?_, ?_⟩
    · unfold crashStart
      rw [if_neg hexc]
    · show (xtReturnAddressEx c m env.captured env.oSp 3).sp.toNat ≤ _
      omega

/-- **There is always a trace** on a stack that has a top. -/
theorem exists_crashTrace (top : StackTop c m) (env : CrashEnv)
    (hsp : env.captured.sp.toNat ≤ top.limit)
    (hsusp : env.pcSuspend ≠ 0 →
      env.spSuspend.toNat + 24 ≤ top.limit) (r : RstInfo) :
    Nonempty (CrashTrace c m env r) := by
  have hroom := top.room
  obtain ⟨n, a0, lr, o, hstart, hle⟩ := exists_crashStart top env hsp r
  obtain ⟨user, huser, -⟩ := exists_chain hroom
    (top.noCode_above (Nat.le_add_right _ _)) (f := ⟨o.pc, o.sp⟩) hle lr
  by_cases hyield : env.pcSuspend ≠ 0
  · have hfit := hsusp hyield
    have hsum : (env.spSuspend + 24).toNat = env.spSuspend.toNat + 24 := by
      unfold maxLimit at hroom
      rw [BitVec.toNat_add]
      exact Nat.mod_eq_of_lt
        (show env.spSuspend.toNat + 24 < 2 ^ 32 by omega)
    obtain ⟨suspended, hchain, -⟩ := exists_chain_null
      (show top.limit ≤ maxLimit by omega) top.noCode
      (f := suspendedFrame m env) (by
        show (env.spSuspend + 24).toNat ≤ _
        omega)
    exact ⟨⟨a0, lr, ⟨o.pc, o.sp⟩, o.fn, user, suspended, ⟨n, hstart⟩, huser,
      fun _ => hchain⟩⟩
  · exact ⟨⟨a0, lr, ⟨o.pc, o.sp⟩, o.fn, user, [], ⟨n, hstart⟩, huser,
      fun h => absurd h hyield⟩⟩

/-- On a log that lasts a trace ends in a record. -/
theorem CrashTrace.exists_record {env : CrashEnv} {r : RstInfo}
    (x : CrashTrace c m env r) (b : Build) {s : Device}
    (hs : Lasting b s) :
    ∃ t, (∃ n, ∀ fuel, n ≤ fuel →
        shareCustomCrashCb b c m env fuel s r = some t)
      ∧ HoldsCrash b s t r x.a0 x.pcs :=
  ⟨_, x.callback b hs.booted.pBT,
    hs.crashRecord s.pBT s.resetReason r x.a0 x.pcs⟩

/-- **The crash callback always ends with a record**: on a stack that has
a top, with any code, any reset and any log that lasts, the callback ends
for all fuel from some amount on, and leaves the log holding the addresses
of a trace as far as there is room. -/
theorem crash_callback_ends (b : Build) (top : StackTop c m)
    (env : CrashEnv) (hsp : env.captured.sp.toNat ≤ top.limit)
    (hsusp : env.pcSuspend ≠ 0 → env.spSuspend.toNat + 24 ≤ top.limit)
    {s : Device} (hs : Lasting b s) (r : RstInfo) :
    ∃ (x : CrashTrace c m env r) (t : Device),
      (∃ n, ∀ fuel, n ≤ fuel →
        shareCustomCrashCb b c m env fuel s r = some t)
      ∧ HoldsCrash b s t r x.a0 x.pcs := by
  obtain ⟨x⟩ := exists_crashTrace top env hsp hsusp r
  exact ⟨x, x.exists_record b hs⟩

/-- The stack of `smallMem` has a top. -/
def smallTop : StackTop (smallMap 0) smallMem where
  limit := 0x3ffffe10
  room := by decide
  noCode := noCodeFrom_smallMem 0

/-- An illegal instruction, while the sketch was yielding. -/
theorem crash_callback_ends_small :
    ∃ (x : CrashTrace (smallMap 0) smallMem yielding
        ⟨2, 0, 0x40100015, 0, 0, 0, 0⟩) (t : Device),
      (∃ n, ∀ fuel, n ≤ fuel →
        shareCustomCrashCb minimalBuild (smallMap 0) smallMem yielding fuel
          freshLog ⟨2, 0, 0x40100015, 0, 0, 0, 0⟩ = some t)
      ∧ HoldsCrash minimalBuild freshLog t ⟨2, 0, 0x40100015, 0, 0, 0, 0⟩
        x.a0 x.pcs :=
  crash_callback_ends minimalBuild smallTop yielding (by decide)
    (fun _ => by decide) lasting_freshLog _

end BacktraceLog
