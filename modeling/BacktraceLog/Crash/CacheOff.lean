import BacktraceLog.Crash.Callback
import BacktraceLog.Log.Session
import BacktraceLog.Unwind.ReadOrder

/-!
# A crash while the flash cache is off

The crash callback over the unwinder that reads through `_idx`, which is
how it is built with `BACKTRACE_IN_IRAM`: an exception may come while the
flash is erased or written, with its cache off. The log it leaves is the
one it would leave with the cache on.
-/

namespace BacktraceLog

namespace ReadOrder

/-- `xt_retaddr_callee(i_pc, i_sp, i_lr, o_pc, o_sp)` -/
def xtRetaddrCallee (c : CodeMap) (stack : Word → Word)
    (iPc iSp iLr : Word) (o : PcSp) : Code (Bool × PcSp) := do
  let r ← xtRetaddrCalleeEx c stack iPc iSp iLr ⟨o.pc, o.sp, 0⟩
  return (r.1, ⟨r.2.pc, r.2.sp⟩)

/-- The loop of `xt_return_address_ex`. -/
def levelLoop (c : CodeMap) (stack : Word → Word) :
    Nat → PcSp → PcSp → Code PcSp
  | 0, _, o => return o
  | lvl + 1, i, o => do
      let r ← xtRetaddrCallee c stack i.pc i.sp 0 o
      if r.1 then levelLoop c stack lvl r.2 r.2 else return r.2

/-- `xt_return_address_ex(lvl)` -/
def xtReturnAddressEx (c : CodeMap) (stack : Word → Word)
    (captured : PcSp) (oSp : Word) (lvl : Nat) : Code PcSp := do
  let o ← levelLoop c stack (lvl + 2) captured ⟨0, oSp⟩
  if xtPcIsValid c o.pc then return o else return ⟨0, 0⟩

/-- The loop up to the exception frame; only what it leaves is used. -/
def unwindLoop (c : CodeMap) (stack : Word → Word) :
    Nat → Word → Callee → Code (Option Callee)
  | 0, _, _ => return none
  | fuel + 1, lr, o => do
      let r ← xtRetaddrCalleeEx c stack o.pc o.sp lr o
      if r.1 then unwindLoop c stack fuel 0 r.2 else return some r.2

/-- The first part of the callback. -/
def userStart (c : CodeMap) (stack : Word → Word) (env : CrashEnv)
    (fuel : Nat) (s : Device) (rstInfo : RstInfo) :
    Code (Option (Device × Word × Callee)) :=
  if rstInfo.reason < 100 then do
    let pcSp ← xtReturnAddressEx c stack env.captured env.oSp 0
    match ← unwindLoop c stack fuel 0 ⟨pcSp.pc, pcSp.sp, env.fn⟩ with
    | none => return none
    | some o =>
        let (s, lr, pc) :=
          exceptionStart s rstInfo (stack (o.sp + env.frameA0))
        let sp := o.sp + 256
        if !xtPcIsValid c pc && xtPcIsValid c lr then
          return some (s, 0, ⟨lr, sp, o.fn⟩)
        else return some (s, lr, ⟨pc, sp, o.fn⟩)
  else do
    let pcSp ← xtReturnAddressEx c stack env.captured env.oSp 3
    return some (s, 0, ⟨pcSp.pc, pcSp.sp, env.fn⟩)

/-- A trace. -/
def traceLoop (c : CodeMap) (stack : Word → Word) :
    Nat → Device → Word → Callee → Code (Option (Device × Callee))
  | 0, _, _, _ => return none
  | fuel + 1, s, lr, o => do
      let s := backtraceLogWrite s o.pc
      let r ← xtRetaddrCalleeEx c stack o.pc o.sp lr o
      if r.1 then traceLoop c stack fuel s 0 r.2 else return some (s, r.2)

/-- The rest of the callback. -/
def traceUserSpace (b : Build) (c : CodeMap) (stack : Word → Word)
    (env : CrashEnv) (fuel : Nat) (s : Device) (lr : Word) (o : Callee) :
    Code (Option Device) := do
  match ← traceLoop c stack fuel s lr o with
  | none => return none
  | some (s, o) =>
      if env.pcSuspend ≠ 0 then
        let s := backtraceLogWrite s 0
        let pc := stack (env.spSuspend + 16)
        let sp := env.spSuspend + 24
        match ← traceLoop c stack fuel s 0 ⟨pc, sp, o.fn⟩ with
        | none => return none
        | some (s, _) => return some (backtraceLogFin b s)
      else return some (backtraceLogFin b s)

/-- `SHARE_CUSTOM_CRASH_CB__DEBUG_ESP_BACKTRACELOG(rst_info, ..)` -/
def shareCustomCrashCb (b : Build) (c : CodeMap) (stack : Word → Word)
    (env : CrashEnv) (fuel : Nat) (s : Device) (rstInfo : RstInfo) :
    Code (Option Device) :=
  if s.pBT = none then return some s
  else do
    match ← userStart c stack env fuel (backtraceLogBegin b s (some rstInfo))
        rstInfo with
    | none => return none
    | some (s, lr, o) => traceUserSpace b c stack env fuel s lr o

end ReadOrder

variable {b : Build} {c : CodeMap} {m : Mem} {P : Nat → Prop}
  {env : CrashEnv} {bus : Bus} {flash : Nat → BitVec 8}

theorem comes_xtRetaddrCallee (h : ∀ pc, Around c P pc) (iPc iSp iLr : Word)
    (o : PcSp) :
    Comes m P (ReadOrder.xtRetaddrCallee c m.stack iPc iSp iLr o)
      (xtRetaddrCallee c m iPc iSp iLr o) :=
  (comes_xtRetaddrCalleeEx (h iPc) iLr _).bind (.pure _)

theorem comes_levelLoop (h : ∀ pc, Around c P pc) (lvl : Nat) (i o : PcSp) :
    Comes m P (ReadOrder.levelLoop c m.stack lvl i o)
      (levelLoop c m lvl i o) := by
  induction lvl generalizing i o with
  | zero => exact .pure o
  | succ lvl ih =>
      refine (comes_xtRetaddrCallee h i.pc i.sp 0 o).bind ?_
      exact .ite (fun _ => ih _ _) fun _ => .pure _

theorem comes_xtReturnAddressEx (h : ∀ pc, Around c P pc) (captured : PcSp)
    (oSp : Word) (lvl : Nat) :
    Comes m P (ReadOrder.xtReturnAddressEx c m.stack captured oSp lvl)
      (xtReturnAddressEx c m captured oSp lvl) := by
  refine (comes_levelLoop h (lvl + 2) captured ⟨0, oSp⟩).bind ?_
  exact .ite (fun _ => .pure _) fun _ => .pure _

/-- What the loop up to the exception frame leaves. -/
theorem unwindLoop_out (fuel : Nat) (lr : Word) (o : Callee) :
    (unwindLoop c m (fuel + 1) lr o).map Prod.snd
      = if (xtRetaddrCalleeEx c m o.pc o.sp lr o).1 then
          (unwindLoop c m fuel 0 (xtRetaddrCalleeEx c m o.pc o.sp lr o).2).map
            Prod.snd
        else some (xtRetaddrCalleeEx c m o.pc o.sp lr o).2 := by
  rw [unwindLoop]
  by_cases hr : (xtRetaddrCalleeEx c m o.pc o.sp lr o).1 = true
  · rw [if_pos hr, if_pos hr]
    cases unwindLoop c m fuel 0 (xtRetaddrCalleeEx c m o.pc o.sp lr o).2 <;>
      rfl
  · rw [if_neg hr, if_neg hr]
    rfl

theorem comes_unwindLoop (h : ∀ pc, Around c P pc) (fuel : Nat) (lr : Word)
    (o : Callee) :
    Comes m P (ReadOrder.unwindLoop c m.stack fuel lr o)
      ((unwindLoop c m fuel lr o).map Prod.snd) := by
  induction fuel generalizing lr o with
  | zero => exact .pure none
  | succ fuel ih =>
      rw [unwindLoop_out]
      refine (comes_xtRetaddrCalleeEx (h o.pc) lr o).bind ?_
      exact .ite (fun _ => ih 0 _) fun _ => .pure _

theorem comes_userStart (h : ∀ pc, Around c P pc) (fuel : Nat) (s : Device)
    (rstInfo : RstInfo) :
    Comes m P (ReadOrder.userStart c m.stack env fuel s rstInfo)
      (userStart c m env fuel s rstInfo) := by
  refine .ite (fun _ => ?_) fun _ => ?_
  · refine (comes_xtReturnAddressEx h env.captured env.oSp 0).bind ?_
    refine (comes_unwindLoop h fuel 0 _).bind ?_
    dsimp only
    cases unwindLoop c m fuel 0
        ⟨(xtReturnAddressEx c m env.captured env.oSp 0).pc,
          (xtReturnAddressEx c m env.captured env.oSp 0).sp, env.fn⟩ with
    | none => exact .pure none
    | some out => exact .ite (fun _ => .pure _) fun _ => .pure _
  · exact (comes_xtReturnAddressEx h env.captured env.oSp 3).bind (.pure _)

theorem comes_traceLoop (h : ∀ pc, Around c P pc) (fuel : Nat) (s : Device)
    (lr : Word) (o : Callee) :
    Comes m P (ReadOrder.traceLoop c m.stack fuel s lr o)
      (traceLoop c m fuel s lr o) := by
  induction fuel generalizing s lr o with
  | zero => exact .pure none
  | succ fuel ih =>
      refine (comes_xtRetaddrCalleeEx (h o.pc) lr o).bind ?_
      exact .ite (fun _ => ih _ 0 _) fun _ => .pure _

theorem comes_traceUserSpace (h : ∀ pc, Around c P pc) (fuel : Nat) (s : Device)
    (lr : Word) (o : Callee) :
    Comes m P (ReadOrder.traceUserSpace b c m.stack env fuel s lr o)
      (traceUserSpace b c m env fuel s lr o) := by
  unfold traceUserSpace
  refine (comes_traceLoop h fuel s lr o).bind ?_
  cases traceLoop c m fuel s lr o with
  | none => exact .pure none
  | some out =>
      refine .ite (fun _ => ?_) fun _ => .pure _
      refine (comes_traceLoop h fuel _ 0 _).bind ?_
      simp only [suspendedFrame]
      cases traceLoop c m fuel (backtraceLogWrite out.1 0) 0
          ⟨m.stack (env.spSuspend + 16), env.spSuspend + 24, out.2.fn⟩ with
      | none => exact .pure none
      | some out' => exact .pure _

theorem comes_shareCustomCrashCb (h : ∀ pc, Around c P pc) (fuel : Nat)
    (s : Device) (rstInfo : RstInfo) :
    Comes m P (ReadOrder.shareCustomCrashCb b c m.stack env fuel s rstInfo)
      (shareCustomCrashCb b c m env fuel s rstInfo) := by
  unfold shareCustomCrashCb
  refine .ite (fun _ => .pure _) fun _ => ?_
  refine (comes_userStart h fuel _ rstInfo).bind ?_
  cases userStart c m env fuel (backtraceLogBegin b s (some rstInfo))
      rstInfo with
  | none => exact .pure none
  | some out => exact comes_traceUserSpace h fuel _ _ _

/-- **The cache may be off**: with `BACKTRACE_IN_IRAM` the crash callback
does to the log what it does over plain bytes, whatever `_idx` was called
for before and however the flash cache is switched between its reads. -/
theorem crash_in_iram_eq_plain (b : Build) (hc : c.Mapped)
    (hf : ShowsFlash bus flash) (hm : m.OnBus bus) (env : CrashEnv)
    (fuel : Nat) (s : Device) (rstInfo : RstInfo)
    (earlier : List (Bool × Word)) (cacheReadEn : Nat → Bool) :
    ((ReadOrder.shareCustomCrashCb b c m.stack env fuel s rstInfo).run
        (iramReader bus cacheReadEn) (idxCalls bus earlier, 0)).1
      = shareCustomCrashCb b c m env fuel s rstInfo :=
  (inIram_of_comes (comes_shareCustomCrashCb (around_nearCode c) fuel s
    rstInfo) hc hf hm (kept_idxCalls bus earlier) cacheReadEn).1

/-- The function in flash interrupted, with the exception frame at the
bottom of the address space. -/
def interruptedMem : Mem :=
  { flashMem with stack := fun a => if a = 0x10c then 0x40200150 else 0 }

/-- Every other read finds the cache off. -/
theorem crash_in_iram_eq_plain_interrupted :
    ((ReadOrder.shareCustomCrashCb minimalBuild flashMap
        interruptedMem.stack ⟨⟨0, 0⟩, 0, 0, 0, 0, 0⟩ 3 freshLog
        ⟨2, 0, 0x40200105, 0, 0, 0, 0⟩).run
          (iramReader (flashBus smallFlash) fun n => n % 2 = 0)
          (idxCalls (flashBus smallFlash) [(false, 0x40200123)], 0)).1.map
        (fun t => items t.ram)
      = some [0x40200105, 0x40200150] := by
  rw [crash_in_iram_eq_plain (m := interruptedMem) minimalBuild
    mapped_flashMap (showsFlash_flashBus smallFlash) onBus_flashMem]
  decide

/-- **Wild addresses on the stack are not read as code**: whatever the
stack, the code and the reset information are, every byte of code the
callback reads is one of the code in IRAM, ROM or flash, or at most 31
behind its end. -/
theorem crash_reads_near_code (b : Build) (c : CodeMap) (m : Mem)
    (env : CrashEnv) (fuel : Nat) (s : Device) (rstInfo : RstInfo) :
    ∀ a ∈ (ReadOrder.shareCustomCrashCb b c m.stack env fuel s
      rstInfo).reads m.code, NearCode c a :=
  (comes_shareCustomCrashCb (around_nearCode c) fuel s rstInfo).reads

theorem crash_reads_near_code_interrupted : NearCode flashMap 0x40200103 :=
  crash_reads_near_code minimalBuild flashMap interruptedMem
    ⟨⟨0, 0⟩, 0, 0, 0, 0, 0⟩ 3 freshLog ⟨2, 0, 0x40200105, 0, 0, 0, 0⟩ _
    (by decide)

end BacktraceLog
