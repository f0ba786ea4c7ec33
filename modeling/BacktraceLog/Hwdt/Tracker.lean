import Mathlib.Algebra.GroupWithZero.Nat
import BacktraceLog.Lib.Run
import BacktraceLog.Lib.Shadow
import BacktraceLog.Log.Buffer

/-!
# The call tracker

`HwdtLastCall.cpp` keeps the `pc` and `sp` of the calls in progress, for
use after a hardware watchdog reset. Two functions do it, called on every
function entry and exit, and neither of them turns interrupts off: their
loads and stores are single steps here, and an interrupt may come before
any of them, with function entries and exits of its own.
-/

namespace BacktraceLog

open Shadow

/-- `stack_sz` -/
def stackSz : Nat := 48

/-- `struct LastPCPS` -/
structure LastPCPS where
  pc : Word
  sp : Word
deriving DecidableEq, Repr

/-- `struct StackLastPCPS` -/
structure StackLastPCPS where
  level : Word
  /-- `last[stack_sz]`, and the memory after it -/
  last : Nat → LastPCPS

/-- `hwdt_last_call` zeroed; it is `after` the array that memory keeps. -/
def StackLastPCPS.zeroed (after : Nat → LastPCPS) : StackLastPCPS where
  level := 0
  last i := if i < stackSz then ⟨0, 0⟩ else after i

/-! ## The loggers, access by access -/

/-- `hwdt_last_call.last[level].pc = pc;` -/
def StackLastPCPS.storePc (t : StackLastPCPS) (level pc : Word) :
    StackLastPCPS :=
  { t with
    last := Function.update t.last level.toNat
      { t.last level.toNat with pc := pc } }

/-- `hwdt_last_call.last[level].sp = sp;` -/
def StackLastPCPS.storeSp (t : StackLastPCPS) (level sp : Word) :
    StackLastPCPS :=
  { t with
    last := Function.update t.last level.toNat
      { t.last level.toNat with sp := sp } }

/-- What a context does next. In a logger that is its next access to
`hwdt_last_call`, with the `level` it has in a register. -/
inductive Stage where
  /-- code of its own, no logger -/
  | body
  /-- `hwdt_profile_func_enter(pc, sp)`: load `level` -/
  | enterLoad (call : LastPCPS)
  /-- store `level + 1` -/
  | enterLevel (call : LastPCPS) (level : Word)
  /-- store `pc` -/
  | enterPc (call : LastPCPS) (level : Word)
  /-- store `sp` -/
  | enterSp (call : LastPCPS) (level : Word)
  /-- `__cyg_profile_func_exit()`: load `level` -/
  | exitLoad (call : LastPCPS)
  /-- store `level - 1` -/
  | exitLevel (call : LastPCPS) (level : Word)
deriving DecidableEq, Repr

/-- The sketch or an interrupt handler: its open calls, innermost first,
the one its logger is at left out. -/
structure Context where
  calls : List LastPCPS
  stage : Stage
deriving DecidableEq, Repr

/-- The tracker and all that uses it, the interrupted contexts from the
last one on. -/
structure Cpu where
  hwdtLastCall : StackLastPCPS
  running : Context
  interrupted : List Context

inductive CpuEvent where
  /-- a function is entered -/
  | call (pc sp : Word)
  /-- the innermost function is left -/
  | ret
  /-- the logger makes its next access -/
  | access
  | interrupt
  /-- an interrupt handler is done -/
  | resume
deriving DecidableEq, Repr

namespace Cpu

def call (m : Cpu) (pc sp : Word) : Cpu :=
  match m.running.stage with
  | .body => { m with running := ⟨m.running.calls, .enterLoad ⟨pc, sp⟩⟩ }
  | _ => m

def ret (m : Cpu) : Cpu :=
  match m.running.stage, m.running.calls with
  | .body, call :: calls => { m with running := ⟨calls, .exitLoad call⟩ }
  | _, _ => m

def access (m : Cpu) : Cpu :=
  let t := m.hwdtLastCall
  let calls := m.running.calls
  match m.running.stage with
  | .body => m
  | .enterLoad call =>
      { m with running := ⟨calls, .enterLevel call t.level⟩ }
  | .enterLevel call level =>
      { m with
        hwdtLastCall := { t with level := level + 1 }
        running :=
          if level.toInt < stackSz ∧ 0 ≤ level.toInt then
            ⟨calls, .enterPc call level⟩
          else ⟨call :: calls, .body⟩ }
  | .enterPc call level =>
      { m with
        hwdtLastCall := t.storePc level call.pc
        running := ⟨calls, .enterSp call level⟩ }
  | .enterSp call level =>
      { m with
        hwdtLastCall := t.storeSp level call.sp
        running := ⟨call :: calls, .body⟩ }
  | .exitLoad call =>
      { m with running := ⟨calls, .exitLevel call t.level⟩ }
  | .exitLevel _ level =>
      { m with
        hwdtLastCall := { t with level := level - 1 }
        running := ⟨calls, .body⟩ }

def interrupt (m : Cpu) : Cpu :=
  { m with
    running := ⟨[], .body⟩
    interrupted := m.running :: m.interrupted }

/-- A handler has left all its calls when it is done. -/
def resume (m : Cpu) : Cpu :=
  match m.running.stage, m.running.calls, m.interrupted with
  | .body, [], c :: cs => { m with running := c, interrupted := cs }
  | _, _, _ => m

/-- What comes at a wrong time does nothing: every list of events has a
run, and the runs are those of well-nested calls and interrupts. -/
def step (m : Cpu) : CpuEvent → Cpu
  | .call pc sp => m.call pc sp
  | .ret => m.ret
  | .access => m.access
  | .interrupt => m.interrupt
  | .resume => m.resume

/-- No call, no interrupt, the tracker zeroed. -/
def start (after : Nat → LastPCPS) : Cpu where
  hwdtLastCall := .zeroed after
  running := ⟨[], .body⟩
  interrupted := []

def contexts (m : Cpu) : List Context := m.running :: m.interrupted

/-- The open calls, outermost first. -/
def openCalls (m : Cpu) : List LastPCPS :=
  (m.contexts.flatMap Context.calls).reverse

/-- No logger call is in progress. -/
def Quiet (m : Cpu) : Prop := ∀ c ∈ m.contexts, c.stage = .body

end Cpu

/-- The call a logger is at counts. -/
def Context.depth (c : Context) : Nat :=
  c.calls.length + if c.stage = .body then 0 else 1

/-- How deep the calls go in all contexts together. -/
def Cpu.depth (m : Cpu) : Nat := (m.contexts.map Context.depth).sum

/-! ## The invariant -/

/-- What a logger under way has made of its entry, if it has one. -/
def Stage.entry : Stage → List (LastPCPS → Prop)
  | .body | .enterLoad _ | .enterLevel _ _ => []
  | .enterPc _ _ => [fun _ => True]
  | .enterSp call _ => [fun x => x.pc = call.pc]
  | .exitLoad call | .exitLevel call _ => [fun x => x = call]

/-- The level in a register is that of the call, with `n` entries below
it. -/
def Stage.Loaded (n : Nat) : Stage → Prop
  | .enterLevel _ level | .enterPc _ level | .enterSp _ level =>
      level.toNat = n
  | .exitLevel _ level => level.toNat = n + 1
  | .body | .enterLoad _ | .exitLoad _ => True

/-- The entries of calls with no logger at them. -/
def complete (calls : List LastPCPS) : List (LastPCPS → Prop) :=
  calls.map fun call x => x = call

/-- The entries of all contexts, innermost first. -/
def entries : List Context → List (LastPCPS → Prop)
  | [] => []
  | c :: cs => c.stage.entry ++ (complete c.calls ++ entries cs)

/-- A level loaded stays that of the call whatever interrupts it. -/
def Loaded : List Context → Prop
  | [] => True
  | c :: cs =>
      c.stage.Loaded (complete c.calls ++ entries cs).length ∧ Loaded cs

/-- The tracker follows the calls. -/
structure Tracks (m : Cpu) : Prop where
  level : m.hwdtLastCall.level.toNat = (entries m.contexts).length
  last : Shadows stackSz m.hwdtLastCall.last (entries m.contexts)
  loaded : Loaded m.contexts
  bound : m.depth < 2 ^ 31

variable {m : Cpu}

theorem tracks_start (after : Nat → LastPCPS) : Tracks (Cpu.start after) where
  level := rfl
  last := trivial
  loaded := ⟨trivial, trivial⟩
  bound := by
    show (0 : Nat) < 2 ^ 31
    decide

theorem length_entries_le (cs : List Context) :
    (entries cs).length ≤ (cs.map Context.depth).sum := by
  induction cs with
  | nil => exact Nat.le_refl _
  | cons c cs ih =>
      have hentry : c.stage.entry.length
          ≤ if c.stage = .body then 0 else 1 := by
        cases c.stage <;> simp [Stage.entry]
      simp only [entries, complete, List.length_append, List.length_map,
        List.map_cons, List.sum_cons, Context.depth]
      omega

/-- A logger's entry is one the depth counts, made or not. -/
theorem Tracks.below_lt (h : Tracks m) (hbusy : m.running.stage ≠ .body) :
    (complete m.running.calls ++ entries m.interrupted).length + 1
      < 2 ^ 31 := by
  have hbound := h.bound
  have hle := length_entries_le m.interrupted
  simp only [Cpu.depth, Cpu.contexts, List.map_cons, List.sum_cons,
    Context.depth, if_neg hbusy] at hbound
  simp only [complete, List.length_append, List.length_map]
  omega

/-- The level counts up to the depth, and is never negative. -/
theorem Tracks.level_toInt (h : Tracks m) :
    m.hwdtLastCall.level.toInt = (entries m.contexts).length
      ∧ (entries m.contexts).length ≤ m.depth := by
  have hle : (entries m.contexts).length ≤ m.depth := length_entries_le _
  have hlevel := h.level
  have hbound := h.bound
  refine ⟨?_, hle⟩
  rw [BitVec.toInt_eq_toNat_of_lt (by omega), hlevel]

/-! ## Steps -/

theorem tracks_call (h : Tracks m) {pc sp : Word}
    (hbound : (m.call pc sp).depth < 2 ^ 31) : Tracks (m.call pc sp) := by
  obtain ⟨t, ⟨calls, stage⟩, cs⟩ := m
  cases stage with
  | body => exact ⟨h.level, h.last, ⟨trivial, h.loaded.2⟩, hbound⟩
  | _ => exact h

theorem tracks_ret (h : Tracks m) (hbound : m.ret.depth < 2 ^ 31) :
    Tracks m.ret := by
  obtain ⟨t, ⟨calls, stage⟩, cs⟩ := m
  cases stage with
  | body =>
      cases calls with
      | nil => exact h
      | cons call calls =>
          exact ⟨h.level, h.last, ⟨trivial, h.loaded.2⟩, hbound⟩
  | _ => exact h

theorem tracks_interrupt (h : Tracks m)
    (hbound : m.interrupt.depth < 2 ^ 31) : Tracks m.interrupt :=
  ⟨h.level, h.last, ⟨trivial, h.loaded⟩, hbound⟩

theorem tracks_resume (h : Tracks m) (hbound : m.resume.depth < 2 ^ 31) :
    Tracks m.resume := by
  obtain ⟨t, ⟨calls, stage⟩, cs⟩ := m
  cases stage with
  | body =>
      cases calls with
      | nil =>
          cases cs with
          | nil => exact h
          | cons c cs => exact ⟨h.level, h.last, h.loaded.2, hbound⟩
      | cons call calls => exact h
  | _ => exact h

/-- A level in range counts without wrapping. -/
theorem toNat_level_succ {level : Word} (h : level.toNat + 1 < 2 ^ 31) :
    (level + 1).toNat = level.toNat + 1 := by
  rw [BitVec.toNat_add]
  exact Nat.mod_eq_of_lt (show level.toNat + 1 < 2 ^ 32 by omega)

theorem toNat_level_pred {level : Word} {n : Nat}
    (h : level.toNat = n + 1) : (level - 1).toNat = n := by
  have hone : (1 : Word) ≤ level := by
    rw [BitVec.le_def, h]
    exact Nat.le_add_left _ _
  rw [BitVec.toNat_sub_of_le hone, h]
  rfl

section

variable {t : StackLastPCPS} {level : Word} {xs : List (LastPCPS → Prop)}

/-- The first of the two stores of an entry: its `pc` is known. -/
theorem shadows_storePc (h : Shadows stackSz t.last xs)
    (hn : level.toNat = xs.length) (pc : Word) :
    Shadows stackSz (t.storePc level pc).last
      ((fun x => x.pc = pc) :: xs) := by
  have hstored := h.store (Q := fun x => x.pc = pc)
    (v := { t.last level.toNat with pc := pc }) fun _ => rfl
  rw [← hn] at hstored
  exact hstored

/-- The second one: the `pc` is there still, and the entry complete. -/
theorem shadows_storeSp {call : LastPCPS}
    (h : Shadows stackSz t.last ((fun x => x.pc = call.pc) :: xs))
    (hn : level.toNat = xs.length) :
    Shadows stackSz (t.storeSp level call.sp).last
      ((fun x => x = call) :: xs) := by
  have hstored := h.2.store (Q := fun x => x = call)
    (v := { t.last level.toNat with sp := call.sp }) fun hcap => by
      have hpc : (t.last level.toNat).pc = call.pc := by
        rw [hn]
        exact h.1 hcap
      exact congrArg (LastPCPS.mk · call.sp) hpc
  rw [← hn] at hstored
  exact hstored

end

/-- The accesses one by one: a level loaded is that of the call still when
it is stored, plus or minus one, and when it is an index. -/
theorem tracks_access (h : Tracks m) (hbound : m.access.depth < 2 ^ 31) :
    Tracks m.access := by
  have hlt := h.below_lt
  obtain ⟨t, ⟨calls, stage⟩, cs⟩ := m
  have hlevel := h.level
  have hlast := h.last
  have hloaded := h.loaded.1
  cases stage with
  | body => exact h
  | enterLoad call =>
      exact ⟨hlevel, hlast, ⟨hlevel, h.loaded.2⟩, hbound⟩
  | enterLevel call level =>
      have hn : level.toNat = (complete calls ++ entries cs).length := hloaded
      have hlt : level.toNat + 1 < 2 ^ 31 := by
        rw [hn]
        exact hlt (by simp)
      have hsucc : (level + 1).toNat
          = (complete calls ++ entries cs).length + 1 := by
        rw [toNat_level_succ hlt, hn]
      by_cases hroom : level.toInt < stackSz ∧ 0 ≤ level.toInt
      · simp only [Cpu.access, if_pos hroom]
        exact ⟨hsucc, hlast.reserve, ⟨hn, h.loaded.2⟩, h.bound⟩
      · -- no room for the entry: the call is counted only
        have hfull : stackSz ≤ (complete calls ++ entries cs).length := by
          rw [BitVec.toInt_eq_toNat_of_lt (by omega)] at hroom
          omega
        simp only [Cpu.access, if_neg hroom]
        exact ⟨hsucc, hlast.overflow hfull _, ⟨trivial, h.loaded.2⟩, h.bound⟩
  | enterPc call level =>
      have hstored := shadows_storePc hlast.2 hloaded call.pc
      exact ⟨hlevel, hstored, ⟨hloaded, h.loaded.2⟩, hbound⟩
  | enterSp call level =>
      have hstored := shadows_storeSp hlast hloaded
      exact ⟨hlevel, hstored, ⟨trivial, h.loaded.2⟩, hbound⟩
  | exitLoad call =>
      exact ⟨hlevel, hlast, ⟨hlevel, h.loaded.2⟩, hbound⟩
  | exitLevel call level =>
      have hpred := toNat_level_pred hloaded
      exact ⟨hpred, hlast.2, ⟨trivial, h.loaded.2⟩, hbound⟩

theorem tracks_step {e : CpuEvent} (h : Tracks m)
    (hbound : (m.step e).depth < 2 ^ 31) : Tracks (m.step e) := by
  cases e with
  | call pc sp => exact tracks_call h hbound
  | ret => exact tracks_ret h hbound
  | access => exact tracks_access h hbound
  | interrupt => exact tracks_interrupt h hbound
  | resume => exact tracks_resume h hbound

/-- In every run from a zeroed tracker. -/
theorem tracks_along {after : Nat → LastPCPS} {es : List CpuEvent}
    (hdepth : Run.Along Cpu.step (fun m => m.depth < 2 ^ 31)
      (Cpu.start after) es) :
    Run.Along Cpu.step Tracks (Cpu.start after) es :=
  hdepth.invariant (fun _ _ h hbound => tracks_step h hbound)
    (tracks_start after)

/-! ## Where no logger is at work -/

/-- With no logger at work the entries are the open calls. -/
theorem entries_of_quiet {cs : List Context}
    (hq : ∀ c ∈ cs, c.stage = .body) :
    entries cs = complete (cs.flatMap Context.calls) := by
  induction cs with
  | nil => rfl
  | cons c cs ih =>
      rw [List.forall_mem_cons] at hq
      rw [entries, ih hq.2, hq.1, List.flatMap_cons]
      exact List.map_append.symm

/-- The tracker holds these calls, the outermost first, as far as its array
goes. -/
def HoldsCalls (t : StackLastPCPS) (calls : List LastPCPS) : Prop :=
  t.level.toInt = calls.length
    ∧ ∀ (i : Nat) (hi : i < calls.length), i < stackSz → t.last i = calls[i]

theorem Tracks.holds (h : Tracks m) (hq : m.Quiet) :
    HoldsCalls m.hwdtLastCall m.openCalls := by
  have hentries : entries m.contexts
      = complete (m.contexts.flatMap Context.calls) := entries_of_quiet hq
  have hlength : (entries m.contexts).length = m.openCalls.length := by
    rw [hentries, complete, List.length_map, Cpu.openCalls,
      List.length_reverse]
  refine ⟨?_, fun i hi hcap => ?_⟩
  · rw [h.level_toInt.1, hlength]
  · have hlast := h.last
    rw [hentries] at hlast
    refine hlast.get hcap (P := fun x => x = m.openCalls[i]) ?_
    rw [complete, ← List.map_reverse, List.getElem?_map]
    exact congrArg (Option.map _) (List.getElem?_eq_getElem hi)

/-- **The tracker is correct under interrupts**: in every run of calls and
returns, with interrupts before any access of the loggers and handlers that
call and are interrupted in their turn, as long as the depth can be
counted, the level is the number of open calls wherever no logger is at
work, and the array holds the `pc` and `sp` of the outermost of them. -/
theorem tracker_holds_calls {after : Nat → LastPCPS} {es : List CpuEvent}
    (hdepth : Run.Along Cpu.step (fun m => m.depth < 2 ^ 31)
      (Cpu.start after) es) :
    Run.Along Cpu.step
      (fun m => m.Quiet → HoldsCalls m.hwdtLastCall m.openCalls)
      (Cpu.start after) es :=
  (tracks_along hdepth).mono fun _ h => h.holds

/-- A call, with an interrupt after its logger has loaded the level; the
handler makes a call and returns from it. -/
def interruptedCall : List CpuEvent :=
  [.call 0x40201000 0x3fffff00, .access, .interrupt,
    .call 0x40100800 0x3ffffe80, .access, .access, .access, .access,
    .ret, .access, .access, .resume, .access, .access, .access]

theorem tracker_holds_calls_interruptedCall :
    Run.Along Cpu.step
      (fun m => m.Quiet → HoldsCalls m.hwdtLastCall m.openCalls)
      (Cpu.start fun _ => ⟨0, 0⟩) interruptedCall :=
  tracker_holds_calls (by decide)

end BacktraceLog
