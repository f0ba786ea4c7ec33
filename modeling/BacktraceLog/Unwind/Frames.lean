import BacktraceLog.Unwind.Chain

/-!
# Frames of every form

A compiler reserves a large frame by a `MOVI` and a `SUB` or `ADD`, and
reaches a far a0 slot over an `ADDMI`. Calls of functions with such
prologues, in any order with the others, are recovered as exactly as those
with an `ADDI` are.
-/

namespace BacktraceLog

variable {c : CodeMap} {m : Mem} {f g : PcSp} {fs : List PcSp}

/-- The frames `fs`, innermost first, of calls that lead from `g` down to
`f`; `g` is not one of them. -/
inductive CallPath (c : CodeMap) (m : Mem) : PcSp → List PcSp → PcSp → Prop
    where
  | nil (f : PcSp) : CallPath c m f [] f
  | call {f g h : PcSp} {fs : List PcSp} {e N a0 : Nat} :
      FrameStep c m f g e N a0 → e ≠ c.xtosCWrapperHandler.toNat →
      CallPath c m g fs h → CallPath c m f (f :: fs) h

/-- The path from the frame `n` calls up. -/
theorem CallPath.drop {n : Nat} (h : CallPath c m f fs g)
    (hn : n ≤ fs.length) (lr : Word) :
    ∃ f', unwind c m n lr f = some f' ∧ (fs ++ [g])[n]? = some f'
      ∧ CallPath c m f' (fs.drop n) g := by
  induction n generalizing f fs lr with
  | zero =>
      refine ⟨f, rfl, ?_, h⟩
      cases h with
      | nil _ => rfl
      | call _ _ _ => rfl
  | succ n ih =>
      cases h with
      | nil f => exact absurd hn (Nat.not_succ_le_zero n)
      | call hstep he hrest =>
          obtain ⟨f', hf', hget, hpath⟩ :=
            ih hrest (Nat.le_of_succ_le_succ hn) 0
          refine ⟨f', ?_, hget, hpath⟩
          rw [unwind_unwinds (hstep.unwinds he lr)]
          exact hf'

/-- **Frames of every form are recovered exactly**: along a path of calls,
whichever way each function reserves its stack and reaches its a0 slot,
`i` unwinds give the `i`-th frame, whatever the link register. -/
theorem frames_recovered (h : CallPath c m f fs g) (i : Nat)
    (hi : i ≤ fs.length) (lr : Word) :
    unwind c m i lr f = (fs ++ [g])[i]? := by
  obtain ⟨f', hunwind, hget, -⟩ := h.drop hi lr
  rw [hunwind, hget]

/-! ## Another stack -/

/-- The same code with another stack. -/
def Mem.withStack (m : Mem) (stack : Word → Word) : Mem :=
  { m with stack := stack }

theorem FrameAt.withStack {pb size : Nat} (h : FrameAt m pb size)
    (stack : Word → Word) : FrameAt (m.withStack stack) pb size := by
  cases h with
  | addi h1 h2 h3 h4 => exact .addi h1 h2 h3 h4
  | sub h1 h2 h3 h4 h5 => exact .sub h1 h2 h3 h4 h5
  | add h1 h2 h3 h4 h5 => exact .add h1 h2 h3 h4 h5

theorem A0Slot.withStack {pc off a0 : Nat} (h : A0Slot m pc off a0)
    (stack : Word → Word) : A0Slot (m.withStack stack) pc off a0 := by
  cases h with
  | onSp h1 h2 => exact .onSp ⟨h1.hit, h1.base, h1.slot⟩ h2
  | onBase h1 h2 h3 h4 h5 =>
      exact .onBase ⟨h1.hit, h1.base, h1.slot⟩ h2 h3 h4 h5

theorem Quiet.withStack {pc : Word} {p : Nat} (h : Quiet c m pc p)
    (stack : Word → Word) : Quiet c (m.withStack stack) pc p :=
  ⟨h.handler, h.addi, h.movi, h.ret⟩

/-- The code of a call makes the same frame wherever the stack is and
whatever it returns to. -/
theorem FrameStep.withStack {e N a0 : Nat}
    (h : FrameStep c m f g e N a0) {stack : Word → Word} {sp ret : Word}
    (hret : stack (sp + .ofNat 32 a0) = ret)
    (hvalid : xtPcIsValid c ret = true) :
    FrameStep c (m.withStack stack) ⟨f.pc, sp⟩ ⟨ret, sp + .ofNat 32 N⟩ e N
      a0 where
  entry_aligned := h.entry_aligned
  entry_above := h.entry_above
  entry_le := h.entry_le
  frame := h.frame.withStack stack
  store := h.store.withStack stack
  slot := h.slot
  return_valid := hvalid
  return_pc := hret
  return_sp := rfl
  quiet p h1 h2 := (h.quiet p h1 h2).withStack stack

/-! ## A large frame over a small one -/

/-- The `n` bytes behind the entry hold nothing the scan looks twice at. -/
theorem Quiet.of_plain {pc : Word} {e n p : Nat}
    (hhandler : c.xtosCWrapperHandler.toNat ≤ e)
    (hplain : ∀ k, k < n → (isAddi m (e + 1 + k) || isMovi m (e + 1 + k)
      || isRet m (e + 1 + k)) = false)
    (hlo : e < p) (hhi : p < e + 1 + n) : Quiet c m pc p := by
  obtain ⟨k, hk, rfl⟩ : ∃ k, k < n ∧ p = e + 1 + k :=
    ⟨p - (e + 1), by omega, by omega⟩
  have hnone := hplain k hk
  simp only [Bool.or_eq_false_iff] at hnone
  obtain ⟨⟨haddi, hmovi⟩, hret⟩ := hnone
  exact ⟨by omega, fun h => by simp [haddi] at h,
    fun h => by simp [hmovi] at h, fun h => by simp [hret] at h⟩

/-- The function of `smallMem`, called by one that starts with
`movi a9, 144`, `sub a1, a1, a9` and `s32i a0, a1, 140` at `0x40100020`. -/
def largeMem : Mem where
  code a :=
    if a < 0x40100020 then smallMem.code a
    else [0x92, 0xa0, 0x90, 0x90, 0x11, 0xc0, 0x02, 0x61, 0x23].getD
      (a - 0x40100020) 0
  stack a :=
    if a = 0x3ffffe0c then 0x4010002c
    else if a = 0x3ffffe9c then 0x40100030 else 0

/-- The exception wrapper is in front of both. -/
def largeMap : CodeMap := smallMap 0x40100004

theorem largeMem_small : FrameStep largeMap largeMem
    ⟨0x40100015, 0x3ffffe00⟩ ⟨0x4010002c, 0x3ffffe10⟩ 0x40100010 16 12
    where
  entry_aligned := by decide
  entry_above := by decide
  entry_le := by decide
  frame := .addi (by decide) (by decide) (by decide) (by decide)
  store := .onSp (q := 0x40100013) (z := 3)
    ⟨Stride.find?_eq_some_iff.mp (by decide), by decide,
      .inr (by decide)⟩ rfl
  slot := by decide
  return_valid := by decide
  return_pc := by decide
  return_sp := by decide
  quiet p h1 h2 := by
    have h2 : p + 2 ≤ 0x40100015 := h2
    exact .of_plain (n := 3) (by decide) (by decide) h1 (by omega)

theorem largeMem_large : FrameStep largeMap largeMem
    ⟨0x4010002c, 0x3ffffe10⟩ ⟨0x40100030, 0x3ffffea0⟩ 0x40100020 144 140
    where
  entry_aligned := by decide
  entry_above := by decide
  entry_le := by decide
  frame := .sub (by decide) (by decide) (by decide) (by decide)
    (by decide)
  store := .onSp (q := 0x40100026) (z := 35)
    ⟨Stride.find?_eq_some_iff.mp (by decide), by decide,
      .inl ⟨by decide, by decide⟩⟩ rfl
  slot := by decide
  return_valid := by decide
  return_pc := by decide
  return_sp := by decide
  quiet p h1 h2 := by
    have h2 : p + 2 ≤ 0x4010002c := h2
    exact .of_plain (n := 10) (by decide) (by decide) h1 (by omega)

theorem frames_recovered_large :
    unwind largeMap largeMem 2 0 ⟨0x40100015, 0x3ffffe00⟩
      = some ⟨0x40100030, 0x3ffffea0⟩ :=
  frames_recovered
    (.call largeMem_small (by decide) (.call largeMem_large (by decide)
      (.nil _))) 2 (by decide) 0

end BacktraceLog
