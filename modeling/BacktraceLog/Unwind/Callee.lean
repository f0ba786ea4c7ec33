import BacktraceLog.Unwind.Code

/-!
# One unwind

`xt_retaddr_callee_ex`. Its inner loop goes back from `pc` a byte at a
time to the first place that looks like a frame being set up, a return,
or the exception wrapper (a stop, with the candidate it yields); its outer
loop goes on behind a stop whose candidate is no code address, for a
number of retries.
-/

namespace BacktraceLog

/-- The three outputs, and the candidates for them. -/
structure Callee where
  pc : Word
  sp : Word
  fn : Word
deriving DecidableEq, Repr

/-! ## The searches behind a `MOVI` -/

/-- The stride of the three searches, which test bit `0x80`. -/
def subDecode (m : Mem) : Stride where
  next p := if idx m p 0 &&& 0x80 ≠ 0 then p + 2 else p + 3
  lt_next p := lt_add_size p _

/-- `r0 11 c0   SUB a1, a1, r`, for the register of the `MOVI` at `pb` -/
def isSub (m : Mem) (pb psub : Nat) : Bool :=
  idx m psub 0 &&& 0x0F = 0x00 && idx m psub 1 = 0x11
    && idx m psub 2 = 0xc0 && idx m pb 0 &&& 0xF0 = idx m psub 0 &&& 0xF0

/-- `rA 11   ADD.n a1, a1, r` -/
def isAddN (m : Mem) (pb psub : Nat) : Bool :=
  idx m psub 1 = 0x11 && idx m psub 0 &&& 0x0F = 0x0A
    && idx m pb 0 &&& 0xF0 = idx m psub 0 &&& 0xF0

/-- `r0 11 80   ADD a1, a1, r` -/
def isAdd (m : Mem) (pb psub : Nat) : Bool :=
  idx m psub 0 &&& 0x0F = 0x00 && idx m psub 1 = 0x11
    && idx m psub 2 = 0x80 && idx m pb 0 &&& 0xF0 = idx m psub 0 &&& 0xF0

/-- One of the searches: 32 bytes from the `MOVI` on. -/
def foundWithin32 (m : Mem) (test : Nat → Bool) (pb : Nat) : Bool :=
  ((subDecode m).find? test (pb + 3) (pb + 32)).isSome

/-! ## A stop of the inner loop -/

/-- `12 c1 xx   ADDI a1, a1, -128..127` -/
def isAddi (m : Mem) (pb : Nat) : Bool :=
  idx m pb 0 = 0x12 && idx m pb 1 = 0xc1

/-- `r2 Ax yz   MOVI r, -2048..2047` -/
def isMovi (m : Mem) (pb : Nat) : Bool :=
  idx m pb 0 &&& 0x0F = 0x02 && idx m pb 1 &&& 0xF0 = 0xa0

/-- The twelve bits of a `MOVI`, sign extended from bit 11. -/
def moviImm (m : Mem) (pb : Nat) : Int :=
  ((idx m pb 1).setWidth 4 ++ idx m pb 2).toInt

/-- `0d f0   RET.N` or `80 00 00   RET` -/
def isRet (m : Mem) (pb : Nat) : Bool :=
  idx m pb 0 = 0x0d && idx m pb 1 = 0xf0
    || idx m pb 0 = 0x80 && idx m pb 1 = 0x00 && idx m pb 2 = 0x00

/-- What `ADDI`, `SUB` and `ADD` have in common: a frame of `size` bytes is
released if the a0 slot is in it. -/
def releaseFrame (m : Mem) (pc sp : Word) (off : Nat) (size : Int) :
    Option Callee :=
  let a0Offset := findS32iA0A1 m pc.toNat off
  if a0Offset < 0 then none
  else if size ≤ a0Offset then none
  else some
    { pc := m.stack (sp + .ofInt 32 a0Offset)
      sp := sp + .ofInt 32 size
      -- function entry points are aligned 4
      fn := (pc - .ofNat 32 off) &&& ~~~3 }

/-- The body of the inner loop at `pb = pc - off`: the values it breaks
with, or `none` where it continues. -/
def stopAt (c : CodeMap) (m : Mem) (pc sp lr : Word) (off : Nat) :
    Option Callee :=
  let pb := pc.toNat - off
  -- stepping over the exception frame is left to the caller
  if pb = c.xtosCWrapperHandler.toNat then
    some ⟨0, sp, .ofNat 32 pb⟩
  else if isAddi m pb then
    let stkSize := sidx m pb 2
    if 0 ≤ stkSize ∨ stkSize % 16 ≠ 0 then none
    else releaseFrame m pc sp off (-stkSize)
  else if isMovi m pb then
    let stkSize := moviImm m pb
    if stkSize < -2048 ∨ 2048 ≤ stkSize ∨ stkSize = 0 ∨ stkSize % 4 ≠ 0 then
      none
    else if 0 < stkSize then
      if foundWithin32 m (isSub m pb) pb then
        releaseFrame m pc sp off stkSize
      else none
    else if foundWithin32 m (isAddN m pb) pb
        || foundWithin32 m (isAdd m pb) pb then
      releaseFrame m pc sp off (-stkSize)
    else none
  else if isRet m pb then
    if !verifyPathRetToPc m pc.toNat off then none
    else if off ≤ 8 ∨ c.maxLookback < off then some ⟨lr, sp, 0⟩
    else none
  else none

/-! ## The loops -/

/-- The inner loop: the distance of the next stop, if there is one. -/
def scanBack (c : CodeMap) (m : Mem) (pc sp lr : Word) (off : Nat) :
    Option Nat :=
  Stride.one.find? (fun off => (stopAt c m pc sp lr off).isSome) off
    (prevTextSize c pc)

/-- The outer loop, with the retries left, `off`, and the values of `pc`,
`sp` and `fn`; it ends with `off` and these. -/
def retryLoop (c : CodeMap) (m : Mem) (iPc iSp lr : Word) :
    Nat → Nat → Callee → Nat × Callee
  | 0, off, r => (off, r)
  | retries + 1, off, r =>
      if off < prevTextSize c iPc ∧ r.pc ≠ 0 then
        match scanBack c m iPc iSp lr off with
        | none => (prevTextSize c iPc, ⟨iPc, iSp, 0⟩)
        | some off' =>
            -- every retry starts over from `i_pc` and `i_sp`
            let r' := (stopAt c m iPc iSp lr off').getD ⟨iPc, iSp, 0⟩
            if xtPcIsValid c r'.pc then (off', r')
            else retryLoop c m iPc iSp lr retries (off' + 1) r'
      else (off, r)

/-- `xt_retaddr_callee_ex(i_pc, i_sp, i_lr, o_pc, o_sp, o_fn)`, with what
the outputs hold on entry. -/
def xtRetaddrCalleeEx (c : CodeMap) (m : Mem) (iPc iSp iLr : Word)
    (o : Callee) : Bool × Callee :=
  -- an `lr` that is no code address counts as none
  let lr := if xtPcIsValid c iLr then iLr else 0
  let (off, r) := retryLoop c m iPc iSp lr c.maxRetry 2 ⟨iPc, iSp, 0⟩
  if off < prevTextSize c iPc then (xtPcIsValid c r.pc, r)
  else (false, { o with fn := 0 })

/-! ## What a stop is -/

section

variable {c : CodeMap} {m : Mem} {pc sp lr : Word} {off : Nat} {r : Callee}

/-- A released frame: its size, and the slot in it that holds the return
address. -/
structure Released (m : Mem) (pc sp : Word) (off size a0 : Nat)
    (r : Callee) : Prop where
  slot : findS32iA0A1 m pc.toNat off = a0
  inside : a0 < size
  aligned : 4 ∣ a0
  callee : r = ⟨m.stack (sp + .ofNat 32 a0), sp + .ofNat 32 size,
    (pc - .ofNat 32 off) &&& ~~~3⟩

theorem releaseFrame_eq_some_iff {size : Nat} :
    releaseFrame m pc sp off size = some r
      ↔ ∃ a0, Released m pc sp off size a0 r := by
  have hdvd := findS32iA0A1_dvd m pc.toNat off
  unfold releaseFrame
  by_cases hneg : findS32iA0A1 m pc.toNat off < 0
  · rw [if_pos hneg]
    constructor
    · intro h
      cases h
    · rintro ⟨a0, h⟩
      have := h.slot
      omega
  · obtain ⟨a0, ha⟩ := Int.eq_ofNat_of_zero_le (Int.not_lt.mp hneg)
    rw [if_neg hneg, ha]
    by_cases hle : (size : Int) ≤ (a0 : Int)
    · rw [if_pos hle]
      constructor
      · intro h
        cases h
      · rintro ⟨a0', h⟩
        have h1 := h.slot
        have h2 := h.inside
        omega
    · rw [if_neg hle, BitVec.ofInt_natCast, BitVec.ofInt_natCast]
      constructor
      · intro h
        exact ⟨a0, ha, by omega, by omega, (Option.some.inj h).symm⟩
      · rintro ⟨a0', h⟩
        have h1 := h.slot
        obtain rfl : a0 = a0' := by omega
        exact congrArg some h.callee.symm

/-! ## What the loops find -/

/-- A distance at which the inner loop breaks, the nearest from `off`. -/
def NextStop (c : CodeMap) (m : Mem) (pc sp lr : Word) (off off' : Nat)
    (r : Callee) : Prop :=
  scanBack c m pc sp lr off = some off' ∧ stopAt c m pc sp lr off' = some r

theorem scanBack_some {off' : Nat}
    (h : scanBack c m pc sp lr off = some off') :
    off ≤ off' ∧ off' < prevTextSize c pc
      ∧ ∃ r, stopAt c m pc sp lr off' = some r := by
  have hit := Stride.find?_eq_some_iff.mp h
  exact ⟨hit.visits.le, hit.lt_stop, Option.isSome_iff_exists.mp hit.test_eq⟩

/-- The link register as `xt_retaddr_callee_ex` uses it. -/
def usableLr (c : CodeMap) (iLr : Word) : Word :=
  if xtPcIsValid c iLr then iLr else 0

@[simp] theorem usableLr_zero (c : CodeMap) : usableLr c 0 = 0 := by
  unfold usableLr
  split <;> rfl

theorem xtRetaddrCalleeEx_eq (iLr : Word) (o : Callee) :
    xtRetaddrCalleeEx c m pc sp iLr o
      = if (retryLoop c m pc sp (usableLr c iLr) c.maxRetry 2
            ⟨pc, sp, 0⟩).1 < prevTextSize c pc then
          (xtPcIsValid c (retryLoop c m pc sp (usableLr c iLr) c.maxRetry 2
            ⟨pc, sp, 0⟩).2.pc,
            (retryLoop c m pc sp (usableLr c iLr) c.maxRetry 2
              ⟨pc, sp, 0⟩).2)
        else (false, { o with fn := 0 }) := rfl

theorem ne_zero_of_text (c : CodeMap) {pc : Word}
    (h : 0 < prevTextSize c pc) : pc ≠ 0 := by
  rintro rfl
  have hle := prevTextSize_le c 0
  have h0 : (0 : Word).toNat = 0 := rfl
  omega

end

end BacktraceLog
