import BacktraceLog.Lib.Walk
import BacktraceLog.Log.Buffer

/-!
# Reading code

The memory `backtrace.cpp` looks at: code read byte by byte (`_idx`) and
the stack read word by word; where code is valid (`prev_text_size`), and
the three forward walks over instructions: the a0 store, the `ADDMI` that
sets its base register, and the check that a path leads back to `pc`.

Code addresses are natural numbers. All addresses read lie at most 36
bytes past a valid `pc`, and code ends well below the end of the address
space, so no address computed here wraps. Stack addresses are words and
do wrap.
-/

namespace BacktraceLog

/-- What the linker and the build options fix. -/
structure CodeMap where
  /-- `&_text_start` and `&_text_end`, around the code in IRAM -/
  textStart : Word
  textEnd : Word
  /-- `&_flash_code_end` -/
  flashCodeEnd : Word
  /-- `_xtos_c_wrapper_handler` -/
  xtosCWrapperHandler : Word
  /-- `BACKTRACE_MAX_RETRY`, 3 unless defined -/
  maxRetry : Nat
  /-- `BACKTRACE_MAX_LOOKBACK`, 1024 unless defined -/
  maxLookback : Nat
  retry_pos : 0 < maxRetry
  text_room : textEnd.toNat + 64 ≤ 2 ^ 32
  flash_room : flashCodeEnd.toNat + 64 ≤ 2 ^ 32

/-- Code bytes by address, and the word `*(uint32_t *)a` for each `a`. -/
structure Mem where
  code : Nat → BitVec 8
  stack : Word → Word

/-! ## Valid code addresses -/

/-- `FLASH_BASE` -/
def flashBase : Word := 0x40200000

/-- `ROM_BASE` -/
def romBase : Word := 0x40000000

/-- `ROM_CODE_END` -/
def romCodeEnd : Word := 0x4000e328

/-- `IS_ROM_CODE(a)` -/
def isRomCode (a : Word) : Bool := romBase ≤ a && a < romCodeEnd

/-- `prev_text_size(pc)`: how far back from `pc` there is code. -/
def prevTextSize (c : CodeMap) (pc : Word) : Nat :=
  if c.textStart < pc ∧ pc < c.textEnd then (pc - c.textStart).toNat
  else if isRomCode pc then (pc - romBase).toNat
  else if flashBase < pc ∧ pc < c.flashCodeEnd then (pc - flashBase).toNat
  else 0

/-- `xt_pc_is_valid(pc)` -/
def xtPcIsValid (c : CodeMap) (pc : Word) : Bool := prevTextSize c pc ≠ 0

theorem prevTextSize_le (c : CodeMap) (pc : Word) :
    prevTextSize c pc ≤ pc.toNat := by
  have hsub : ∀ base : Word, base ≤ pc → (pc - base).toNat ≤ pc.toNat := by
    intro base h
    rw [BitVec.toNat_sub_of_le h]
    omega
  unfold prevTextSize
  split
  · rename_i h
    exact hsub _ (Nat.le_of_lt h.1)
  · split
    · rename_i h
      simp only [isRomCode, Bool.and_eq_true, decide_eq_true_eq] at h
      exact hsub _ h.1
    · split
      · rename_i h
        exact hsub _ (Nat.le_of_lt h.1)
      · exact Nat.zero_le _

/-- NULL is not code. -/
theorem xtPcIsValid_zero (c : CodeMap) : xtPcIsValid c 0 = false := by
  have h : prevTextSize c 0 = 0 := by
    rw [prevTextSize, if_neg fun h => absurd h.1 (Nat.not_lt_zero _),
      if_neg (by decide), if_neg fun h => absurd h.1 (Nat.not_lt_zero _)]
  rw [xtPcIsValid, h]
  rfl

/-! ## Instructions -/

/-- `idx(p, b)` -/
abbrev idx (m : Mem) (p b : Nat) : BitVec 8 := m.code (p + b)

/-- `sidx(p, b)` -/
abbrev sidx (m : Mem) (p b : Nat) : Int := (idx m p b).toInt

/-- Both instruction sizes lead on. -/
theorem lt_add_size (p : Nat) (narrow : Prop) [Decidable narrow] :
    p < if narrow then p + 2 else p + 3 := by
  split
  · omega
  · omega

/-- The linear decode: two bytes if bit `0x08` of the first is set, else
three. -/
def decode (m : Mem) : Stride where
  next p := if idx m p 0 &&& 0x08 ≠ 0 then p + 2 else p + 3
  lt_next p := lt_add_size p _

/-- `02 6x zz   s32i a0, ax, n` -/
def isS32i (m : Mem) (p : Nat) : Bool :=
  idx m p 0 = 0x02 && idx m p 1 &&& 0xF0 = 0x60

/-- `09 zx   s32i.n a0, ax, n` -/
def isS32iN (m : Mem) (p : Nat) : Bool := idx m p 0 = 0x09

/-- `y2 d1 xx   addmi ay, a1, (xx * 256)` -/
def isAddmi (m : Mem) (ax : BitVec 8) (p : Nat) : Bool :=
  idx m p 0 = 0x02 ||| (ax <<< 4) && idx m p 1 = 0xd1

/-- `find_addim_ax_a1(pc, off, ax)` -/
def findAddimAxA1 (m : Mem) (pc off : Nat) (ax : BitVec 8) : Int :=
  if ax = 1 then 0
  else match (decode m).find? (isAddmi m ax) (pc - off) pc with
    | some p0 => sidx m p0 2 * 256
    | none => -1

/-- The body of the loop of `find_s32i_a0_a1` at a store found at `p0`:
base register and offset in the two encodings. -/
def a0StoreOffset (m : Mem) (start p0 : Nat) : Int :=
  let ax := idx m p0 1 &&& 0x0F
  let a0Off := findAddimAxA1 m p0 (p0 - start) ax
  if isS32i m p0 then
    if 0 ≤ a0Off then a0Off + 4 * (idx m p0 2).toNat else a0Off
  else
    if 0 ≤ a0Off then a0Off + 4 * (idx m p0 1 >>> 4).toNat else a0Off

/-- `find_s32i_a0_a1(pc, off)` -/
def findS32iA0A1 (m : Mem) (pc off : Nat) : Int :=
  match (decode m).find? (fun p => isS32i m p || isS32iN m p)
      (pc - off) pc with
  | some p0 => a0StoreOffset m (pc - off) p0
  | none => -1

/-- `verify_path_ret_to_pc(pc, off)` -/
def verifyPathRetToPc (m : Mem) (pc off : Nat) : Bool :=
  (decode m).land (pc - off) pc = pc

/-- An a0 slot is a word slot: a negative result is the failure. -/
theorem findS32iA0A1_dvd (m : Mem) (pc off : Nat) :
    findS32iA0A1 m pc off < 0 ∨ 4 ∣ findS32iA0A1 m pc off := by
  have hbase : ∀ p o ax, findAddimAxA1 m p o ax < 0
      ∨ 4 ∣ findAddimAxA1 m p o ax := by
    intro p o ax
    unfold findAddimAxA1
    by_cases h1 : ax = 1
    · rw [if_pos h1]
      exact .inr (by omega)
    · rw [if_neg h1]
      split
      · exact .inr (by omega)
      · exact .inl (by omega)
  unfold findS32iA0A1
  split
  · rename_i p0 _
    have h := hbase p0 (p0 - (pc - off)) (idx m p0 1 &&& 0x0F)
    simp only [a0StoreOffset]
    split <;> split <;> omega
  · exact .inl (by omega)

end BacktraceLog
