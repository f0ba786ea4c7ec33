import BacktraceLog.Lib.Reading
import BacktraceLog.Unwind.CachedRead
import BacktraceLog.Unwind.Chain

/-!
# The unwinder read by read

`backtrace.cpp` once more, with every call of `_idx` in the order and under
the conditions of the source: the second test of an `&&` is not read where
the first one fails. With `BACKTRACE_IN_IRAM` each call also moves the
statics of `_idx`, and the flash cache may be switched between any two of
them. What the unwinder returns is the same as over plain bytes.
-/

namespace BacktraceLog

/-- A computation that reads code. -/
abbrev Code := Reading Nat (BitVec 8)

namespace ReadOrder

/-- `idx(p, b)` -/
def idx (p b : Nat) : Code (BitVec 8) := .get (p + b)

/-- `sidx(p, b)` -/
def sidx (p b : Nat) : Code Int := do return (← idx p b).toInt

/-- `idx(p, b) == v` -/
def idxIs (p b : Nat) (v : BitVec 8) : Code Bool := (idx p b).test (· = v)

/-- `(idx(p, b) & mask) == v` -/
def maskIs (p b : Nat) (mask v : BitVec 8) : Code Bool :=
  (idx p b).test (· &&& mask = v)

/-- `p = (idx(p, 0) & bit) ? &p[2] : &p[3]` -/
def next (bit : BitVec 8) (p : Nat) : Code Nat := do
  return if (← idx p 0) &&& bit ≠ 0 then p + 2 else p + 3

/-! ## The forward walks -/

/-- `y2 d1 xx   addmi ay, a1, (xx * 256)` -/
def isAddmi (ax : BitVec 8) (p : Nat) : Code Bool :=
  ((idx p 0).test (· = 0x02 ||| (ax <<< 4))).and (idxIs p 1 0xd1)

/-- `find_addim_ax_a1(pc, off, ax)` -/
def findAddimAxA1 (pc off : Nat) (ax : BitVec 8) : Code Int :=
  if ax = 1 then return 0
  else do
    let found ← Reading.scan (next 0x08) (fun p0 => do
        if ← isAddmi ax p0 then return some ((← sidx p0 2) * 256)
        else return none) (pc - off) pc
    return found.getD (-1)

/-- `02 6x zz   s32i a0, ax, n` -/
def isS32i (p : Nat) : Code Bool :=
  (idxIs p 0 0x02).and (maskIs p 1 0xF0 0x60)

/-- `09 zx   s32i.n a0, ax, n` -/
def isS32iN (p : Nat) : Code Bool := idxIs p 0 0x09

/-- The loop of `find_s32i_a0_a1` at a store, whose offset is got from its
encoding by `disp`. -/
def storeOffset (start p0 : Nat) (disp : Code Nat) : Code Int := do
  let ax := (← idx p0 1) &&& 0x0F
  let a0Off ← findAddimAxA1 p0 (p0 - start) ax
  if 0 ≤ a0Off then return a0Off + 4 * (← disp) else return a0Off

/-- `find_s32i_a0_a1(pc, off)` -/
def findS32iA0A1 (pc off : Nat) : Code Int := do
  let found ← Reading.scan (next 0x08) (fun p0 => do
      if ← isS32i p0 then
        return some (← storeOffset (pc - off) p0
          do return (← idx p0 2).toNat)
      else if ← isS32iN p0 then
        return some (← storeOffset (pc - off) p0
          do return ((← idx p0 1) >>> 4).toNat)
      else return none) (pc - off) pc
  return found.getD (-1)

/-- `verify_path_ret_to_pc(pc, off)` -/
def verifyPathRetToPc (pc off : Nat) : Code Bool := do
  return (← Reading.walk (next 0x08) (pc - off) pc) = pc

/-! ## A stop of the inner loop -/

/-- `(idx(pb, 0) & 0xF0) == (idx(psub, 0) & 0xF0)` -/
def sameReg (pb psub : Nat) : Code Bool := do
  let x ← idx pb 0
  (idx psub 0).test fun y => x &&& 0xF0 = y &&& 0xF0

/-- `r0 11 op`, an operation on `a1` with the register of the `MOVI` -/
def isOp (op : BitVec 8) (pb psub : Nat) : Code Bool :=
  (((maskIs psub 0 0x0F 0x00).and (idxIs psub 1 0x11)).and
    (idxIs psub 2 op)).and (sameReg pb psub)

/-- `r0 11 c0   SUB a1, a1, r` -/
def isSub (pb psub : Nat) : Code Bool := isOp 0xc0 pb psub

/-- `rA 11   ADD.n a1, a1, r` -/
def isAddN (pb psub : Nat) : Code Bool :=
  ((idxIs psub 1 0x11).and (maskIs psub 0 0x0F 0x0A)).and (sameReg pb psub)

/-- `r0 11 80   ADD a1, a1, r` -/
def isAdd (pb psub : Nat) : Code Bool := isOp 0x80 pb psub

/-- One of the searches: 32 bytes from the `MOVI` on. -/
def foundWithin32 (found : Nat → Code Bool) (pb : Nat) : Code Bool := do
  let hit ← Reading.scan (next 0x80) (fun psub => do
      if ← found psub then return some () else return none)
    (pb + 3) (pb + 32)
  return hit.isSome

/-- `12 c1 xx   ADDI a1, a1, -128..127` -/
def isAddi (pb : Nat) : Code Bool := (idxIs pb 0 0x12).and (idxIs pb 1 0xc1)

/-- `r2 Ax yz   MOVI r, -2048..2047` -/
def isMovi (pb : Nat) : Code Bool :=
  (maskIs pb 0 0x0F 0x02).and (maskIs pb 1 0xF0 0xa0)

/-- The twelve bits of a `MOVI`, sign extended from bit 11. -/
def moviImm (pb : Nat) : Code Int := do
  let high ← idx pb 1
  let low ← idx pb 2
  return (high.setWidth 4 ++ low).toInt

/-- `0d f0   RET.N` or `80 00 00   RET` -/
def isRet (pb : Nat) : Code Bool :=
  ((idxIs pb 0 0x0d).and (idxIs pb 1 0xf0)).or
    (((idxIs pb 0 0x80).and (idxIs pb 1 0x00)).and (idxIs pb 2 0x00))

/-- A frame of `size` bytes is released if the a0 slot is in it. -/
def releaseFrame (stack : Word → Word) (pc sp : Word) (off : Nat)
    (size : Int) : Code (Option Callee) := do
  let a0Offset ← findS32iA0A1 pc.toNat off
  if a0Offset < 0 then return none
  else if size ≤ a0Offset then return none
  else return some ⟨stack (sp + .ofInt 32 a0Offset), sp + .ofInt 32 size,
    (pc - .ofNat 32 off) &&& ~~~3⟩

/-- The body of the inner loop at `pb = pc - off`. -/
def stopAt (c : CodeMap) (stack : Word → Word) (pc sp lr : Word)
    (off : Nat) : Code (Option Callee) := do
  let pb := pc.toNat - off
  if pb = c.xtosCWrapperHandler.toNat then
    return some ⟨0, sp, .ofNat 32 pb⟩
  else if ← isAddi pb then
    let stkSize ← sidx pb 2
    if 0 ≤ stkSize ∨ stkSize % 16 ≠ 0 then return none
    else releaseFrame stack pc sp off (-stkSize)
  else if ← isMovi pb then
    let stkSize ← moviImm pb
    if stkSize < -2048 ∨ 2048 ≤ stkSize ∨ stkSize = 0 ∨ stkSize % 4 ≠ 0 then
      return none
    else if 0 < stkSize then
      if ← foundWithin32 (isSub pb) pb then
        releaseFrame stack pc sp off stkSize
      else return none
    else if ← (foundWithin32 (isAddN pb) pb).or
        (foundWithin32 (isAdd pb) pb) then
      releaseFrame stack pc sp off (-stkSize)
    else return none
  else if ← isRet pb then
    if !(← verifyPathRetToPc pc.toNat off) then return none
    else if off ≤ 8 ∨ c.maxLookback < off then return some ⟨lr, sp, 0⟩
    else return none
  else return none

/-! ## The loops -/

/-- The inner loop: where it breaks, and the values it breaks with. -/
def scanBack (c : CodeMap) (stack : Word → Word) (pc sp lr : Word)
    (off : Nat) : Code (Option (Nat × Callee)) :=
  Reading.scan (fun off => return off + 1) (fun off => do
      return (← stopAt c stack pc sp lr off).map fun r => (off, r))
    off (prevTextSize c pc)

/-- The outer loop, with the retries left. -/
def retryLoop (c : CodeMap) (stack : Word → Word) (iPc iSp lr : Word) :
    Nat → Nat → Callee → Code (Nat × Callee)
  | 0, off, r => return (off, r)
  | retries + 1, off, r =>
      if off < prevTextSize c iPc ∧ r.pc ≠ 0 then do
        match ← scanBack c stack iPc iSp lr off with
        | none => return (prevTextSize c iPc, ⟨iPc, iSp, 0⟩)
        | some (off', r') =>
            if xtPcIsValid c r'.pc then return (off', r')
            else retryLoop c stack iPc iSp lr retries (off' + 1) r'
      else return (off, r)

/-- `xt_retaddr_callee_ex(i_pc, i_sp, i_lr, o_pc, o_sp, o_fn)` -/
def xtRetaddrCalleeEx (c : CodeMap) (stack : Word → Word)
    (iPc iSp iLr : Word) (o : Callee) : Code (Bool × Callee) := do
  let lr := if xtPcIsValid c iLr then iLr else 0
  let (off, r) ← retryLoop c stack iPc iSp lr c.maxRetry 2 ⟨iPc, iSp, 0⟩
  if off < prevTextSize c iPc then return (xtPcIsValid c r.pc, r)
  else return (false, { o with fn := 0 })

end ReadOrder

/-! ## The plain unwinder -/

variable {c : CodeMap} {m : Mem} {P : Nat → Prop} {p b : Nat}

/-- The computation comes to `a` over the code, by reads in `P`. -/
abbrev Comes {α : Type} (m : Mem) (P : Nat → Prop) (f : Code α) (a : α) :
    Prop := Reading.Gives m.code P f a

/-- The bytes of an instruction at `p` may be read. -/
structure Instr (P : Nat → Prop) (p : Nat) : Prop where
  first : P (p + 0)
  second : P (p + 1)
  third : P (p + 2)

/-- Instructions anywhere from `lo` to below `hi` may be read. -/
def Open (P : Nat → Prop) (lo hi : Nat) : Prop :=
  ∀ p, lo ≤ p → p < hi → Instr P p

theorem comes_idx (h : P (p + b)) :
    Comes m P (ReadOrder.idx p b) (idx m p b) := .get h

theorem comes_idxIs (h : P (p + b)) (v : BitVec 8) :
    Comes m P (ReadOrder.idxIs p b v) (idx m p b = v) :=
  (comes_idx h).test _

theorem comes_maskIs (h : P (p + b)) (mask v : BitVec 8) :
    Comes m P (ReadOrder.maskIs p b mask v) (idx m p b &&& mask = v) :=
  (comes_idx h).test _

theorem comes_sidx (h : P (p + b)) :
    Comes m P (ReadOrder.sidx p b) (sidx m p b) :=
  (comes_idx h).bind (.pure _)

theorem comes_decode (h : Instr P p) :
    Comes m P (ReadOrder.next 0x08 p) ((decode m).next p) :=
  (comes_idx h.first).bind (.pure _)

theorem comes_subDecode (h : Instr P p) :
    Comes m P (ReadOrder.next 0x80 p) ((subDecode m).next p) :=
  (comes_idx h.first).bind (.pure _)

/-! ### The forward walks -/

/-- A search over instructions comes to what it computes at the first
hit. -/
theorem comes_search {start stop : Nat} {hit : Nat → Bool} {out : Nat → Int}
    {body : Nat → Code (Option Int)} (h : Open P start stop)
    (hbody : ∀ q, start ≤ q → q < stop → Instr P q →
      Comes m P (body q) (if hit q then some (out q) else none)) :
    Comes m P (do
        let found ← Reading.scan (ReadOrder.next 0x08) body start stop
        return found.getD (-1))
      ((((decode m).find? hit start stop).map out).getD (-1)) :=
  (Reading.Gives.scan (fun q h1 h2 => hbody q h1 h2 (h q h1 h2))
    fun q h1 h2 => comes_decode (h q h1 h2)).bind (.pure _)

theorem comes_isAddmi (ax : BitVec 8) (h : Instr P p) :
    Comes m P (ReadOrder.isAddmi ax p) (isAddmi m ax p) :=
  ((comes_idx h.first).test _).and fun _ => comes_idxIs h.second _

theorem comes_findAddimAxA1 {pc off : Nat} (ax : BitVec 8)
    (h : Open P (pc - off) pc) :
    Comes m P (ReadOrder.findAddimAxA1 pc off ax)
      (findAddimAxA1 m pc off ax) := by
  have heq : findAddimAxA1 m pc off ax = if ax = 1 then 0 else
      (((decode m).find? (isAddmi m ax) (pc - off) pc).map
        fun p0 => sidx m p0 2 * 256).getD (-1) := by
    unfold findAddimAxA1
    cases (decode m).find? (isAddmi m ax) (pc - off) pc <;> rfl
  rw [heq]
  refine .ite (fun _ => .pure 0) fun _ => comes_search h ?_
  intro q _ _ hq
  refine (comes_isAddmi ax hq).bind (.ite (fun _ => ?_) fun _ => .pure none)
  exact (comes_sidx hq.third).bind (.pure _)

theorem comes_isS32i (h : Instr P p) :
    Comes m P (ReadOrder.isS32i p) (isS32i m p) :=
  (comes_idxIs h.first _).and fun _ => comes_maskIs h.second _ _

theorem comes_isS32iN (h : Instr P p) :
    Comes m P (ReadOrder.isS32iN p) (isS32iN m p) :=
  comes_idxIs h.first _

theorem comes_storeOffset {start p0 n : Nat} {disp : Code Nat}
    (hp : Instr P p0) (h : Open P (p0 - (p0 - start)) p0)
    (hdisp : Comes m P disp n) :
    Comes m P (ReadOrder.storeOffset start p0 disp)
      (if 0 ≤ findAddimAxA1 m p0 (p0 - start) (idx m p0 1 &&& 0x0F) then
        findAddimAxA1 m p0 (p0 - start) (idx m p0 1 &&& 0x0F) + 4 * n
      else findAddimAxA1 m p0 (p0 - start) (idx m p0 1 &&& 0x0F)) := by
  refine (comes_idx hp.second).bind
    ((comes_findAddimAxA1 _ h).bind (.ite (fun _ => ?_) fun _ => .pure _))
  exact hdisp.bind (.pure _)

theorem comes_findS32iA0A1 {pc off : Nat} (h : Open P (pc - off) pc) :
    Comes m P (ReadOrder.findS32iA0A1 pc off) (findS32iA0A1 m pc off) := by
  have heq : findS32iA0A1 m pc off =
      (((decode m).find? (fun p => isS32i m p || isS32iN m p)
        (pc - off) pc).map (a0StoreOffset m (pc - off))).getD (-1) := by
    unfold findS32iA0A1
    cases (decode m).find? (fun p => isS32i m p || isS32iN m p)
      (pc - off) pc <;> rfl
  rw [heq]
  refine comes_search h ?_
  intro q h1 h2 hq
  have hbefore : Open P (q - (q - (pc - off))) q :=
    fun a ha1 ha2 => h a (by omega) (by omega)
  refine (comes_isS32i hq).bind ?_
  by_cases hwide : isS32i m q = true
  · have hdisp : Comes m P (do return (← ReadOrder.idx q 2).toNat)
        (idx m q 2).toNat := (comes_idx hq.third).bind (.pure _)
    have hoff := comes_storeOffset hq hbefore hdisp
    rw [if_pos hwide, if_pos (by rw [hwide, Bool.true_or]), a0StoreOffset,
      if_pos hwide]
    exact hoff.bind (.pure _)
  · rw [if_neg hwide]
    refine (comes_isS32iN hq).bind ?_
    rw [Bool.eq_false_iff.mpr hwide, Bool.false_or]
    refine .ite (fun _ => ?_) fun _ => .pure none
    have hdisp : Comes m P (do return ((← ReadOrder.idx q 1) >>> 4).toNat)
        (idx m q 1 >>> 4).toNat := (comes_idx hq.second).bind (.pure _)
    have hoff := comes_storeOffset hq hbefore hdisp
    rw [a0StoreOffset, if_neg hwide]
    exact hoff.bind (.pure _)

theorem comes_verifyPathRetToPc {pc off : Nat} (h : Open P (pc - off) pc) :
    Comes m P (ReadOrder.verifyPathRetToPc pc off)
      (verifyPathRetToPc m pc off) :=
  (Reading.Gives.walk fun q h1 h2 => comes_decode (h q h1 h2)).bind
    (.pure _)

/-! ### A stop -/

theorem comes_sameReg {pb psub : Nat} (hb : Instr P pb)
    (hs : Instr P psub) : Comes m P (ReadOrder.sameReg pb psub)
      (idx m pb 0 &&& 0xF0 = idx m psub 0 &&& 0xF0) :=
  (comes_idx hb.first).bind ((comes_idx hs.first).test _)

theorem comes_isOp {pb psub : Nat} (hb : Instr P pb) (hs : Instr P psub)
    (op : BitVec 8) :
    Comes m P (ReadOrder.isOp op pb psub)
      (idx m psub 0 &&& 0x0F = 0x00 && idx m psub 1 = 0x11
        && idx m psub 2 = op
        && idx m pb 0 &&& 0xF0 = idx m psub 0 &&& 0xF0) :=
  (((comes_maskIs hs.first _ _).and fun _ => comes_idxIs hs.second _).and
    fun _ => comes_idxIs hs.third _).and fun _ => comes_sameReg hb hs

theorem comes_isSub {pb psub : Nat} (hb : Instr P pb) (hs : Instr P psub) :
    Comes m P (ReadOrder.isSub pb psub) (isSub m pb psub) :=
  comes_isOp hb hs 0xc0

theorem comes_isAddN {pb psub : Nat} (hb : Instr P pb)
    (hs : Instr P psub) :
    Comes m P (ReadOrder.isAddN pb psub) (isAddN m pb psub) :=
  ((comes_idxIs hs.second _).and fun _ => comes_maskIs hs.first _ _).and
    fun _ => comes_sameReg hb hs

theorem comes_isAdd {pb psub : Nat} (hb : Instr P pb) (hs : Instr P psub) :
    Comes m P (ReadOrder.isAdd pb psub) (isAdd m pb psub) :=
  comes_isOp hb hs 0x80

theorem comes_foundWithin32 {pb : Nat} {found : Nat → Code Bool}
    {hit : Nat → Bool} (h : Open P (pb + 3) (pb + 32))
    (hfound : ∀ q, Instr P q → Comes m P (found q) (hit q)) :
    Comes m P (ReadOrder.foundWithin32 found pb)
      (foundWithin32 m hit pb) := by
  rw [foundWithin32, ← Option.isSome_map (f := fun _ => ())]
  refine (Reading.Gives.scan (fun q h1 h2 => ?_)
    fun q h1 h2 => comes_subDecode (h q h1 h2)).bind (.pure _)
  exact (hfound q (h q h1 h2)).bind
    (.ite (fun _ => .pure _) fun _ => .pure none)

theorem comes_isAddi (h : Instr P p) :
    Comes m P (ReadOrder.isAddi p) (isAddi m p) :=
  (comes_idxIs h.first _).and fun _ => comes_idxIs h.second _

theorem comes_isMovi (h : Instr P p) :
    Comes m P (ReadOrder.isMovi p) (isMovi m p) :=
  (comes_maskIs h.first _ _).and fun _ => comes_maskIs h.second _ _

theorem comes_moviImm (h : Instr P p) :
    Comes m P (ReadOrder.moviImm p) (moviImm m p) :=
  (comes_idx h.second).bind ((comes_idx h.third).bind (.pure _))

theorem comes_isRet (h : Instr P p) :
    Comes m P (ReadOrder.isRet p) (isRet m p) :=
  ((comes_idxIs h.first _).and fun _ => comes_idxIs h.second _).or
    fun _ => ((comes_idxIs h.first _).and
      fun _ => comes_idxIs h.second _).and fun _ => comes_idxIs h.third _

variable {pc sp lr : Word} {off : Nat}

theorem comes_releaseFrame (h : Open P (pc.toNat - off) pc.toNat)
    (size : Int) :
    Comes m P (ReadOrder.releaseFrame m.stack pc sp off size)
      (releaseFrame m pc sp off size) := by
  refine (comes_findS32iA0A1 h).bind ?_
  exact .ite (fun _ => .pure none) fun _ =>
    .ite (fun _ => .pure none) fun _ => .pure _

/-- What the body of the inner loop may read: instructions from `pb` on,
up to where the searches behind a `MOVI` end. -/
theorem comes_stopAt (h2 : 2 ≤ off) (hoff : off ≤ pc.toNat)
    (h : Open P (pc.toNat - off) (pc.toNat + 30)) :
    Comes m P (ReadOrder.stopAt c m.stack pc sp lr off)
      (stopAt c m pc sp lr off) := by
  have hb : Instr P (pc.toNat - off) := h _ (Nat.le_refl _) (by omega)
  have hpc : Open P (pc.toNat - off) pc.toNat :=
    fun q h1 h2 => h q h1 (by omega)
  have hbehind : Open P (pc.toNat - off + 3) (pc.toNat - off + 32) :=
    fun q h1 h2 => h q (by omega) (by omega)
  refine .ite (fun _ => .pure _) fun _ => ?_
  -- ADDI
  refine (comes_isAddi hb).bind (.ite (fun _ => ?_) fun _ => ?_)
  · refine (comes_sidx hb.third).bind ?_
    exact .ite (fun _ => .pure none) fun _ => comes_releaseFrame hpc _
  -- MOVI
  refine (comes_isMovi hb).bind (.ite (fun _ => ?_) fun _ => ?_)
  · refine (comes_moviImm hb).bind ?_
    refine .ite (fun _ => .pure none) fun _ => ?_
    refine .ite (fun _ => ?_) fun _ => ?_
    · refine (comes_foundWithin32 hbehind
        fun q hq => comes_isSub hb hq).bind ?_
      exact .ite (fun _ => comes_releaseFrame hpc _) fun _ => .pure none
    · refine ((comes_foundWithin32 hbehind
        fun q hq => comes_isAddN hb hq).or
          fun _ => comes_foundWithin32 hbehind
            fun q hq => comes_isAdd hb hq).bind ?_
      exact .ite (fun _ => comes_releaseFrame hpc _) fun _ => .pure none
  -- RET
  refine (comes_isRet hb).bind (.ite (fun _ => ?_) fun _ => .pure none)
  refine (comes_verifyPathRetToPc hpc).bind ?_
  exact .ite (fun _ => .pure none) fun _ =>
    .ite (fun _ => .pure _) fun _ => .pure none

/-! ### The loops -/

theorem comes_scanBack (h2 : 2 ≤ off)
    (h : Open P (pc.toNat - prevTextSize c pc) (pc.toNat + 30)) :
    Comes m P (ReadOrder.scanBack c m.stack pc sp lr off)
      ((scanBack c m pc sp lr off).map fun off' =>
        (off', (stopAt c m pc sp lr off').getD ⟨pc, sp, 0⟩)) := by
  have hle := prevTextSize_le c pc
  refine Reading.Gives.scan (fun off' h1 h3 => ?_) fun _ _ _ => .pure _
  have hstop : Comes m P (ReadOrder.stopAt c m.stack pc sp lr off')
      (stopAt c m pc sp lr off') :=
    comes_stopAt (by omega) (by omega) fun q hq1 hq2 =>
      h q (by omega) hq2
  refine hstop.bind ?_
  cases stopAt c m pc sp lr off' with
  | none => exact .pure none
  | some r => exact .pure (some (off', r))

/-- What an unwind may read: instructions from the start of the code up to
30 bytes past `pc`, and nothing where `pc` is no code. -/
def Around (c : CodeMap) (P : Nat → Prop) (pc : Word) : Prop :=
  0 < prevTextSize c pc →
    Open P (pc.toNat - prevTextSize c pc) (pc.toNat + 30)

theorem comes_retryLoop {retries : Nat} {r : Callee} (h2 : 2 ≤ off)
    (h : Around c P pc) :
    Comes m P (ReadOrder.retryLoop c m.stack pc sp lr retries off r)
      (retryLoop c m pc sp lr retries off r) := by
  induction retries generalizing off r with
  | zero => exact .pure _
  | succ retries ih =>
      unfold ReadOrder.retryLoop retryLoop
      refine .ite (fun hgo => ?_) fun _ => .pure _
      refine (comes_scanBack h2 (h (by omega))).bind ?_
      cases hscan : scanBack c m pc sp lr off with
      | none => exact .pure _
      | some off' =>
          have hge := (scanBack_some hscan).1
          exact .ite (fun _ => .pure _) fun _ => ih (by omega)

/-- **The unwinder reads its way to the plain result.** -/
theorem comes_xtRetaddrCalleeEx (h : Around c P pc) (iLr : Word)
    (o : Callee) :
    Comes m P (ReadOrder.xtRetaddrCalleeEx c m.stack pc sp iLr o)
      (xtRetaddrCalleeEx c m pc sp iLr o) := by
  refine (comes_retryLoop (by decide) h).bind ?_
  exact .ite (fun _ => .pure _) fun _ => .pure _

/-! ## The bytes read -/

/-- The bytes of the code in IRAM, ROM and flash, and 31 behind each. -/
def NearCode (c : CodeMap) (a : Nat) : Prop :=
  c.textStart.toNat ≤ a ∧ a < c.textEnd.toNat + 31
    ∨ romBase.toNat ≤ a ∧ a < romCodeEnd.toNat + 31
    ∨ flashBase.toNat ≤ a ∧ a < c.flashCodeEnd.toNat + 31

theorem around_nearCode (c : CodeMap) (pc : Word) :
    Around c (NearCode c) pc := by
  intro hpos p hlo hhi
  -- the code `pc` is in, from its base
  have hnear : ∀ base : Word, base ≤ pc →
      pc.toNat - (pc - base).toNat ≤ p → base.toNat ≤ p := by
    intro base hbase h
    have hle : base.toNat ≤ pc.toNat := hbase
    rw [BitVec.toNat_sub_of_le hbase] at h
    omega
  have hrange : ∃ base stop, base ≤ p ∧ pc.toNat < stop
      ∧ ∀ a, base ≤ a → a < stop + 31 → NearCode c a := by
    unfold prevTextSize at hpos hlo
    by_cases htext : c.textStart < pc ∧ pc < c.textEnd
    · rw [if_pos htext] at hlo
      exact ⟨_, _, hnear _ (Nat.le_of_lt htext.1) hlo, htext.2,
        fun a h1 h2 => .inl ⟨h1, h2⟩⟩
    rw [if_neg htext] at hpos hlo
    by_cases hrom : isRomCode pc = true
    · rw [if_pos hrom] at hlo
      simp only [isRomCode, Bool.and_eq_true, decide_eq_true_eq] at hrom
      exact ⟨_, _, hnear _ hrom.1 hlo, hrom.2,
        fun a h1 h2 => .inr (.inl ⟨h1, h2⟩)⟩
    rw [if_neg hrom] at hpos hlo
    by_cases hflash : flashBase < pc ∧ pc < c.flashCodeEnd
    · rw [if_pos hflash] at hlo
      exact ⟨_, _, hnear _ (Nat.le_of_lt hflash.1) hlo, hflash.2,
        fun a h1 h2 => .inr (.inr ⟨h1, h2⟩)⟩
    · rw [if_neg hflash] at hpos
      exact absurd hpos (Nat.lt_irrefl 0)
  obtain ⟨base, stop, hbase, hstop, hin⟩ := hrange
  exact ⟨hin _ (by omega) (by omega), hin _ (by omega) (by omega),
    hin _ (by omega) (by omega)⟩

/-! ## Through `_idx` -/

/-- The reads as `_idx` answers them in IRAM: its statics, and how many
there were. `cacheReadEn n` is the cache bit at the `n`-th. -/
def iramReader (bus : Bus) (cacheReadEn : Nat → Bool)
    (s : IdxStatics × Nat) (a : Nat) : BitVec 8 × (IdxStatics × Nat) :=
  let r := idxInIram bus (cacheReadEn s.2) s.1 (.ofNat 32 a)
  (r.1, (r.2, s.2 + 1))

/-- The end of what the flash cache maps, as a position. -/
abbrev mapEnd : Nat := 0x40300000

/-- Code ends 32 bytes before that of mapped flash. -/
structure CodeMap.Mapped (c : CodeMap) : Prop where
  text : c.textEnd.toNat + 32 ≤ mapEnd
  flash : c.flashCodeEnd.toNat + 32 ≤ mapEnd

theorem CodeMap.Mapped.lt_mapEnd (h : c.Mapped) {a : Nat}
    (ha : NearCode c a) : a < mapEnd := by
  have htext := h.text
  have hflash := h.flash
  rcases ha with ⟨-, h⟩ | ⟨-, h⟩ | ⟨-, h⟩
  · omega
  · have hrom : romCodeEnd.toNat + 31 ≤ mapEnd := by decide
    omega
  · omega

/-- The code is what is on the bus. -/
def Mem.OnBus (m : Mem) (bus : Bus) : Prop :=
  ∀ a : Word, m.code a.toNat = bus.byte a

variable {bus : Bus} {flash : Nat → BitVec 8} {s : IdxStatics × Nat}

/-- Reads through `_idx` come to what plain reads do, and leave the word
kept a good one. -/
theorem inIram_of_comes {α : Type} {f : Code α} {a : α}
    (h : Comes m (NearCode c) f a) (hc : c.Mapped)
    (hf : ShowsFlash bus flash) (hm : m.OnBus bus) (hk : Kept bus s.1)
    (cacheReadEn : Nat → Bool) :
    (f.run (iramReader bus cacheReadEn) s).1 = a
      ∧ Kept bus (f.run (iramReader bus cacheReadEn) s).2.1 := by
  refine h.run (I := fun s : IdxStatics × Nat => Kept bus s.1)
    (fun s r hk hr => ?_) hk
  have hr := hc.lt_mapEnd hr
  have hnat : (BitVec.ofNat 32 r).toNat = r := by
    rw [BitVec.toNat_ofNat, Nat.mod_eq_of_lt (Nat.lt_trans hr (by decide))]
  have hlt : BitVec.ofNat 32 r < flashMapEnd := by
    show (BitVec.ofNat 32 r).toNat < mapEnd
    rw [hnat]
    exact hr
  refine ⟨?_, kept_idxInIram hk _ _⟩
  calc (idxInIram bus (cacheReadEn s.2) s.1 (.ofNat 32 r)).1
      = bus.byte (.ofNat 32 r) := idxInIram_eq hf hk hlt
    _ = m.code r := by rw [← hm, hnat]

/-- The arguments of one call of the unwinder. -/
structure UnwindCall where
  iPc : Word
  iSp : Word
  iLr : Word
  o : Callee

/-- **Unwinds in IRAM are plain unwinds**: with `BACKTRACE_IN_IRAM` any
calls of `xt_retaddr_callee_ex`, one after the other, return what they do
over plain bytes, however the flash cache is switched between two reads. -/
theorem unwinds_in_iram_eq_plain (hc : c.Mapped)
    (hf : ShowsFlash bus flash) (hm : m.OnBus bus)
    (cacheReadEn : Nat → Bool) (calls : List UnwindCall) :
    ((Reading.inOrder (calls.map fun u =>
        ReadOrder.xtRetaddrCalleeEx c m.stack u.iPc u.iSp u.iLr u.o)).run
          (iramReader bus cacheReadEn) (idxStart, 0)).1
      = calls.map fun u => xtRetaddrCalleeEx c m u.iPc u.iSp u.iLr u.o := by
  have hcalls : Comes m (NearCode c)
      (.inOrder (calls.map fun u =>
        ReadOrder.xtRetaddrCalleeEx c m.stack u.iPc u.iSp u.iLr u.o))
      (calls.map fun u => xtRetaddrCalleeEx c m u.iPc u.iSp u.iLr u.o) :=
    .inOrder fun u _ =>
      comes_xtRetaddrCalleeEx (around_nearCode c u.iPc) u.iLr u.o
  exact (inIram_of_comes hcalls hc hf hm (kept_idxStart bus) cacheReadEn).1

/-- A flash chip on the bus. -/
def flashBus (flash : Nat → BitVec 8) : Bus where
  byte a := flash (a - flashBase).toNat
  spiRead off i := flash (off.toNat + i)

theorem showsFlash_flashBus (flash : Nat → BitVec 8) :
    ShowsFlash (flashBus flash) flash where
  spiRead _ _ _ _ := rfl
  mapped x hx := by
    have hsub : flashBase + .ofNat 32 x - flashBase = .ofNat 32 x := by
      rw [BitVec.add_comm, BitVec.add_sub_cancel]
    show flash (flashBase + .ofNat 32 x - flashBase).toNat = flash x
    rw [hsub, BitVec.toNat_ofNat, Nat.mod_eq_of_lt (by omega)]

/-- `addi a1, a1, -16` and `s32i.n a0, a1, 12` at `0x100` in flash. -/
def smallFlash (x : Nat) : BitVec 8 :=
  if x < 0x100 then 0
  else [0x12, 0xc1, 0xf0, 0x09, 0x31].getD (x - 0x100) 0

/-- The function of `smallFlash` with a return address in its slot. -/
def flashMem : Mem where
  code a := (flashBus smallFlash).byte (.ofNat 32 a)
  stack a := if a = 0x3ffffe0c then 0x40200150 else 0

theorem onBus_flashMem : flashMem.OnBus (flashBus smallFlash) := by
  intro a
  show (flashBus smallFlash).byte (.ofNat 32 a.toNat) = _
  rw [BitVec.ofNat_toNat, BitVec.setWidth_eq]

/-- Code in flash, up to `0x200`. -/
def flashMap : CodeMap :=
  { smallMap 0 with flashCodeEnd := 0x40200200, flash_room := by decide }

theorem mapped_flashMap : flashMap.Mapped where
  text := by decide
  flash := by decide

theorem unwinds_in_iram_eq_plain_flash :
    ((Reading.inOrder ([⟨0x40200105, 0x3ffffe00, 0, ⟨0, 0, 0⟩⟩,
        ⟨0x40200110, 0x3ffffe00, 0x40200150, ⟨0, 0, 0⟩⟩].map
          fun u : UnwindCall => ReadOrder.xtRetaddrCalleeEx flashMap
            flashMem.stack u.iPc u.iSp u.iLr u.o)).run
          (iramReader (flashBus smallFlash) fun n => n % 3 = 0)
          (idxStart, 0)).1
      = [(true, ⟨0x40200150, 0x3ffffe10, 0x40200100⟩),
        (true, ⟨0x40200150, 0x3ffffe10, 0x40200100⟩)] :=
  (unwinds_in_iram_eq_plain mapped_flashMap (showsFlash_flashBus smallFlash)
    onBus_flashMem _ _).trans (by decide)

end BacktraceLog
