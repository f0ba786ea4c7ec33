import BacktraceLog.Unwind.Failure

/-!
# Return addresses by level

`xt_return_address_ex` unwinds a number of times from inside itself and
returns what the last call left in its variables, if that is code. So its
result for a chain that ends early depends on how the failing unwind
failed.
-/

namespace BacktraceLog

variable {c : CodeMap} {m : Mem}

/-- `xt_retaddr_callee(i_pc, i_sp, i_lr, o_pc, o_sp)`: `o_fn` is ignored. -/
def xtRetaddrCallee (c : CodeMap) (m : Mem) (iPc iSp iLr : Word)
    (o : PcSp) : Bool × PcSp :=
  let r := xtRetaddrCalleeEx c m iPc iSp iLr ⟨o.pc, o.sp, 0⟩
  (r.1, ⟨r.2.pc, r.2.sp⟩)

/-- `while (lvl-- && xt_retaddr_callee(i_pc, i_sp, NULL, &o_pc, &o_sp)) {
i_pc = o_pc; i_sp = o_sp; }`: what it leaves in `o_pc` and `o_sp`. -/
def levelLoop (c : CodeMap) (m : Mem) : Nat → PcSp → PcSp → PcSp
  | 0, _, o => o
  | lvl + 1, i, o =>
      let r := xtRetaddrCallee c m i.pc i.sp 0 o
      if r.1 then levelLoop c m lvl r.2 r.2 else r.2

/-- `xt_return_address_ex(lvl)`, with the `pc` and `sp` it captures and
what the uninitialised `o_sp` holds. -/
def xtReturnAddressEx (c : CodeMap) (m : Mem) (captured : PcSp)
    (oSp : Word) (lvl : Nat) : PcSp :=
  let o := levelLoop c m (lvl + 2) captured ⟨0, oSp⟩
  if xtPcIsValid c o.pc then o else ⟨0, 0⟩

/-- `xt_return_address(lvl)` -/
def xtReturnAddress (c : CodeMap) (m : Mem) (captured : PcSp)
    (oSp : Word) (lvl : Nat) : Word :=
  (xtReturnAddressEx c m captured oSp lvl).pc

/-! ## One turn of the loop -/

variable {f g i o : PcSp} {n : Nat}

theorem xtRetaddrCallee_unwinds (h : Unwinds c m 0 f g) (o : PcSp) :
    xtRetaddrCallee c m f.pc f.sp 0 o = (true, g) := by
  obtain ⟨fn, h⟩ := h
  simp only [xtRetaddrCallee, h]

/-- A failing unwind stores an invalid `pc` where its scan is blocked, and
nothing anywhere else. -/
theorem xtRetaddrCallee_stuck (h : Stuck c m 0 f) (o : PcSp) :
    (xtRetaddrCallee c m f.pc f.sp 0 o).1 = false
      ∧ ((∃ off r, Blocked c m f.pc f.sp 0 off r) →
        xtPcIsValid c (xtRetaddrCallee c m f.pc f.sp 0 o).2.pc = false)
      ∧ (¬ (∃ off r, Blocked c m f.pc f.sp 0 off r) →
        (xtRetaddrCallee c m f.pc f.sp 0 o).2 = o) := by
  have hfail := h ⟨o.pc, o.sp, 0⟩
  refine ⟨hfail, ?_, ?_⟩
  · rintro ⟨off, r, hblocked⟩
    rw [← usableLr_zero c] at hblocked
    have hcall := hblocked.callee_eq ⟨o.pc, o.sp, 0⟩
    simp only [xtRetaddrCallee, hcall]
    exact hblocked.invalid
  · intro hnot
    rcases callee_failure (Prod.ext hfail rfl) with ⟨off, hblocked⟩ | hsame
    · rw [usableLr_zero] at hblocked
      exact absurd ⟨off, _, hblocked⟩ hnot
    · simp only [xtRetaddrCallee, hsame]

theorem levelLoop_unwinds (h : Unwinds c m 0 i g) :
    levelLoop c m (n + 1) i o = levelLoop c m n g g := by
  simp only [levelLoop, xtRetaddrCallee_unwinds h, if_true]

theorem levelLoop_stuck (h : Stuck c m 0 i) :
    levelLoop c m (n + 1) i o = (xtRetaddrCallee c m i.pc i.sp 0 o).2 := by
  simp only [levelLoop, (xtRetaddrCallee_stuck h o).1, Bool.false_eq_true,
    if_false]

/-! ## Runs of the loop -/

/-- The outputs when the loop stands at its `j`-th frame `g`. -/
def outputsAt (o g : PcSp) : Nat → PcSp
  | 0 => o
  | _ + 1 => g

/-- As long as the unwinds succeed, the outputs follow them. -/
theorem levelLoop_run {j : Nat} (h : unwind c m j 0 i = some g) :
    levelLoop c m (j + n) i o = levelLoop c m n g (outputsAt o g j) := by
  -- one unwind at a time, from the outermost
  induction j generalizing i o with
  | zero =>
      obtain rfl := Option.some.inj h
      rw [Nat.zero_add]
      rfl
  | succ j ih =>
      rcases unwinds_or_stuck c m 0 i with ⟨f, hf⟩ | hstuck
      · rw [unwind_unwinds hf] at h
        rw [show j + 1 + n = j + n + 1 by omega, levelLoop_unwinds hf, ih h]
        cases j with
        | zero =>
            obtain rfl := Option.some.inj h
            rfl
        | succ j => rfl
      · rw [unwind_stuck hstuck] at h
        cases h

/-- A chain that ends before its `n`-th frame ends at a stuck one. -/
theorem exists_stuck (h : unwind c m n 0 i = none) :
    ∃ j g, j < n ∧ unwind c m j 0 i = some g ∧ Stuck c m 0 g := by
  induction n generalizing i with
  | zero => cases h
  | succ n ih =>
      rcases unwinds_or_stuck c m 0 i with ⟨f, hf⟩ | hstuck
      · rw [unwind_unwinds hf] at h
        obtain ⟨j, g, hj, hg, hstuck⟩ := ih h
        exact ⟨j + 1, g, by omega, (unwind_unwinds hf).trans hg, hstuck⟩
      · exact ⟨0, i, by omega, rfl, hstuck⟩

theorem unwind_valid {j : Nat} (h : unwind c m (j + 1) 0 i = some g) :
    xtPcIsValid c g.pc = true := by
  -- the last unwind
  rw [unwind_add] at h
  obtain ⟨f, -, hlast⟩ := Option.bind_eq_some_iff.mp h
  rcases unwinds_or_stuck c m 0 f with ⟨g', hg'⟩ | hstuck
  · rw [unwind_unwinds hg'] at hlast
    obtain rfl := Option.some.inj hlast
    exact hg'.valid
  · rw [unwind_stuck hstuck] at hlast
    cases hlast

/-- At a stuck frame the loop ends with what the failing call leaves. -/
theorem levelLoop_at_stuck {j : Nat} (hj : j < n)
    (h : unwind c m j 0 i = some g) (hstuck : Stuck c m 0 g) :
    levelLoop c m n i o
      = (xtRetaddrCallee c m g.pc g.sp 0 (outputsAt o g j)).2 := by
  obtain ⟨k, rfl⟩ : ∃ k, n = j + (k + 1) := ⟨n - j - 1, by omega⟩
  rw [levelLoop_run h, levelLoop_stuck hstuck]

theorem unwind_none_of_stuck {j : Nat} (hj : j < n)
    (h : unwind c m j 0 i = some g) (hstuck : Stuck c m 0 g) :
    unwind c m n 0 i = none := by
  obtain ⟨k, rfl⟩ : ∃ k, n = j + (k + 1) := ⟨n - j - 1, by omega⟩
  rw [unwind_add, h]
  exact unwind_stuck hstuck

/-! ## Levels -/

/-- What `xt_return_address_ex` makes of a chain: the pair of its last
level, or `{NULL, NULL}`. -/
def levelPair : Option PcSp → PcSp
  | some f => f
  | none => ⟨0, 0⟩

/-- **When a level is the level**: `xt_return_address_ex(lvl)` returns the
pair of the `(lvl + 2)`-th unwind, and `{NULL, NULL}` where there is none,
exactly if no scan that ends the chain behind its first frame runs back to
the start of the code. -/
theorem return_address_level_iff (c : CodeMap) (m : Mem) (captured : PcSp)
    (oSp : Word) (lvl : Nat) :
    (xtReturnAddressEx c m captured oSp lvl
          = levelPair (unwind c m (lvl + 2) 0 captured)
        ∧ xtReturnAddress c m captured oSp lvl
          = (levelPair (unwind c m (lvl + 2) 0 captured)).pc)
      ↔ ∀ j g, 0 < j → j < lvl + 2 → unwind c m j 0 captured = some g →
        Stuck c m 0 g → ∃ off r, Blocked c m g.pc g.sp 0 off r := by
  have hinvalid : ∀ o : PcSp, levelLoop c m (lvl + 2) captured ⟨0, oSp⟩ = o →
      xtPcIsValid c o.pc = false →
      xtReturnAddressEx c m captured oSp lvl = ⟨0, 0⟩ := by
    rintro o rfl ho
    simp only [xtReturnAddressEx, ho, Bool.false_eq_true, if_false]
  constructor
  · rintro ⟨h, -⟩ j g hj hlt hg hstuck
    refine Classical.byContradiction fun hnot => ?_
    -- the failing call leaves the outputs of the one before it
    have hloop := levelLoop_at_stuck (o := ⟨0, oSp⟩) hlt hg hstuck
    rw [(xtRetaddrCallee_stuck hstuck _).2.2 hnot] at hloop
    obtain ⟨k, rfl⟩ : ∃ k, j = k + 1 := ⟨j - 1, by omega⟩
    have hvalid := unwind_valid hg
    rw [unwind_none_of_stuck hlt hg hstuck, xtReturnAddressEx, hloop,
      outputsAt, if_pos hvalid] at h
    rw [h] at hvalid
    rw [levelPair, xtPcIsValid_zero] at hvalid
    cases hvalid
  · intro h
    suffices hpair : xtReturnAddressEx c m captured oSp lvl
        = levelPair (unwind c m (lvl + 2) 0 captured) from
      ⟨hpair, congrArg PcSp.pc hpair⟩
    cases hchain : unwind c m (lvl + 2) 0 captured with
    | some g =>
        have hloop := levelLoop_run (n := 0) (o := ⟨0, oSp⟩) hchain
        rw [Nat.add_zero] at hloop
        rw [xtReturnAddressEx, hloop]
        exact if_pos (unwind_valid hchain)
    | none =>
        obtain ⟨j, g, hj, hg, hstuck⟩ := exists_stuck hchain
        have hloop := levelLoop_at_stuck (o := ⟨0, oSp⟩) hj hg hstuck
        by_cases hblocked : ∃ off r, Blocked c m g.pc g.sp 0 off r
        · exact hinvalid _ hloop
            ((xtRetaddrCallee_stuck hstuck _).2.1 hblocked)
        · rw [(xtRetaddrCallee_stuck hstuck _).2.2 hblocked] at hloop
          cases j with
          | zero => exact hinvalid _ hloop (xtPcIsValid_zero c)
          | succ j => exact absurd (h _ g (by omega) hj hg hstuck) hblocked

/-- A function at `0x40100020` (`addi a1, a1, -16`, `s32i.n a0, a1, 12`)
called from `0x40100010`, with nothing but zeros before that. -/
def shortChain : Mem where
  code a :=
    if a < 0x40100020 then 0
    else [0x12, 0xc1, 0xf0, 0x09, 0x31].getD (a - 0x40100020) 0
  stack a := if a = 0x3ffffe0c then 0x40100010 else 0

/-- The second of two unwinds fails at the start of the code, and the pair
of the first is returned. -/
theorem short_chain_returns_shallower :
    unwind (smallMap 0) shortChain 2 0 ⟨0x40100025, 0x3ffffe00⟩ = none
      ∧ unwind (smallMap 0) shortChain 1 0 ⟨0x40100025, 0x3ffffe00⟩
        = some ⟨0x40100010, 0x3ffffe10⟩
      ∧ xtReturnAddressEx (smallMap 0) shortChain ⟨0x40100025, 0x3ffffe00⟩ 0 0
        = ⟨0x40100010, 0x3ffffe10⟩ := by
  decide

end BacktraceLog
