import BacktraceLog.Unwind.Chain

/-!
# Unwinding ends

The loops of the crash callback repeat `xt_retaddr_callee_ex` for as long
as it succeeds, on whatever the stack holds. Without a link register a
success releases a frame of at least four bytes whose return address lay
inside it; so once no code address is left above some limit, the stack
pointer can only climb to that limit, provided it cannot wrap on the way.
-/

namespace BacktraceLog

variable {c : CodeMap} {m : Mem}

/-! ## The loop -/

/-- `do { i_pc = pc; i_sp = sp; repeat = xt_retaddr_callee_ex(i_pc, i_sp,
lr, &pc, &sp, &fn); lr = NULL; } while (repeat);`: the frames it comes by
and what it leaves in the variables, or `none` where the fuel ends first. -/
def unwindLoop (c : CodeMap) (m : Mem) :
    Nat → Word → Callee → Option (List PcSp × Callee)
  | 0, _, _ => none
  | fuel + 1, lr, o =>
      let r := xtRetaddrCalleeEx c m o.pc o.sp lr o
      if r.1 then
        match unwindLoop c m fuel 0 r.2 with
        | some (fs, o') => some (⟨o.pc, o.sp⟩ :: fs, o')
        | none => none
      else some ([⟨o.pc, o.sp⟩], r.2)

theorem unwindLoop_stop {fuel : Nat} {lr : Word} {o r : Callee}
    (h : xtRetaddrCalleeEx c m o.pc o.sp lr o = (false, r)) :
    unwindLoop c m (fuel + 1) lr o = some ([⟨o.pc, o.sp⟩], r) := by
  simp [unwindLoop, h]

theorem unwindLoop_next {fuel : Nat} {lr : Word} {o r o' : Callee}
    {fs : List PcSp}
    (h : xtRetaddrCalleeEx c m o.pc o.sp lr o = (true, r))
    (hrest : unwindLoop c m fuel 0 r = some (fs, o')) :
    unwindLoop c m (fuel + 1) lr o = some (⟨o.pc, o.sp⟩ :: fs, o') := by
  simp only [unwindLoop, h, hrest, if_true]

/-! ## One successful step -/

/-- What a success does to the stack pointer: it stays, and the link
register was used, or a frame of `size` bytes was released whose slot
`a0` held the return address. -/
theorem callee_success_sp {pc sp iLr : Word} {o r : Callee}
    (h : xtRetaddrCalleeEx c m pc sp iLr o = (true, r)) :
    xtPcIsValid c r.pc = true
      ∧ ((r.sp = sp ∧ r.pc = usableLr c iLr)
        ∨ ∃ size a0 : Nat, 4 ≤ size ∧ size ≤ 2048 ∧ 4 ∣ size ∧ a0 < size
          ∧ 4 ∣ a0 ∧ r.pc = m.stack (sp + .ofNat 32 a0)
          ∧ r.sp = sp + .ofNat 32 size) := by
  obtain ⟨hvalid, off, -, -, hstop⟩ := callee_success h
  refine ⟨hvalid, ?_⟩
  rcases (stopAt_eq_some_iff.mp hstop).of_valid hvalid with
    ⟨size, a0, hframe, hr⟩ | ⟨-, -, -, hlr, rfl⟩
  · have hsize := hframe.frameSize
    refine .inr ⟨size, a0, ?_, ?_, ?_, hr.inside, hr.aligned, ?_, ?_⟩
    · rcases hsize with h | h <;> omega
    · rcases hsize with h | h <;> omega
    · rcases hsize with h | h <;> omega
    · rw [hr.callee]
    · rw [hr.callee]
  · exact .inl ⟨rfl, (if_pos hlr).symm⟩

/-- No word at or above `L` is a code address. -/
def NoCodeFrom (c : CodeMap) (m : Mem) (L : Nat) : Prop :=
  ∀ a : Word, L ≤ a.toNat → xtPcIsValid c (m.stack a) = false

/-- The highest limit below which the slot of a frame that starts up to
2047 bytes above it is still read without wrapping: `L + 2047 + 2044`. -/
def maxLimit : Nat := 2 ^ 32 - 4092

/-- **A released frame lies below the limit**, and the stack pointer moves
up by at least a word without wrapping. -/
theorem released_below {L size a0 : Nat} {pc sp sp' : Word}
    (hL : L ≤ maxLimit) (hcode : NoCodeFrom c m L)
    (hsp : sp.toNat ≤ L + 2047) (h4 : 4 ≤ size) (hsize : size ≤ 2048)
    (hsize4 : 4 ∣ size) (ha0 : a0 < size) (ha04 : 4 ∣ a0)
    (hpc : pc = m.stack (sp + .ofNat 32 a0))
    (hsp' : sp' = sp + .ofNat 32 size) (hvalid : xtPcIsValid c pc = true) :
    sp.toNat < L ∧ sp.toNat + 4 ≤ sp'.toNat ∧ sp'.toNat ≤ L + 2047 := by
  unfold maxLimit at hL
  have hread : (sp + BitVec.ofNat 32 a0).toNat = sp.toNat + a0 := by
    rw [BitVec.toNat_add, BitVec.toNat_ofNat]
    omega
  -- the slot was read without wrapping, and it held a code address
  have hlow : sp.toNat + a0 < L := by
    refine Nat.lt_of_not_le fun hge => ?_
    have hno := hcode (sp + .ofNat 32 a0) (by rw [hread]; exact hge)
    rw [← hpc, hvalid] at hno
    cases hno
  have hmove : sp'.toNat = sp.toNat + size := by
    rw [hsp', BitVec.toNat_add, BitVec.toNat_ofNat]
    omega
  omega

/-- A success without a link register. -/
theorem callee_null_climbs {L : Nat} {pc sp : Word} {o r : Callee}
    (hL : L ≤ maxLimit) (hcode : NoCodeFrom c m L)
    (hsp : sp.toNat ≤ L + 2047)
    (h : xtRetaddrCalleeEx c m pc sp 0 o = (true, r)) :
    sp.toNat < L ∧ sp.toNat + 4 ≤ r.sp.toNat ∧ r.sp.toNat ≤ L + 2047 := by
  obtain ⟨hvalid, ⟨-, hlr⟩ | ⟨size, a0, h1, h2, h3, h4, h5, h6, h7⟩⟩ :=
    callee_success_sp h
  · rw [hlr, usableLr_zero, xtPcIsValid_zero] at hvalid
    cases hvalid
  · exact released_below hL hcode hsp h1 h2 h3 h4 h5 h6 h7 hvalid

/-! ## Runs of the loop -/

/-- The words between the stack pointer and the limit, rounded up. -/
def wordsBelow (L : Nat) (sp : Word) : Nat := (L - sp.toNat + 3) / 4

/-- The loop without a link register: it ends, climbs, and its steps are
bounded by the words below the limit. -/
theorem unwindLoop_null {L : Nat} (hL : L ≤ maxLimit)
    (hcode : NoCodeFrom c m L) {o : Callee} (hsp : o.sp.toNat ≤ L + 2047)
    {fuel : Nat} (hfuel : wordsBelow L o.sp < fuel) :
    ∃ fs o', unwindLoop c m fuel 0 o = some (fs, o')
      ∧ fs.Pairwise (fun f g => f.sp < g.sp)
      ∧ (∀ f ∈ fs, o.sp.toNat ≤ f.sp.toNat)
      ∧ fs.length ≤ wordsBelow L o.sp + 1 := by
  -- the words below the limit go down by one with every success
  induction fuel generalizing o with
  | zero => exact absurd hfuel (Nat.not_lt_zero _)
  | succ fuel ih =>
      obtain ⟨ok, r, hr⟩ : ∃ ok r,
          xtRetaddrCalleeEx c m o.pc o.sp 0 o = (ok, r) := ⟨_, _, rfl⟩
      cases ok with
      | false =>
          refine ⟨_, _, unwindLoop_stop hr, List.pairwise_singleton _ _,
            ?_, ?_⟩
          · intro f hf
            obtain rfl := List.mem_singleton.mp hf
            exact Nat.le_refl _
          · simp
      | true =>
          obtain ⟨h1, h2, h3⟩ := callee_null_climbs hL hcode hsp hr
          have hless : wordsBelow L r.sp + 1 ≤ wordsBelow L o.sp := by
            unfold wordsBelow
            omega
          obtain ⟨fs, o', hloop, hpair, hge, hlen⟩ := ih h3 (by omega)
          refine ⟨_, _, unwindLoop_next hr hloop, ?_, ?_, ?_⟩
          · refine List.pairwise_cons.mpr ⟨fun f hf => ?_, hpair⟩
            have hfsp := hge f hf
            show o.sp.toNat < f.sp.toNat
            omega
          · intro f hf
            rcases List.mem_cons.mp hf with rfl | hf
            · exact Nat.le_refl _
            · have hfsp := hge f hf
              omega
          · simp only [List.length_cons]
            omega

/-- **Unwinding ends and never repeats a frame**: below a limit above
which the stack holds no code address, the loop without a link register
ends with strictly increasing stack pointers, so no frame comes twice,
after at most as many successes as there are words up to the limit; a
link register for the first call adds at most one. -/
theorem unwinding_ends (c : CodeMap) (m : Mem) (L : Nat)
    (hL : L ≤ maxLimit) (hcode : NoCodeFrom c m L) (o : Callee)
    (hsp : o.sp.toNat ≤ L) :
    (∀ fuel, wordsBelow L o.sp < fuel →
      ∃ fs o', unwindLoop c m fuel 0 o = some (fs, o')
        ∧ fs.Pairwise (fun f g => f.sp < g.sp) ∧ fs.Nodup
        ∧ fs.length ≤ wordsBelow L o.sp + 1)
      ∧ ∀ lr fuel, wordsBelow L o.sp + 1 < fuel →
        ∃ fs o', unwindLoop c m fuel lr o = some (fs, o')
          ∧ fs.length ≤ wordsBelow L o.sp + 2 := by
  constructor
  · intro fuel hfuel
    obtain ⟨fs, o', hloop, hpair, -, hlen⟩ :=
      unwindLoop_null hL hcode (o := o) (by omega) hfuel
    refine ⟨fs, o', hloop, hpair, ?_, hlen⟩
    refine hpair.imp fun {f g} hlt heq => ?_
    rw [heq] at hlt
    exact absurd hlt (BitVec.lt_irrefl _)
  · intro lr fuel hfuel
    obtain ⟨n, rfl⟩ : ∃ n, fuel = n + 1 := ⟨fuel - 1, by omega⟩
    obtain ⟨ok, r, hr⟩ : ∃ ok r,
        xtRetaddrCalleeEx c m o.pc o.sp lr o = (ok, r) := ⟨_, _, rfl⟩
    cases ok with
    | false =>
        refine ⟨_, _, unwindLoop_stop hr, ?_⟩
        simp
    | true =>
        -- the first success moves the stack pointer up or leaves it
        have hfirst : o.sp.toNat ≤ r.sp.toNat ∧ r.sp.toNat ≤ L + 2047 := by
          obtain ⟨hvalid, ⟨heq, -⟩ | ⟨size, a0, h1, h2, h3, h4, h5, h6, h7⟩⟩ :=
            callee_success_sp hr
          · rw [heq]
            omega
          · have hup := released_below hL hcode (by omega) h1 h2 h3 h4 h5 h6
              h7 hvalid
            omega
        have hless : wordsBelow L r.sp ≤ wordsBelow L o.sp := by
          unfold wordsBelow
          omega
        obtain ⟨fs, o', hloop, -, -, hlen⟩ :=
          unwindLoop_null hL hcode hfirst.2
            (show wordsBelow L r.sp < n by omega)
        refine ⟨_, _, unwindLoop_next hr hloop, ?_⟩
        simp only [List.length_cons]
        omega

theorem noCodeFrom_smallMem (handler : Word) :
    NoCodeFrom (smallMap handler) smallMem 0x3ffffe10 := by
  intro a ha
  have hne : a ≠ 0x3ffffe0c := by
    rintro rfl
    exact absurd ha (by decide)
  have hzero : smallMem.stack a = 0 := if_neg hne
  rw [hzero, xtPcIsValid_zero]

theorem unwinding_ends_smallMem :
    ∃ fs o', unwindLoop (smallMap 0x40100000) smallMem 6 0
        ⟨0x40100015, 0x3ffffe00, 0⟩ = some (fs, o')
      ∧ fs.Pairwise (fun f g => f.sp < g.sp) ∧ fs.Nodup
      ∧ fs.length ≤ wordsBelow 0x3ffffe10 0x3ffffe00 + 1 :=
  (unwinding_ends (smallMap 0x40100000) smallMem 0x3ffffe10 (by decide)
    (noCodeFrom_smallMem _) ⟨0x40100015, 0x3ffffe00, 0⟩ (by decide)).1 6
    (by decide)

/-- Two functions: one reserves 2048 bytes with `movi a9, -2048` and
`add.n a1, a1, a9` and keeps a0 in slot 0, the other 16 bytes with a0 in
slot 1; the words at `0xfffff7fc` and at `0` are return addresses. -/
def wrapMem : Mem where
  code a :=
    if a < 0x40100010 then 0
    else [0x92, 0xa8, 0x00, 0x9a, 0x11, 0x09, 0x01, 0, 0x12, 0xc1, 0xf0,
      0x09, 0x11].getD (a - 0x40100010) 0
  stack a :=
    if a = 0xfffff7fc then 0x4010001d else if a = 0 then 0x40100017 else 0

/-- With the limit at `2 ^ 32 - 2048` the second of two successes wraps:
the stack pointer goes from `0xfffff7fc` up to `0xfffffffc` and from there
down to `0x0000000c`. -/
theorem unwinding_wraps :
    NoCodeFrom (smallMap 0) wrapMem (2 ^ 32 - 2048)
      ∧ (0xfffff7fc : Word).toNat ≤ 2 ^ 32 - 2048
      ∧ xtRetaddrCalleeEx (smallMap 0) wrapMem 0x40100017 0xfffff7fc 0
          ⟨0x40100017, 0xfffff7fc, 0⟩
        = (true, ⟨0x4010001d, 0xfffffffc, 0x40100010⟩)
      ∧ xtRetaddrCalleeEx (smallMap 0) wrapMem 0x4010001d 0xfffffffc 0
          ⟨0x4010001d, 0xfffffffc, 0x40100010⟩
        = (true, ⟨0x40100017, 0x0000000c, 0x40100018⟩)
      ∧ ¬ (0xfffffffc : Word) < 0x0000000c := by
  refine ⟨?_, by decide, by decide, by decide, by decide⟩
  intro a ha
  have h1 : a ≠ 0xfffff7fc := by
    rintro rfl
    exact absurd ha (by decide)
  have h2 : a ≠ 0 := by
    rintro rfl
    exact absurd ha (by decide)
  have hzero : wrapMem.stack a = 0 := by
    show (if a = 0xfffff7fc then _ else if a = 0 then _ else _) = _
    rw [if_neg h1, if_neg h2]
  rw [hzero, xtPcIsValid_zero]

end BacktraceLog
