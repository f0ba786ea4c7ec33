import BacktraceLog.Unwind.Code

/-!
# The a0 slot

What `find_s32i_a0_a1` makes of the first a0 store on the decode path: the
slot itself where the store is on the stack pointer, else the slot behind
the `ADDMI` that set its base register. With several of those the first
one is taken, and the last one is in force.
-/

namespace BacktraceLog

variable {m : Mem} {pc off q z : Nat} {ax : BitVec 8}

/-- The first a0 store on the decode path from `pc - off` is at `q`:
`s32i a0, ax, 4z` or `s32i.n a0, ax, 4z`. -/
structure FirstStore (m : Mem) (pc off q : Nat) (ax : BitVec 8) (z : Nat) :
    Prop where
  hit : (decode m).FirstHit (fun p => isS32i m p || isS32iN m p)
    pc (pc - off) q
  base : idx m q 1 &&& 0x0F = ax
  slot : isS32i m q = true ∧ (idx m q 2).toNat = z
    ∨ isS32iN m q = true ∧ (idx m q 1 >>> 4).toNat = z

/-- **What the first store gives**: its slot on top of what is found for
its base register, unless that is the failure. -/
theorem FirstStore.findS32iA0A1_eq (h : FirstStore m pc off q ax z) :
    findS32iA0A1 m pc off
      = if 0 ≤ findAddimAxA1 m q (q - (pc - off)) ax then
          findAddimAxA1 m q (q - (pc - off)) ax + 4 * z
        else findAddimAxA1 m q (q - (pc - off)) ax := by
  rw [findS32iA0A1, Stride.find?_eq_some_iff.mpr h.hit]
  simp only [a0StoreOffset, h.base]
  rcases h.slot with ⟨hwide, hz⟩ | ⟨hnarrow, hz⟩
  · rw [if_pos hwide, hz]
  · have hwide : isS32i m q ≠ true := by
      simp only [isS32iN, decide_eq_true_eq] at hnarrow
      simp [isS32i, hnarrow]
    rw [if_neg hwide, hz]
    rfl

/-- On the stack pointer itself nothing is added. -/
theorem FirstStore.on_a1 (h : FirstStore m pc off q 1 z) :
    findS32iA0A1 m pc off = 4 * z := by
  have ha1 : findAddimAxA1 m q (q - (pc - off)) 1 = 0 := if_pos rfl
  rw [h.findS32iA0A1_eq, ha1, if_pos (Int.le_refl 0), Int.zero_add]

/-! ## Another base register -/

/-- The `ADDMI` that is found is the first one. -/
theorem FirstStore.addmi_first (h : FirstStore m pc off q ax z)
    (hax : ax ≠ 1) {p : Nat}
    (hp : (decode m).FirstHit (isAddmi m ax) q (pc - off) p) :
    findAddimAxA1 m q (q - (pc - off)) ax = sidx m p 2 * 256 := by
  have hle := h.hit.visits.le
  have hstart : q - (q - (pc - off)) = pc - off := by omega
  rw [findAddimAxA1, if_neg hax, hstart, Stride.find?_eq_some_iff.mpr hp]

theorem FirstStore.addmi_none (h : FirstStore m pc off q ax z)
    (hax : ax ≠ 1)
    (hno : ∀ p, (decode m).Visits (pc - off) p → p < q →
      isAddmi m ax p = false) :
    findAddimAxA1 m q (q - (pc - off)) ax = -1 := by
  have hle := h.hit.visits.le
  have hstart : q - (q - (pc - off)) = pc - off := by omega
  rw [findAddimAxA1, if_neg hax, hstart, Stride.find?_eq_none_iff.mpr hno]

/-- The slot follows the value its base register has when the store
executes: that of the last `ADDMI` before it, if it is not negative; and
without one there is no slot. -/
def SlotFollowsBase (m : Mem) (pc off : Nat) : Prop :=
  ∀ q ax z, FirstStore m pc off q ax z → ax ≠ 1 →
    (∀ l, (decode m).LastHit (isAddmi m ax) q (pc - off) l →
      0 ≤ sidx m l 2 → findS32iA0A1 m pc off = 256 * sidx m l 2 + 4 * z)
    ∧ ((∀ p, (decode m).Visits (pc - off) p → p < q →
        isAddmi m ax p = false) → findS32iA0A1 m pc off = -1)

/-- The first `ADDMI` for the base register of the first store sets what
the last one sets, wherever that is not negative. -/
def FirstAddmiInForce (m : Mem) (pc off : Nat) : Prop :=
  ∀ q ax z, FirstStore m pc off q ax z → ax ≠ 1 →
    ∀ p l, (decode m).FirstHit (isAddmi m ax) q (pc - off) p →
      (decode m).LastHit (isAddmi m ax) q (pc - off) l →
      0 ≤ sidx m l 2 → sidx m p 2 = sidx m l 2

/-- **The slot follows its base register** just where the first `ADDMI`
is as good as the last. -/
theorem slot_follows_base_iff (m : Mem) (pc off : Nat) :
    SlotFollowsBase m pc off ↔ FirstAddmiInForce m pc off := by
  constructor
  · intro h q ax z hstore hax p l hp hl hpos
    have hslot := (h q ax z hstore hax).1 l hl hpos
    rw [hstore.findS32iA0A1_eq, hstore.addmi_first hax hp] at hslot
    split at hslot <;> omega
  · intro h q ax z hstore hax
    constructor
    · intro l hl hpos
      obtain ⟨p, hp, -⟩ := hl.visits.exists_firstHit hl.lt_stop hl.test_eq
      have hsame := h q ax z hstore hax p l hp hl hpos
      rw [hstore.findS32iA0A1_eq, hstore.addmi_first hax hp, hsame,
        if_pos (by omega)]
      omega
    · intro hno
      rw [hstore.findS32iA0A1_eq, hstore.addmi_none hax hno,
        if_neg (by decide)]

/-- `addmi a9, a1, 256`, `addmi a9, a1, 512`, `s32i a0, a9, 12`. -/
def twoAddmi : Mem where
  code a := [0x92, 0xd1, 0x01, 0x92, 0xd1, 0x02, 0x02, 0x69, 0x03].getD
    (a - 0x40100010) 0
  stack _ := 0

/-- The store goes to offset 524, and 268 is returned. -/
theorem slot_of_first_addmi :
    FirstStore twoAddmi 0x40100019 9 0x40100016 9 3
      ∧ (decode twoAddmi).LastHit (isAddmi twoAddmi 9) 0x40100016 0x40100010
        0x40100013
      ∧ 256 * sidx twoAddmi 0x40100013 2 + 4 * 3 = 524
      ∧ findS32iA0A1 twoAddmi 0x40100019 9 = 268 := by
  refine ⟨⟨Stride.find?_eq_some_iff.mp (by decide), by decide,
    .inl ⟨by decide, by decide⟩⟩, ⟨.step (.refl _), by decide, by decide,
    fun r _ hr ht => ?_⟩, by decide, by decide⟩
  refine Nat.le_of_not_lt fun hlt => ?_
  obtain rfl | rfl : r = 0x40100014 ∨ r = 0x40100015 := by omega
  · exact absurd ht (by decide)
  · exact absurd ht (by decide)

end BacktraceLog
