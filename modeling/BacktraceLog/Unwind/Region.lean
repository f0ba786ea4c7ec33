import BacktraceLog.Unwind.Windows

/-!
# Which code bytes matter

A stop depends on the code from it up to a little behind `pc`: a frame on
29 bytes behind `pc`, because the searches behind a `MOVI` look at 32 bytes
wherever `pc` is, and anything closer than four bytes on `pc` alone. So
the scan stays inside the region of `pc` unless that ends within the
window.
-/

namespace BacktraceLog

variable {c : CodeMap} {m m' : Mem} {pc sp lr : Word} {pb off : Nat}
  {r : Callee}

/-! ## Two memories -/

/-- The two memories hold the same words on the stack and the same code
from `lo` up to `hi`. -/
structure AgreeOn (m m' : Mem) (lo hi : Nat) : Prop where
  code : ∀ a, lo ≤ a → a < hi → m.code a = m'.code a
  stack : m.stack = m'.stack

theorem AgreeOn.symm {lo hi : Nat} (h : AgreeOn m m' lo hi) :
    AgreeOn m' m lo hi :=
  ⟨fun a h1 h2 => (h.code a h1 h2).symm, h.stack.symm⟩

/-- The bytes an instruction at `p` can have. -/
def SameInstr (m m' : Mem) (p : Nat) : Prop :=
  idx m p 0 = idx m' p 0 ∧ idx m p 1 = idx m' p 1 ∧ idx m p 2 = idx m' p 2

theorem decode_congr {p : Nat} (h : SameInstr m m' p) :
    (decode m).next p = (decode m').next p := by
  simp only [decode, h.1]

theorem subDecode_congr {p : Nat} (h : SameInstr m m' p) :
    (subDecode m).next p = (subDecode m').next p := by
  simp only [subDecode, h.1]

/-! ## What the walks depend on -/

theorem findAddimAxA1_congr {pc off : Nat} (ax : BitVec 8)
    (h : ∀ x, pc - off ≤ x → x < pc → SameInstr m m' x) :
    findAddimAxA1 m pc off ax = findAddimAxA1 m' pc off ax := by
  have hfind : (decode m).find? (isAddmi m ax) (pc - off) pc
      = (decode m').find? (isAddmi m' ax) (pc - off) pc := by
    refine Stride.find?_congr fun x h1 h2 => ?_
    have hx := h x h1 h2
    refine ⟨decode_congr hx, ?_⟩
    simp only [isAddmi, hx.1, hx.2.1]
  unfold findAddimAxA1
  rw [hfind]
  cases hf : (decode m').find? (isAddmi m' ax) (pc - off) pc with
  | none => rfl
  | some p =>
      have hp := Stride.find?_eq_some_iff.mp hf
      have himm := (h p hp.visits.le hp.lt_stop).2.2
      simp only [sidx, himm]

theorem findS32iA0A1_congr {pc off : Nat}
    (h : ∀ x, pc - off ≤ x → x < pc → SameInstr m m' x) :
    findS32iA0A1 m pc off = findS32iA0A1 m' pc off := by
  have hfind : (decode m).find? (fun p => isS32i m p || isS32iN m p)
        (pc - off) pc
      = (decode m').find? (fun p => isS32i m' p || isS32iN m' p)
        (pc - off) pc := by
    refine Stride.find?_congr fun x h1 h2 => ?_
    have hx := h x h1 h2
    refine ⟨decode_congr hx, ?_⟩
    simp only [isS32i, isS32iN, hx.1, hx.2.1]
  unfold findS32iA0A1
  rw [hfind]
  cases hf : (decode m').find? (fun p => isS32i m' p || isS32iN m' p)
    (pc - off) pc with
  | none => rfl
  | some q =>
      have hq := Stride.find?_eq_some_iff.mp hf
      have hle := hq.visits.le
      have hlt := hq.lt_stop
      have hx := h q hle hlt
      have haddmi : ∀ ax, findAddimAxA1 m q (q - (pc - off)) ax
          = findAddimAxA1 m' q (q - (pc - off)) ax := fun ax =>
        findAddimAxA1_congr ax fun x h1 h2 => h x (by omega) (by omega)
      have hwide : isS32i m q = isS32i m' q := by
        simp only [isS32i, hx.1, hx.2.1]
      simp only [a0StoreOffset, hwide, haddmi, hx.2.1, hx.2.2]

theorem foundWithin32_congr {test test' : Nat → Bool}
    (h : ∀ x, pb + 3 ≤ x → x < pb + 32 →
      SameInstr m m' x ∧ test x = test' x) :
    foundWithin32 m test pb = foundWithin32 m' test' pb := by
  unfold foundWithin32
  rw [Stride.find?_congr fun x h1 h2 =>
    ⟨subDecode_congr (h x h1 h2).1, (h x h1 h2).2⟩]

/-! ## What a stop depends on -/

theorem FrameAt.congr {size : Nat} (hframe : FrameAt m pb size)
    (h : ∀ x, pb ≤ x → x < pb + 32 → SameInstr m m' x) :
    FrameAt m' pb size := by
  have hpb := h pb (Nat.le_refl pb) (by omega)
  have hwindow : ∀ x, pb + 3 ≤ x → x < pb + 32 → SameInstr m m' x :=
    fun x h1 h2 => h x (by omega) h2
  have hmovi : isMovi m pb = isMovi m' pb := by
    simp only [isMovi, hpb.1, hpb.2.1]
  have himm : moviImm m pb = moviImm m' pb := by
    simp only [moviImm, hpb.2.1, hpb.2.2]
  cases hframe with
  | addi haddi hsize hpos hdvd =>
      have haddi' : isAddi m pb = isAddi m' pb := by
        simp only [isAddi, hpb.1, hpb.2.1]
      simp only [sidx, hpb.2.2] at hsize
      exact .addi (haddi' ▸ haddi) hsize hpos hdvd
  | sub hm hsize hpos hdvd hfound =>
      refine .sub (hmovi ▸ hm) (himm ▸ hsize) hpos hdvd ?_
      rw [← hfound]
      refine (foundWithin32_congr fun x h1 h2 => ?_).symm
      have hx := hwindow x h1 h2
      exact ⟨hx, by simp only [isSub, hpb.1, hx.1, hx.2.1, hx.2.2]⟩
  | add hm hsize hpos hdvd hfound =>
      have hn : foundWithin32 m (isAddN m pb) pb
          = foundWithin32 m' (isAddN m' pb) pb := by
        refine foundWithin32_congr fun x h1 h2 => ?_
        have hx := hwindow x h1 h2
        exact ⟨hx, by simp only [isAddN, hpb.1, hx.1, hx.2.1]⟩
      have ha : foundWithin32 m (isAdd m pb) pb
          = foundWithin32 m' (isAdd m' pb) pb := by
        refine foundWithin32_congr fun x h1 h2 => ?_
        have hx := hwindow x h1 h2
        exact ⟨hx, by simp only [isAdd, hpb.1, hx.1, hx.2.1, hx.2.2]⟩
      rw [hn, ha] at hfound
      exact .add (hmovi ▸ hm) (himm ▸ hsize) hpos hdvd hfound

theorem Released.congr {size a0 : Nat} (hr : Released m pc sp off size a0 r)
    (h : ∀ x, pc.toNat - off ≤ x → x < pc.toNat → SameInstr m m' x)
    (hstack : m.stack = m'.stack) : Released m' pc sp off size a0 r where
  slot := (findS32iA0A1_congr h).symm.trans hr.slot
  inside := hr.inside
  aligned := hr.aligned
  callee := by
    rw [← hstack]
    exact hr.callee

variable {iLr : Word}

variable {n : Nat} {w : Word}

end BacktraceLog
