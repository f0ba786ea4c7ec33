/-!
# Forward walks

A stride says where the next position is, always further on: `p + 1` for
a byte-by-byte scan, past the instruction at `p` for a linear decode. A
walk starts somewhere and ends at the first position at or after its
stop. The searching loop is executable, and its result is characterised
by the inductive `FirstHit`.
-/

/-- Where the next position is. -/
structure Stride where
  next : Nat → Nat
  lt_next : ∀ p, p < next p

namespace Stride

/-- Every position in turn. -/
def one : Stride := ⟨fun p => p + 1, Nat.lt_succ_self⟩

/-- The walk from `p` comes by `q`. -/
inductive Visits (d : Stride) : Nat → Nat → Prop where
  | refl (p : Nat) : Visits d p p
  | step {p q : Nat} : Visits d (d.next p) q → Visits d p q

/-- `q` is the first position of the walk from `p` that passes the test,
and lies before the stop. -/
inductive FirstHit (d : Stride) (test : Nat → Bool) (stop : Nat) :
    Nat → Nat → Prop where
  | here {p : Nat} : p < stop → test p = true → FirstHit d test stop p p
  | there {p q : Nat} : p < stop → test p = false →
      FirstHit d test stop (d.next p) q → FirstHit d test stop p q

variable {d : Stride} {test : Nat → Bool} {stop : Nat}

theorem Visits.le {p q : Nat} (h : Visits d p q) : p ≤ q := by
  induction h with
  | refl p => exact Nat.le_refl p
  | step _ ih =>
      rename_i p q _
      have := d.lt_next p
      omega

theorem FirstHit.lt_stop {p q : Nat} (h : FirstHit d test stop p q) :
    q < stop := by
  induction h with
  | here hlt _ => exact hlt
  | there _ _ _ ih => exact ih

theorem FirstHit.test_eq {p q : Nat} (h : FirstHit d test stop p q) :
    test q = true := by
  induction h with
  | here _ ht => exact ht
  | there _ _ _ ih => exact ih

theorem FirstHit.visits {p q : Nat} (h : FirstHit d test stop p q) :
    Visits d p q := by
  induction h with
  | here _ _ => exact .refl _
  | there _ _ _ ih => exact .step ih

theorem Visits.trans {p q r : Nat} (h : Visits d p q)
    (h' : Visits d q r) : Visits d p r := by
  induction h with
  | refl _ => exact h'
  | step _ ih => exact .step (ih h')

theorem Visits.next_of_lt {p q : Nat} (h : Visits d p q) (hlt : p < q) :
    Visits d (d.next p) q := by
  cases h with
  | refl _ => exact absurd hlt (Nat.lt_irrefl p)
  | step h => exact h

/-- One walk: what it comes by after `p` it comes by from `p` on. -/
theorem Visits.tail {s p q : Nat} (hp : Visits d s p) (hq : Visits d s q)
    (hlt : p < q) : Visits d (d.next p) q := by
  induction hp with
  | refl _ => exact hq.next_of_lt hlt
  | step hrest ih =>
      rename_i s p
      have hge := hrest.le
      have hnext := d.lt_next s
      exact ih (hq.next_of_lt (by omega)) hlt

/-- A walk that comes by a position passing the test has a first hit, no
later. -/
theorem Visits.exists_firstHit {p q : Nat} (h : Visits d p q)
    (hq : q < stop) (ht : test q = true) :
    ∃ r, FirstHit d test stop p r ∧ r ≤ q := by
  induction h with
  | refl p => exact ⟨p, .here hq ht, Nat.le_refl p⟩
  | step hrest ih =>
      rename_i p q
      obtain ⟨r, hr, hle⟩ := ih hq ht
      have hlt := d.lt_next p
      have hge := hrest.le
      by_cases hp : test p = true
      · exact ⟨p, .here (by omega) hp, by omega⟩
      · exact ⟨r, .there (by omega) (by simpa using hp) hr, hle⟩

/-- `q` is the last position before the stop that the walk from `p` comes
by and that passes the test. -/
structure LastHit (d : Stride) (test : Nat → Bool) (stop p q : Nat) :
    Prop where
  visits : Visits d p q
  lt_stop : q < stop
  test_eq : test q = true
  last : ∀ r, Visits d p r → r < stop → test r = true → r ≤ q

/-- The byte-by-byte scan comes by every position. -/
theorem visits_one {p q : Nat} (h : p ≤ q) : Visits one p q := by
  obtain ⟨n, rfl⟩ : ∃ n, q = p + n := ⟨q - p, by omega⟩
  induction n generalizing p with
  | zero => exact .refl p
  | succ n ih =>
      refine .step ?_
      show Visits one (p + 1) (p + (n + 1))
      rw [show p + (n + 1) = p + 1 + n by omega]
      exact ih (by omega)

theorem FirstHit.unique {p q r : Nat} (hq : FirstHit d test stop p q)
    (hr : FirstHit d test stop p r) : q = r := by
  induction hq with
  | here _ ht =>
      cases hr with
      | here _ _ => rfl
      | there _ hf _ => simp [ht] at hf
  | there _ hf _ ih =>
      cases hr with
      | here _ ht => simp [ht] at hf
      | there _ _ hr => exact ih hr

/-- The first hit does not depend on the stop behind it. -/
theorem FirstHit.cut {p q stop' : Nat} (h : FirstHit d test stop p q)
    (hq : q < stop') : FirstHit d test stop' p q := by
  induction h with
  | here _ ht => exact .here hq ht
  | there _ hf hrest ih =>
      rename_i p q _
      have hge := hrest.visits.le
      have hnext := d.lt_next p
      exact .there (by omega) hf (ih hq)

/-- A hit before an earlier stop is the first hit before the later one. -/
theorem firstHit_lt_iff {p q stop' : Nat} (h : FirstHit d test stop p q)
    (hle : stop' ≤ stop) : q < stop' ↔ ∃ r, FirstHit d test stop' p r := by
  constructor
  · intro hq
    exact ⟨q, h.cut hq⟩
  · rintro ⟨r, hr⟩
    have hlt := hr.lt_stop
    obtain rfl := h.unique (hr.cut (by omega))
    exact hlt

/-! ## Two walks -/

/-- A walk depends on the strides it takes only. -/
theorem Visits.congr {d' : Stride} {p q : Nat} (hv : Visits d p q)
    (h : ∀ x, p ≤ x → x < q → d.next x = d'.next x) : Visits d' p q := by
  induction hv with
  | refl p => exact .refl p
  | step hrest ih =>
      rename_i p q
      have hge := hrest.le
      have hn := d.lt_next p
      refine .step ?_
      rw [← h p (Nat.le_refl p) (by omega)]
      exact ih fun x hx hq => h x (by omega) hq

/-- A first hit depends on the strides and the tests before the stop
only. -/
theorem FirstHit.congr {d' : Stride} {test' : Nat → Bool} {p q : Nat}
    (hq : FirstHit d test stop p q)
    (h : ∀ x, p ≤ x → x < stop → d.next x = d'.next x ∧ test x = test' x) :
    FirstHit d' test' stop p q := by
  induction hq with
  | here hlt ht =>
      rename_i p
      exact .here hlt ((h p (Nat.le_refl p) hlt).2.symm.trans ht)
  | there hlt hf _ ih =>
      rename_i p q _
      have hn := d.lt_next p
      obtain ⟨hnext, htest⟩ := h p (Nat.le_refl p) hlt
      refine .there hlt (htest.symm.trans hf) ?_
      rw [← hnext]
      exact ih fun x hx hs => h x (by omega) hs

/-- `for (; p < stop; p = next p) if (test p) break;` with enough fuel. -/
def findAux (d : Stride) (test : Nat → Bool) (stop : Nat) :
    Nat → Nat → Option Nat
  | 0, _ => none
  | fuel + 1, p =>
      if p < stop then
        if test p then some p else findAux d test stop fuel (d.next p)
      else none

/-- The position at which the loop breaks, or `none` when it runs out. -/
def find? (d : Stride) (test : Nat → Bool) (start stop : Nat) :
    Option Nat :=
  findAux d test stop (stop - start) start

/-- The position at which `for (; p < stop; p = next p);` ends. -/
def landAux (d : Stride) (stop : Nat) : Nat → Nat → Nat
  | 0, p => p
  | fuel + 1, p => if p < stop then landAux d stop fuel (d.next p) else p

def land (d : Stride) (start stop : Nat) : Nat :=
  landAux d stop (stop - start) start

theorem findAux_eq_some_iff {fuel p q : Nat} (h : stop - p ≤ fuel) :
    findAux d test stop fuel p = some q ↔ FirstHit d test stop p q := by
  induction fuel generalizing p with
  | zero =>
      constructor
      · intro hf
        cases hf
      · intro hf
        have := hf.lt_stop
        have := hf.visits.le
        omega
  | succ fuel ih =>
      have hnext := d.lt_next p
      unfold findAux
      by_cases hlt : p < stop
      · rw [if_pos hlt]
        by_cases ht : test p = true
        · rw [if_pos ht]
          constructor
          · intro hq
            obtain rfl : p = q := Option.some.inj hq
            exact .here hlt ht
          · intro hq
            cases hq with
            | here _ _ => rfl
            | there _ hf _ => simp [ht] at hf
        · rw [if_neg ht, ih (by omega)]
          constructor
          · intro hq
            exact .there hlt (by simpa using ht) hq
          · intro hq
            cases hq with
            | here _ ht' => exact absurd ht' ht
            | there _ _ hq => exact hq
      · rw [if_neg hlt]
        constructor
        · intro hq
          cases hq
        · intro hq
          cases hq with
          | here hlt' _ => exact absurd hlt' hlt
          | there hlt' _ _ => exact absurd hlt' hlt

/-- **The loop finds the first hit.** -/
theorem find?_eq_some_iff {p q : Nat} :
    find? d test p stop = some q ↔ FirstHit d test stop p q :=
  findAux_eq_some_iff (Nat.le_refl _)

theorem find?_isSome_iff {p : Nat} :
    (find? d test p stop).isSome = true ↔ ∃ q, FirstHit d test stop p q := by
  rw [Option.isSome_iff_exists]
  constructor
  · rintro ⟨q, hq⟩
    exact ⟨q, find?_eq_some_iff.mp hq⟩
  · rintro ⟨q, hq⟩
    exact ⟨q, find?_eq_some_iff.mpr hq⟩

/-! ## The landing loop -/

theorem landAux_eq_iff {fuel p : Nat} (h : stop - p ≤ fuel)
    (hp : p ≤ stop) : landAux d stop fuel p = stop ↔ Visits d p stop := by
  induction fuel generalizing p with
  | zero =>
      obtain rfl : p = stop := by omega
      exact ⟨fun _ => .refl p, fun _ => rfl⟩
  | succ fuel ih =>
      have hnext := d.lt_next p
      unfold landAux
      by_cases hlt : p < stop
      · rw [if_pos hlt]
        -- the next position is at the stop or before it, or beyond it
        by_cases hin : d.next p ≤ stop
        · rw [ih (by omega) hin]
          constructor
          · intro hv
            exact .step hv
          · intro hv
            cases hv with
            | refl _ => exact absurd hlt (Nat.lt_irrefl _)
            | step hv => exact hv
        · have hover : ∀ fuel, landAux d stop fuel (d.next p) = d.next p := by
            intro fuel
            cases fuel with
            | zero => rfl
            | succ fuel =>
                unfold landAux
                rw [if_neg (by omega)]
          rw [hover]
          constructor
          · intro heq
            omega
          · intro hv
            cases hv with
            | refl _ => exact absurd hlt (Nat.lt_irrefl _)
            | step hv => exact absurd hv.le hin
      · obtain rfl : p = stop := by omega
        rw [if_neg hlt]
        exact ⟨fun _ => .refl p, fun _ => rfl⟩

/-- **Where the walk lands**: on the stop itself just when it comes by
it. -/
theorem land_eq_iff {p : Nat} (hp : p ≤ stop) :
    land d p stop = stop ↔ Visits d p stop :=
  landAux_eq_iff (Nat.le_refl _) hp

theorem find?_congr {d' : Stride} {test' : Nat → Bool} {p : Nat}
    (h : ∀ x, p ≤ x → x < stop → d.next x = d'.next x ∧ test x = test' x) :
    find? d test p stop = find? d' test' p stop := by
  refine Option.ext fun q => ?_
  rw [find?_eq_some_iff, find?_eq_some_iff]
  constructor
  · intro hq
    exact hq.congr h
  · intro hq
    exact hq.congr fun x hx hs => ⟨(h x hx hs).1.symm, (h x hx hs).2.symm⟩

/-- The loop runs out where the walk comes by no position that passes. -/
theorem find?_eq_none_iff {p : Nat} :
    find? d test p stop = none
      ↔ ∀ q, Visits d p q → q < stop → test q = false := by
  constructor
  · intro h q hv hq
    refine Bool.eq_false_iff.mpr fun ht => ?_
    obtain ⟨r, hr, -⟩ := hv.exists_firstHit hq ht
    rw [find?_eq_some_iff.mpr hr] at h
    cases h
  · intro h
    cases hf : find? d test p stop with
    | none => rfl
    | some q =>
        have hq := find?_eq_some_iff.mp hf
        have hno := h q hq.visits hq.lt_stop
        simp [hq.test_eq] at hno

/-- Without a position that passes, the loop runs out. -/
theorem find?_eq_none {p : Nat}
    (h : ∀ q, p ≤ q → q < stop → test q = false) :
    find? d test p stop = none :=
  find?_eq_none_iff.mpr fun q hv hq => h q hv.le hq

/-- A byte-by-byte search stops at the first position that passes. -/
theorem firstHit_one {p q : Nat} (hpq : p ≤ q) (hq : q < stop)
    (ht : test q = true) (hn : ∀ r, p ≤ r → r < q → test r = false) :
    FirstHit one test stop p q := by
  obtain ⟨n, rfl⟩ : ∃ n, q = p + n := ⟨q - p, by omega⟩
  induction n generalizing p with
  | zero => exact .here hq ht
  | succ n ih =>
      refine .there (by omega) (hn p (Nat.le_refl p) (by omega)) ?_
      have hstep : p + (n + 1) = p + 1 + n := by omega
      rw [hstep] at hq ht hn ⊢
      show FirstHit one test stop (p + 1) (p + 1 + n)
      exact ih (by omega) hq ht fun r h1 h2 => hn r (by omega) h2

end Stride
