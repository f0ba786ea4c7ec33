import BacktraceLog.Lib.Retry
import BacktraceLog.Unwind.Stop

/-!
# The scan as an ordered search

The stops before `pc`, nearest first, and `xt_retaddr_callee_ex` as the
search with retries through them: it finds the first stop with a valid
candidate, and gives up at a NULL candidate or when the retries are used
up.
-/

namespace BacktraceLog

variable {c : CodeMap} {m : Mem} {pc sp lr : Word} {off : Nat} {r : Callee}

/-! ## The stops in order -/

/-- The stops before `pc`, nearest first, with their candidates. -/
def stops (c : CodeMap) (m : Mem) (pc sp lr : Word) :
    List (Nat × Callee) :=
  Retry.hits (stopAt c m pc sp lr) 2 (prevTextSize c pc)

theorem mem_stops :
    (off, r) ∈ stops c m pc sp lr
      ↔ 2 ≤ off ∧ off < prevTextSize c pc ∧ Stop c m pc sp lr off r := by
  rw [stops, Retry.mem_hits, stopAt_eq_some_iff]

theorem stops_sorted :
    (stops c m pc sp lr).Pairwise fun x y => x.1 < y.1 :=
  Retry.pairwise_hits

/-- The candidate is a code address. -/
def validStop (c : CodeMap) (x : Nat × Callee) : Bool :=
  xtPcIsValid c x.2.pc

/-- The candidate is NULL. -/
def nullStop (x : Nat × Callee) : Bool := x.2.pc = 0

/-- The search through the stops, with `n` retries. -/
def searchStops (c : CodeMap) (n : Nat) (xs : List (Nat × Callee)) :
    Retry.Outcome (Nat × Callee) :=
  Retry.search (validStop c) nullStop n xs

/-! ## The loops are the search -/

/-- How the outer loop leaves `off` and its variables when the search ends
so. -/
def LoopEnds (size : Nat) : Retry.Outcome (Nat × Callee) →
    Nat × Callee → Prop
  | .found x, e => e = x
  | .gaveUp x, e => e = (x.1 + 1, x.2)
  | .ranOut, e => size ≤ e.1

/-- **The outer loop is the search**, entered with retries left and a
`pc` that is not NULL. -/
theorem retryLoop_search {n : Nat} (hn : 0 < n) (hr : r.pc ≠ 0) :
    LoopEnds (prevTextSize c pc)
      (searchStops c n
        (Retry.hits (stopAt c m pc sp lr) off (prevTextSize c pc)))
      (retryLoop c m pc sp lr n off r) := by
  induction n generalizing off r with
  | zero => exact absurd hn (Nat.lt_irrefl 0)
  | succ n ih =>
      unfold retryLoop
      by_cases hoff : off < prevTextSize c pc
      · rw [if_pos ⟨hoff, hr⟩]
        cases hscan : scanBack c m pc sp lr off with
        | none =>
            rw [Retry.hits_of_find?_none hscan]
            exact Nat.le_refl _
        | some off₁ =>
            obtain ⟨-, -, r₁, hstop⟩ := scanBack_some hscan
            rw [Retry.hits_of_firstHit (Stride.find?_eq_some_iff.mp hscan)
              hstop]
            simp only [hstop, Option.getD_some, searchStops, Retry.search]
            by_cases hv : xtPcIsValid c r₁.pc = true
            · rw [if_pos hv, if_pos (show validStop c (off₁, r₁) = true from hv)]
              rfl
            rw [if_neg hv,
              if_neg (show ¬ validStop c (off₁, r₁) = true from hv)]
            by_cases hend : nullStop (off₁, r₁) = true ∨ n + 1 ≤ 1
            · -- the loop is left at its guard
              rw [if_pos hend]
              cases n with
              | zero => rfl
              | succ n =>
                  have hnull : r₁.pc = 0 := by
                    rcases hend with hend | hend
                    · exact of_decide_eq_true hend
                    · omega
                  unfold retryLoop
                  rw [if_neg fun h => h.2 hnull]
                  rfl
            · rw [if_neg hend]
              have hpc : r₁.pc ≠ 0 := fun h0 =>
                hend (.inl (decide_eq_true h0))
              exact ih (by omega) hpc
      · rw [if_neg fun h => hoff h.1,
          Retry.hits_of_le (Nat.le_of_not_lt hoff)]
        exact Nat.le_of_not_lt hoff

/-- What `xt_retaddr_callee_ex` returns and leaves in the outputs. -/
def calleeResult (size : Nat) (o : Callee) :
    Retry.Outcome (Nat × Callee) → Bool × Callee
  | .found x => (true, x.2)
  | .gaveUp x => (false, if x.1 + 1 < size then x.2 else { o with fn := 0 })
  | .ranOut => (false, { o with fn := 0 })

theorem search_found {n : Nat} {x : Nat × Callee} (hn : 0 < n)
    (h : searchStops c n (stops c m pc sp lr) = .found x) :
    x.1 < prevTextSize c pc ∧ xtPcIsValid c x.2.pc = true := by
  obtain ⟨k, hk, hvalid⟩ := (Retry.search_found_iff hn).mp h
  have hmem := mem_stops.mp (List.mem_of_getElem? hk.entry)
  exact ⟨hmem.2.1, hvalid⟩

theorem search_gaveUp {n : Nat} {x : Nat × Callee} (hn : 0 < n)
    (h : searchStops c n (stops c m pc sp lr) = .gaveUp x) :
    xtPcIsValid c x.2.pc = false := by
  obtain ⟨k, -, hvalid, -⟩ := (Retry.search_gaveUp_iff hn).mp h
  exact hvalid

/-- **One unwind is the search through the stops.** -/
theorem xtRetaddrCalleeEx_search (iLr : Word) (o : Callee) :
    xtRetaddrCalleeEx c m pc sp iLr o
      = calleeResult (prevTextSize c pc) o
        (searchStops c c.maxRetry
          (stops c m pc sp (usableLr c iLr))) := by
  rw [xtRetaddrCalleeEx_eq]
  by_cases hsize : prevTextSize c pc = 0
  · -- nothing to scan
    have hnone : stops c m pc sp (usableLr c iLr) = [] :=
      Retry.hits_of_le (by omega)
    rw [hnone, hsize, if_neg (Nat.not_lt_zero _)]
    rfl
  have hpc : pc ≠ 0 := ne_zero_of_text c (by omega)
  have hloop : LoopEnds (prevTextSize c pc)
      (searchStops c c.maxRetry (stops c m pc sp (usableLr c iLr)))
      (retryLoop c m pc sp (usableLr c iLr) c.maxRetry 2 ⟨pc, sp, 0⟩) :=
    retryLoop_search c.retry_pos hpc
  cases hs : searchStops c c.maxRetry (stops c m pc sp (usableLr c iLr)) with
  | found x =>
      obtain ⟨hlt, hvalid⟩ := search_found c.retry_pos hs
      rw [hs] at hloop
      rw [show retryLoop _ _ _ _ _ _ _ _ = x from hloop, if_pos hlt, hvalid]
      rfl
  | gaveUp x =>
      have hvalid := search_gaveUp c.retry_pos hs
      rw [hs] at hloop
      rw [show retryLoop _ _ _ _ _ _ _ _ = (x.1 + 1, x.2) from hloop]
      show (if x.1 + 1 < _ then (xtPcIsValid c x.2.pc, x.2) else _) = _
      rw [hvalid, calleeResult]
      split <;> rfl
  | ranOut =>
      rw [hs] at hloop
      rw [if_neg (Nat.not_lt_of_le hloop)]
      rfl

/-! ## The nearest valid stop -/

/-- The search with all retries comes to the `k`-th stop before `pc`. -/
abbrev ComesTo (c : CodeMap) (m : Mem) (pc sp lr : Word) (k off : Nat)
    (r : Callee) : Prop :=
  Retry.Reaches (validStop c) nullStop c.maxRetry (stops c m pc sp lr) k
    (off, r)

theorem callee_success_iff {iLr : Word} {o : Callee} :
    xtRetaddrCalleeEx c m pc sp iLr o = (true, r)
      ↔ ∃ k off, ComesTo c m pc sp (usableLr c iLr) k off r
        ∧ xtPcIsValid c r.pc = true := by
  rw [xtRetaddrCalleeEx_search]
  constructor
  · intro h
    cases hs : searchStops c c.maxRetry (stops c m pc sp (usableLr c iLr)) with
    | found x =>
        rw [hs] at h
        obtain ⟨-, rfl⟩ := Prod.mk.inj h
        obtain ⟨k, hk, hvalid⟩ := (Retry.search_found_iff c.retry_pos).mp hs
        exact ⟨k, x.1, hk, hvalid⟩
    | gaveUp x =>
        rw [hs] at h
        cases (Prod.mk.inj h).1
    | ranOut =>
        rw [hs] at h
        cases (Prod.mk.inj h).1
  · rintro ⟨k, off, hk, hvalid⟩
    have hfound : searchStops c c.maxRetry
        (stops c m pc sp (usableLr c iLr)) = .found (off, r) :=
      (Retry.search_found_iff c.retry_pos).mpr ⟨k, hk, hvalid⟩
    rw [hfound]
    rfl

/-- A call that does not succeed fails. -/
theorem callee_fails {iLr : Word} {o : Callee}
    (h : ∀ r, xtRetaddrCalleeEx c m pc sp iLr o ≠ (true, r)) :
    (xtRetaddrCalleeEx c m pc sp iLr o).1 = false :=
  Bool.eq_false_iff.mpr fun htrue => h _ (Prod.ext htrue rfl)

/-- A stop nearer than one the search comes to was passed over. -/
theorem ComesTo.nearer {k : Nat} {x : Nat × Callee}
    (h : ComesTo c m pc sp lr k off r) (hx : x ∈ stops c m pc sp lr)
    (hlt : x.1 < off) : validStop c x = false ∧ nullStop x = false := by
  obtain ⟨j, hj, rfl⟩ := List.getElem_of_mem hx
  refine h.before j ?_ _ (List.getElem?_eq_getElem hj)
  refine Nat.lt_of_not_le fun hkj => ?_
  obtain ⟨hk, hentry⟩ := List.getElem?_eq_some_iff.mp h.entry
  have hle : (stops c m pc sp lr)[k].1 ≤ (stops c m pc sp lr)[j].1 := by
    rcases Nat.lt_or_eq_of_le hkj with hkj | rfl
    · exact Nat.le_of_lt
        (List.pairwise_iff_getElem.mp stops_sorted k j hk hj hkj)
    · exact Nat.le_refl _
  rw [hentry] at hle
  exact absurd hlt (Nat.not_lt_of_le hle)

/-- **The retry loops compute an ordered first match**: the list of stops
holds the stops before `pc` in increasing distance, and the call succeeds
with `r` just when one of the first `BACKTRACE_MAX_RETRY` of them has the
valid candidate `r` and all nearer ones have invalid candidates that are
not NULL. -/
theorem callee_nearest_valid_stop (c : CodeMap) (m : Mem)
    (iPc iSp iLr : Word) (o r : Callee) :
    ((stops c m iPc iSp (usableLr c iLr)).Pairwise (fun x y => x.1 < y.1)
      ∧ ∀ off s, (off, s) ∈ stops c m iPc iSp (usableLr c iLr)
        ↔ 2 ≤ off ∧ off < prevTextSize c iPc
          ∧ Stop c m iPc iSp (usableLr c iLr) off s)
      ∧ (xtRetaddrCalleeEx c m iPc iSp iLr o = (true, r)
        ↔ ∃ k off, k < c.maxRetry
          ∧ (stops c m iPc iSp (usableLr c iLr))[k]? = some (off, r)
          ∧ xtPcIsValid c r.pc = true
          ∧ ∀ j, j < k → ∀ off' s,
            (stops c m iPc iSp (usableLr c iLr))[j]? = some (off', s) →
            s.pc ≠ 0 ∧ xtPcIsValid c s.pc = false) := by
  refine ⟨⟨stops_sorted, fun off s => mem_stops⟩, ?_⟩
  rw [callee_success_iff]
  constructor
  · rintro ⟨k, off, hk, hvalid⟩
    refine ⟨k, off, hk.lt, hk.entry, hvalid, fun j hj off' s hjs => ?_⟩
    obtain ⟨hinvalid, hnull⟩ := hk.before j hj _ hjs
    exact ⟨of_decide_eq_false hnull, hinvalid⟩
  · rintro ⟨k, off, hk, hentry, hvalid, hbefore⟩
    refine ⟨k, off, ⟨hk, hentry, fun j hj x hx => ?_⟩, hvalid⟩
    obtain ⟨hpc, hinvalid⟩ := hbefore j hj x.1 x.2 hx
    exact ⟨hinvalid, decide_eq_false hpc⟩

/-- **Success comes from a stop**, and only the outputs of that stop are
stored. -/
theorem callee_success {iLr : Word} {o : Callee}
    (h : xtRetaddrCalleeEx c m pc sp iLr o = (true, r)) :
    xtPcIsValid c r.pc = true ∧ ∃ off, 2 ≤ off ∧ off < prevTextSize c pc
      ∧ stopAt c m pc sp (usableLr c iLr) off = some r := by
  obtain ⟨k, off, hk, hvalid⟩ := callee_success_iff.mp h
  obtain ⟨h2, hoff, hstop⟩ := mem_stops.mp (List.mem_of_getElem? hk.entry)
  exact ⟨hvalid, off, h2, hoff, stopAt_eq_some_iff.mpr hstop⟩

/-- A stop with a valid candidate is not the handler: it is a frame, or a
return by a link register that is valid. -/
theorem Stop.of_valid {iLr : Word} {off : Nat} {r : Callee}
    (h : Stop c m pc sp (usableLr c iLr) off r)
    (hvalid : xtPcIsValid c r.pc = true) :
    (∃ size a0, FrameAt m (pc.toNat - off) size
        ∧ Released m pc sp off size a0 r)
      ∨ isRet m (pc.toNat - off) = true
        ∧ (decode m).Visits (pc.toNat - off) pc.toNat
        ∧ (off ≤ 8 ∨ c.maxLookback < off)
        ∧ xtPcIsValid c iLr = true ∧ r = ⟨iLr, sp, 0⟩ := by
  cases h with
  | handler _ =>
      rw [xtPcIsValid_zero] at hvalid
      cases hvalid
  | frame _ hframe hr => exact .inl ⟨_, _, hframe, hr⟩
  | ret _ hret hpath hrange =>
      by_cases hlr : xtPcIsValid c iLr = true
      · have huse : usableLr c iLr = iLr := if_pos hlr
        rw [huse]
        exact .inr ⟨hret, hpath, hrange, hlr, rfl⟩
      · have huse : usableLr c iLr = 0 := if_neg hlr
        rw [huse, xtPcIsValid_zero] at hvalid
        cases hvalid

/-- A nearest stop with a valid candidate is the result. -/
theorem callee_first {iLr : Word} (o : Callee)
    (hstop : NextStop c m pc sp (usableLr c iLr) 2 off r)
    (hvalid : xtPcIsValid c r.pc = true) :
    xtRetaddrCalleeEx c m pc sp iLr o = (true, r) := by
  have hhead := Retry.hits_of_firstHit
    (Stride.find?_eq_some_iff.mp hstop.1) hstop.2
  refine callee_success_iff.mpr ⟨0, off, ?_, hvalid⟩
  rw [ComesTo, stops, hhead]
  exact Retry.reaches_head c.retry_pos

/-! ## Unwinding as a relation -/

/-- `struct BACKTRACE_PC_SP` -/
structure PcSp where
  pc : Word
  sp : Word
deriving DecidableEq, Repr

/-- From `f` the call succeeds with `g`, whatever the outputs hold. -/
def Unwinds (c : CodeMap) (m : Mem) (lr : Word) (f g : PcSp) : Prop :=
  ∃ fn, ∀ o, xtRetaddrCalleeEx c m f.pc f.sp lr o = (true, ⟨g.pc, g.sp, fn⟩)

/-- From `f` the call fails, whatever the outputs hold. -/
def Stuck (c : CodeMap) (m : Mem) (lr : Word) (f : PcSp) : Prop :=
  ∀ o, (xtRetaddrCalleeEx c m f.pc f.sp lr o).1 = false

/-- Success and what it yields do not depend on the prior outputs. -/
theorem callee_success_congr {iLr : Word} {o : Callee}
    (h : xtRetaddrCalleeEx c m pc sp iLr o = (true, r)) (o' : Callee) :
    xtRetaddrCalleeEx c m pc sp iLr o' = (true, r) :=
  callee_success_iff.mpr (callee_success_iff.mp h)

theorem unwinds_of_callee {f : PcSp} {o : Callee}
    (h : xtRetaddrCalleeEx c m f.pc f.sp lr o = (true, r)) :
    Unwinds c m lr f ⟨r.pc, r.sp⟩ :=
  ⟨r.fn, callee_success_congr h⟩

theorem stuck_of_callee {f : PcSp} {o : Callee}
    (h : (xtRetaddrCalleeEx c m f.pc f.sp lr o).1 = false) :
    Stuck c m lr f := by
  refine fun o' => callee_fails fun r hcall => ?_
  rw [callee_success_congr hcall o] at h
  cases h

/-- One or the other. -/
theorem unwinds_or_stuck (c : CodeMap) (m : Mem) (lr : Word) (f : PcSp) :
    (∃ g, Unwinds c m lr f g) ∨ Stuck c m lr f := by
  by_cases h : (xtRetaddrCalleeEx c m f.pc f.sp lr ⟨0, 0, 0⟩).1 = true
  · exact .inl ⟨_, unwinds_of_callee (Prod.ext h rfl)⟩
  · exact .inr (stuck_of_callee (by simpa using h))

theorem Unwinds.valid {f g : PcSp} (h : Unwinds c m lr f g) :
    xtPcIsValid c g.pc = true := by
  obtain ⟨fn, h⟩ := h
  obtain ⟨k, off, -, hvalid⟩ := callee_success_iff.mp (h ⟨0, 0, 0⟩)
  exact hvalid

/-- `n` unwinds, the link register for the first one only. -/
def unwind (c : CodeMap) (m : Mem) : Nat → Word → PcSp → Option PcSp
  | 0, _, f => some f
  | n + 1, lr, f =>
      let r := xtRetaddrCalleeEx c m f.pc f.sp lr ⟨f.pc, f.sp, 0⟩
      if r.1 then unwind c m n 0 ⟨r.2.pc, r.2.sp⟩ else none

theorem unwind_unwinds {f g : PcSp} {n : Nat} (h : Unwinds c m lr f g) :
    unwind c m (n + 1) lr f = unwind c m n 0 g := by
  obtain ⟨fn, h⟩ := h
  simp only [unwind, h, if_true]

theorem unwind_stuck {f : PcSp} {n : Nat} (h : Stuck c m lr f) :
    unwind c m (n + 1) lr f = none := by
  have hfail := h ⟨f.pc, f.sp, 0⟩
  simp only [unwind, hfail, Bool.false_eq_true, if_false]

/-- Unwinds are done one after the other. -/
theorem unwind_add (j n : Nat) (f : PcSp) :
    unwind c m (j + n) 0 f = (unwind c m j 0 f).bind (unwind c m n 0) := by
  induction j generalizing f with
  | zero =>
      rw [Nat.zero_add]
      rfl
  | succ j ih =>
      rw [show j + 1 + n = j + n + 1 by omega]
      rcases unwinds_or_stuck c m 0 f with ⟨g, hg⟩ | hstuck
      · rw [unwind_unwinds hg, unwind_unwinds hg]
        exact ih g
      · rw [unwind_stuck hstuck, unwind_stuck hstuck]
        rfl

end BacktraceLog
