import Mathlib.Data.List.Basic
import BacktraceLog.Lib.Walk

/-!
# Ordered search with retries

An option-valued test over a range of positions has a list of hits,
nearest first. A search through a list settles on the first good entry; it
gives up at a dead one, and when its retries are used up.
-/

namespace Retry

variable {β : Type}

/-! ## The hits of a test -/

/-- The positions from `start` up to `stop` at which `f` hits, nearest
first, with what it yields there. -/
def hits (f : Nat → Option β) (start stop : Nat) : List (Nat × β) :=
  (List.range' start (stop - start)).filterMap fun i =>
    (f i).map fun b => (i, b)

variable {f : Nat → Option β} {start stop : Nat}

theorem mem_hits {i : Nat} {b : β} :
    (i, b) ∈ hits f start stop ↔ start ≤ i ∧ i < stop ∧ f i = some b := by
  simp only [hits, List.mem_filterMap, List.mem_range'_1,
    Option.map_eq_some_iff, Prod.mk.injEq]
  constructor
  · rintro ⟨j, hj, b', hb, rfl, rfl⟩
    exact ⟨hj.1, by omega, hb⟩
  · intro h
    exact ⟨i, by omega, b, h.2.2, rfl, rfl⟩

/-- The hits come in order. -/
theorem pairwise_hits :
    (hits f start stop).Pairwise fun x y => x.1 < y.1 := by
  rw [hits, List.pairwise_filterMap]
  refine List.Pairwise.imp ?_ (List.pairwise_lt_range' _)
  intro i j hij x hx y hy
  obtain ⟨_, -, rfl⟩ := Option.map_eq_some_iff.mp hx
  obtain ⟨_, -, rfl⟩ := Option.map_eq_some_iff.mp hy
  exact hij

theorem hits_of_le (h : stop ≤ start) : hits f start stop = [] := by
  rw [hits, Nat.sub_eq_zero_of_le h]
  rfl

theorem hits_step (h : start < stop) :
    hits f start stop = match f start with
      | some b => (start, b) :: hits f (start + 1) stop
      | none => hits f (start + 1) stop := by
  have hlen : stop - start = (stop - (start + 1)) + 1 := by omega
  rw [hits, hlen, List.range'_succ, List.filterMap_cons]
  cases f start with
  | none => rfl
  | some b => rfl

/-- The first hit of the byte-by-byte scan heads the list. -/
theorem hits_of_firstHit {i : Nat} {b : β}
    (h : Stride.one.FirstHit (fun i => (f i).isSome) stop start i)
    (hb : f i = some b) :
    hits f start stop = (i, b) :: hits f (i + 1) stop := by
  induction h with
  | here hlt _ =>
      rw [hits_step hlt, hb]
  | there hlt ht _ ih =>
      have hnone := Option.not_isSome_iff_eq_none.mp (Bool.eq_false_iff.mp ht)
      rw [hits_step hlt, hnone]
      exact ih hb

theorem hits_of_find?_none
    (h : Stride.one.find? (fun i => (f i).isSome) start stop = none) :
    hits f start stop = [] := by
  refine List.eq_nil_iff_forall_not_mem.mpr fun x hx => ?_
  obtain ⟨h1, h2, hx⟩ := mem_hits.mp hx
  have hsome : (f x.1).isSome = true := Option.isSome_iff_exists.mpr ⟨_, hx⟩
  have hit : ∃ r, Stride.one.FirstHit (fun i => (f i).isSome) stop start r
      ∧ r ≤ x.1 := (Stride.visits_one h1).exists_firstHit h2 hsome
  obtain ⟨r, hr, -⟩ := hit
  rw [Stride.find?_eq_some_iff.mpr hr] at h
  cases h

/-- How a search ends. -/
inductive Outcome (β : Type) where
  | found (b : β)
  | gaveUp (b : β)
  | ranOut

/-- The search, with the retries left. -/
def search (good dead : β → Bool) : Nat → List β → Outcome β
  | _, [] => .ranOut
  | n, b :: bs =>
      if good b then .found b
      else if dead b ∨ n ≤ 1 then .gaveUp b
      else search good dead (n - 1) bs

/-- The search with `n` retries comes as far as the entry `b`: fewer than
`n` entries stand before it, none of them good or dead. -/
structure Reaches (good dead : β → Bool) (n : Nat) (bs : List β) (k : Nat)
    (b : β) : Prop where
  lt : k < n
  entry : bs[k]? = some b
  before : ∀ j, j < k → ∀ x, bs[j]? = some x →
    good x = false ∧ dead x = false

variable {good dead : β → Bool} {n k : Nat} {bs : List β} {b x : β}

theorem reaches_head (hn : 0 < n) : Reaches good dead n (b :: bs) 0 b where
  lt := hn
  entry := rfl
  before := fun _ hj => absurd hj (Nat.not_lt_zero _)

theorem reaches_tail (hg : good x = false) (hd : dead x = false)
    (h : Reaches good dead (n - 1) bs k b) :
    Reaches good dead n (x :: bs) (k + 1) b where
  lt := by
    have := h.lt
    omega
  entry := h.entry
  before := by
    intro j hj y hy
    cases j with
    | zero =>
        obtain rfl : x = y := Option.some.inj hy
        exact ⟨hg, hd⟩
    | succ j => exact h.before j (by omega) y hy

/-- An entry behind the head is reached through it. -/
theorem Reaches.tail (h : Reaches good dead n (x :: bs) (k + 1) b) :
    good x = false ∧ dead x = false
      ∧ Reaches good dead (n - 1) bs k b := by
  have hx := h.before 0 (by omega) x rfl
  refine ⟨hx.1, hx.2, ?_, h.entry, ?_⟩
  · have := h.lt
    omega
  · intro j hj y hy
    exact h.before (j + 1) (by omega) y hy

/-- An entry that ends a search which comes as far: it is good, or dead, or
the last retry. -/
def Ends (good dead : β → Bool) (n k : Nat) (b : β) : Prop :=
  good b = true ∨ dead b = true ∨ k + 1 = n

/-- The outcome at the entry that ends a search. -/
def settle (good : β → Bool) (b : β) : Outcome β :=
  if good b then .found b else .gaveUp b

theorem settle_found_iff :
    settle good x = .found b ↔ x = b ∧ good b = true := by
  unfold settle
  by_cases hg : good x = true
  · rw [if_pos hg]
    constructor
    · intro h
      obtain rfl := Outcome.found.inj h
      exact ⟨rfl, hg⟩
    · intro h
      rw [h.1]
  · rw [if_neg hg]
    constructor
    · intro h
      cases h
    · rintro ⟨rfl, h⟩
      exact absurd h hg

theorem settle_gaveUp_iff :
    settle good x = .gaveUp b ↔ x = b ∧ good b = false := by
  unfold settle
  by_cases hg : good x = true
  · rw [if_pos hg]
    constructor
    · intro h
      cases h
    · rintro ⟨rfl, h⟩
      simp [hg] at h
  · rw [if_neg hg]
    constructor
    · intro h
      obtain rfl := Outcome.gaveUp.inj h
      exact ⟨rfl, by simpa using hg⟩
    · intro h
      rw [h.1]

/-- Past an entry that does not end it a search goes on, a retry less. -/
theorem search_step (hg : good x = false) (hd : dead x = false)
    (hn : 1 < n) :
    search good dead n (x :: bs) = search good dead (n - 1) bs := by
  have hgo : ¬ (dead x = true ∨ n ≤ 1) := by
    rintro (h | h)
    · simp [hd] at h
    · omega
  rw [search, hg, if_neg Bool.false_ne_true, if_neg hgo]

theorem ends_step (hn : 0 < n) :
    Ends good dead (n - 1) k b ↔ Ends good dead n (k + 1) b := by
  have hlast : k + 1 = n - 1 ↔ k + 1 + 1 = n := by omega
  rw [Ends, Ends, hlast]

/-- A search that reaches an entry which ends it, ends there. -/
theorem search_of_reaches (h : Reaches good dead n bs k b)
    (hend : Ends good dead n k b) :
    search good dead n bs = settle good b := by
  induction bs generalizing n k with
  | nil => cases h.entry
  | cons x bs ih =>
      cases k with
      | zero =>
          obtain rfl : x = b := Option.some.inj h.entry
          rw [search, settle]
          by_cases hg : good x = true
          · rw [if_pos hg, if_pos hg]
          · have hlt := h.lt
            have hstop : dead x = true ∨ n ≤ 1 := by
              rcases hend with hend | hend | hend
              · exact absurd hend hg
              · exact .inl hend
              · exact .inr (by omega)
            rw [if_neg hg, if_neg hg, if_pos hstop]
      | succ k =>
          obtain ⟨hg, hd, hrest⟩ := h.tail
          have hlt := h.lt
          rw [search_step hg hd (by omega)]
          exact ih hrest ((ends_step (by omega)).mpr hend)

/-- A search runs out, or ends at an entry it reaches. -/
theorem search_ends (good dead : β → Bool) (bs : List β) (hn : 0 < n) :
    search good dead n bs = .ranOut
      ∨ ∃ k b, Reaches good dead n bs k b ∧ Ends good dead n k b := by
  induction bs generalizing n with
  | nil => exact .inl rfl
  | cons x bs ih =>
      by_cases hend : Ends good dead n 0 x
      · exact .inr ⟨0, x, reaches_head hn, hend⟩
      · -- neither good nor dead, and retries are left
        simp only [Ends, not_or, Bool.not_eq_true] at hend
        obtain ⟨hg, hd, hlast⟩ := hend
        rw [search_step hg hd (by omega)]
        rcases ih (n := n - 1) (by omega) with h | ⟨k, b, hk, hb⟩
        · exact .inl h
        · exact .inr ⟨k + 1, b, reaches_tail hg hd hk, (ends_step hn).mp hb⟩

/-- **What a search finds** is the good entry it reaches. -/
theorem search_found_iff (hn : 0 < n) :
    search good dead n bs = .found b
      ↔ ∃ k, Reaches good dead n bs k b ∧ good b = true := by
  constructor
  · intro h
    rcases search_ends good dead bs hn with hout | ⟨k, x, hk, hend⟩
    · rw [hout] at h
      cases h
    · rw [search_of_reaches hk hend, settle_found_iff] at h
      obtain ⟨rfl, hg⟩ := h
      exact ⟨k, hk, hg⟩
  · rintro ⟨k, hk, hg⟩
    rw [search_of_reaches hk (.inl hg), settle_found_iff]
    exact ⟨rfl, hg⟩

/-- **Where a search gives up**: at an entry it reaches that is not good,
and is dead or the last retry. -/
theorem search_gaveUp_iff (hn : 0 < n) :
    search good dead n bs = .gaveUp b
      ↔ ∃ k, Reaches good dead n bs k b ∧ good b = false
        ∧ (dead b = true ∨ k + 1 = n) := by
  constructor
  · intro h
    rcases search_ends good dead bs hn with hout | ⟨k, x, hk, hend⟩
    · rw [hout] at h
      cases h
    · rw [search_of_reaches hk hend, settle_gaveUp_iff] at h
      obtain ⟨rfl, hg⟩ := h
      rcases hend with hend | hend
      · simp [hg] at hend
      · exact ⟨k, hk, hg, hend⟩
  · rintro ⟨k, hk, hg, hend⟩
    rw [search_of_reaches hk (.inr hend), settle_gaveUp_iff]
    exact ⟨rfl, hg⟩

end Retry
