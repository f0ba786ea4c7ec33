import BacktraceLog.Lib.Walk

/-!
# Computations that read

A computation that reads a memory an item at a time, and may decide by
each what to do next. `Gives` is its meaning over a memory that is just
there, and says which places it reads. `run` is what it does with a
reader that has a state of its own, a cache for one. The two agree where
the reader is right about the places read.
-/

/-- A computation of an `α`, by reads of `β`s at places `ρ`. -/
inductive Reading (ρ β α : Type) where
  | done (a : α)
  | read (r : ρ) (k : β → Reading ρ β α)

namespace Reading

variable {ρ β α γ σ : Type}

def bind : Reading ρ β α → (α → Reading ρ β γ) → Reading ρ β γ
  | done a, f => f a
  | read r k, f => read r fun b => bind (k b) f

instance : Monad (Reading ρ β) where
  pure := done
  bind := bind

/-- One read. -/
def get (r : ρ) : Reading ρ β β := read r done

/-- What is asked of the outcome. -/
def test (p : Reading ρ β α) (c : α → Bool) : Reading ρ β Bool := do
  return c (← p)

/-- `p && q`, without the reads of `q` where `p` is false. -/
def and (p q : Reading ρ β Bool) : Reading ρ β Bool := do
  if ← p then q else return false

/-- `p || q`, without the reads of `q` where `p` is true. -/
def or (p q : Reading ρ β Bool) : Reading ρ β Bool := do
  if ← p then return true else q

/-- One computation after the other. -/
def inOrder : List (Reading ρ β α) → Reading ρ β (List α)
  | [] => return []
  | p :: ps => do
      let a ← p
      return a :: (← inOrder ps)

/-- `for (; p < stop; p = next p) { .. break; .. }` with enough fuel: what
the body breaks with. -/
def scanAux (next : Nat → Reading ρ β Nat)
    (body : Nat → Reading ρ β (Option α)) (stop : Nat) :
    Nat → Nat → Reading ρ β (Option α)
  | 0, _ => return none
  | fuel + 1, p =>
      if p < stop then do
        match ← body p with
        | some a => return some a
        | none => scanAux next body stop fuel (← next p)
      else return none

def scan (next : Nat → Reading ρ β Nat)
    (body : Nat → Reading ρ β (Option α)) (start stop : Nat) :
    Reading ρ β (Option α) :=
  scanAux next body stop (stop - start) start

/-- The position at which `for (; p < stop; p = next p);` ends. -/
def walkAux (next : Nat → Reading ρ β Nat) (stop : Nat) :
    Nat → Nat → Reading ρ β Nat
  | 0, p => return p
  | fuel + 1, p =>
      if p < stop then do walkAux next stop fuel (← next p) else return p

def walk (next : Nat → Reading ρ β Nat) (start stop : Nat) :
    Reading ρ β Nat :=
  walkAux next stop (stop - start) start

/-- The run with a reader: the outcome, and the reader's state. -/
def run (reader : σ → ρ → β × σ) : Reading ρ β α → σ → α × σ
  | done a, s => (a, s)
  | read r k, s => run reader (k (reader s r).1) (reader s r).2

/-- The places read over a memory, in order. -/
def reads (mem : ρ → β) : Reading ρ β α → List ρ
  | done _ => []
  | read r k => r :: reads mem (k (mem r))

/-! ## Over a memory -/

/-- Over the memory the computation comes to `a`, by reads in `P` only. -/
inductive Gives (mem : ρ → β) (P : ρ → Prop) :
    Reading ρ β α → α → Prop where
  | done (a : α) : Gives mem P (.done a) a
  | read {r : ρ} {k : β → Reading ρ β α} {a : α} :
      P r → Gives mem P (k (mem r)) a → Gives mem P (.read r k) a

namespace Gives

variable {mem : ρ → β} {P : ρ → Prop} {p q : Reading ρ β α} {a : α}

theorem pure (a : α) :
    Gives mem P (Pure.pure a : Reading ρ β α) a := .done a

theorem get {r : ρ} (h : P r) : Gives mem P (.get r) (mem r) :=
  .read h (.done _)

theorem bind {f : α → Reading ρ β γ} {c : γ} (hp : Gives mem P p a)
    (hf : Gives mem P (f a) c) : Gives mem P (p >>= f) c := by
  induction hp with
  | done a => exact hf
  | read hr _ ih => exact .read hr (ih hf)

/-- Every place read is in `P`. -/
theorem reads (h : Gives mem P p a) : ∀ r ∈ p.reads mem, P r := by
  induction h with
  | done a =>
      intro r hr
      cases hr
  | read hr _ ih =>
      intro r' hr'
      rcases List.mem_cons.mp hr' with rfl | hr'
      · exact hr
      · exact ih r' hr'

theorem ite {c : Prop} [Decidable c] {a' : α}
    (hp : c → Gives mem P p a) (hq : ¬ c → Gives mem P q a') :
    Gives mem P (if c then p else q) (if c then a else a') := by
  by_cases h : c
  · rw [if_pos h, if_pos h]
    exact hp h
  · rw [if_neg h, if_neg h]
    exact hq h

theorem test (h : Gives mem P p a) (c : α → Bool) :
    Gives mem P (p.test c) (c a) := h.bind (.pure _)

variable {x y : Reading ρ β Bool} {b b' : Bool}

theorem and (hx : Gives mem P x b) (hy : b = true → Gives mem P y b') :
    Gives mem P (x.and y) (b && b') := by
  refine hx.bind ?_
  cases b with
  | false => exact .pure false
  | true => exact hy rfl

theorem or (hx : Gives mem P x b) (hy : b = false → Gives mem P y b') :
    Gives mem P (x.or y) (b || b') := by
  refine hx.bind ?_
  cases b with
  | false => exact hy rfl
  | true => exact .pure true

theorem inOrder {ι : Type} {f : ι → Reading ρ β α} {g : ι → α}
    {l : List ι} (h : ∀ i ∈ l, Gives mem P (f i) (g i)) :
    Gives mem P (.inOrder (l.map f)) (l.map g) := by
  induction l with
  | nil => exact .pure []
  | cons i l ih =>
      have hl := ih fun j hj => h j (List.mem_cons_of_mem i hj)
      exact (h i List.mem_cons_self).bind (hl.bind (.pure _))

/-! ## Loops -/

variable {d : Stride} {next : Nat → Reading ρ β Nat} {start stop : Nat}

/-- What a scanning loop breaks with is what its body says at the first
hit. -/
theorem scanAux {body : Nat → Reading ρ β (Option α)} {hit : Nat → Bool}
    {out : Nat → α} {fuel p : Nat} (hp : start ≤ p)
    (hbody : ∀ q, start ≤ q → q < stop →
      Gives mem P (body q) (if hit q then some (out q) else none))
    (hnext : ∀ q, start ≤ q → q < stop → Gives mem P (next q) (d.next q)) :
    Gives mem P (.scanAux next body stop fuel p)
      ((d.findAux hit stop fuel p).map out) := by
  induction fuel generalizing p with
  | zero => exact .pure none
  | succ fuel ih =>
      have hlt := d.lt_next p
      unfold Reading.scanAux Stride.findAux
      by_cases hstop : p < stop
      · rw [if_pos hstop, if_pos hstop]
        refine (hbody p hp hstop).bind ?_
        by_cases hhit : hit p = true
        · rw [if_pos hhit, if_pos hhit]
          exact .pure _
        · rw [if_neg hhit, if_neg hhit]
          exact (hnext p hp hstop).bind (ih (by omega))
      · rw [if_neg hstop, if_neg hstop]
        exact .pure none

theorem scan {body : Nat → Reading ρ β (Option α)} {hit : Nat → Bool}
    {out : Nat → α}
    (hbody : ∀ q, start ≤ q → q < stop →
      Gives mem P (body q) (if hit q then some (out q) else none))
    (hnext : ∀ q, start ≤ q → q < stop → Gives mem P (next q) (d.next q)) :
    Gives mem P (.scan next body start stop)
      ((d.find? hit start stop).map out) :=
  scanAux (Nat.le_refl start) hbody hnext

theorem walkAux {fuel p : Nat} (hp : start ≤ p)
    (hnext : ∀ q, start ≤ q → q < stop → Gives mem P (next q) (d.next q)) :
    Gives mem P (.walkAux next stop fuel p) (d.landAux stop fuel p) := by
  induction fuel generalizing p with
  | zero => exact .pure p
  | succ fuel ih =>
      have hlt := d.lt_next p
      unfold Reading.walkAux Stride.landAux
      refine .ite (fun hstop => ?_) fun _ => .pure p
      exact (hnext p hp hstop).bind (ih (by omega))

theorem walk
    (hnext : ∀ q, start ≤ q → q < stop → Gives mem P (next q) (d.next q)) :
    Gives mem P (.walk next start stop) (d.land start stop) :=
  walkAux (Nat.le_refl start) hnext

/-! ## With a reader -/

/-- **A reader cannot be told from the memory** it is right about, as long
as its invariant holds. -/
theorem run {reader : σ → ρ → β × σ} {I : σ → Prop}
    (hreader : ∀ s r, I s → P r →
      (reader s r).1 = mem r ∧ I (reader s r).2)
    (h : Gives mem P p a) {s : σ} (hI : I s) :
    (p.run reader s).1 = a ∧ I (p.run reader s).2 := by
  induction h generalizing s with
  | done a => exact ⟨rfl, hI⟩
  | read hr _ ih =>
      obtain ⟨hval, hI'⟩ := hreader s _ hI hr
      rw [Reading.run, hval]
      exact ih hI'

end Gives

end Reading
