/-!
# Runs of a system

A system is mostly a step function on states and events; a run folds a
list of events. Two statements about runs recur. `Along P` says that `P`
holds in every state a run passes through, the first included. `Meets C`
says that every event of a run finds its side condition `C` true in the
state it is taken from. The rules below turn one-step facts into run
facts: an invariant (kept by the steps that meet `C`), its converse (a step
that misses `C` breaks the property at once), and a simulation by an
abstract system.

Where the steps are a relation, each with a label that says what the step
is to the abstract system, a path collects the labels and takes the place
of the run; the simulation rule is the same.
-/

namespace Run

variable {σ α ι : Type}

/-- The state after the events `es`. -/
def run (step : σ → ι → σ) (s : σ) (es : List ι) : σ :=
  es.foldl step s

/-- `P` holds in every state of the run. -/
def Along (step : σ → ι → σ) (P : σ → Prop) : σ → List ι → Prop
  | s, [] => P s
  | s, e :: es => P s ∧ Along step P (step s e) es

/-- A run can be looked through. -/
instance Along.decidable {step : σ → ι → σ} {P : σ → Prop}
    [DecidablePred P] : ∀ s es, Decidable (Along step P s es)
  | s, [] => inferInstanceAs (Decidable (P s))
  | s, e :: es =>
      @instDecidableAnd (P s) (Along step P (step s e) es) _
        (Along.decidable (step s e) es)

/-- Every event of the run finds `C` in the state it is taken from. -/
def Meets (step : σ → ι → σ) (C : σ → ι → Prop) : σ → List ι → Prop
  | _, [] => True
  | s, e :: es => C s e ∧ Meets step C (step s e) es

variable {step : σ → ι → σ}

@[simp] theorem run_cons (s : σ) (e : ι) (es : List ι) :
    run step s (e :: es) = run step (step s e) es := rfl

/-- What the steps of a run keep the run keeps. -/
theorem run_invariant_of_mem {I : σ → Prop} {es : List ι}
    (hstep : ∀ s, ∀ e ∈ es, I s → I (step s e)) {s : σ} (hI : I s) :
    I (run step s es) := by
  induction es generalizing s with
  | nil => exact hI
  | cons e es ih =>
      exact ih (fun s e' he => hstep s e' (List.mem_cons_of_mem e he))
        (hstep s e List.mem_cons_self hI)

/-- What every step keeps a run keeps. -/
theorem run_invariant {I : σ → Prop} (hstep : ∀ s e, I s → I (step s e))
    {s : σ} (hI : I s) (es : List ι) : I (run step s es) :=
  run_invariant_of_mem (fun s e _ => hstep s e) hI

/-- **The invariant rule**: what the steps that meet `C` keep holds all
along a run whose steps meet `C`. -/
theorem Meets.along {C : σ → ι → Prop} {I : σ → Prop}
    (hstep : ∀ s e, I s → C s e → I (step s e)) {s : σ} {es : List ι}
    (hI : I s) (hC : Meets step C s es) : Along step I s es := by
  induction es generalizing s with
  | nil => exact hI
  | cons e es ih => exact ⟨hI, ih (hstep s e hI hC.1) hC.2⟩

/-- The first state of a run is one of it. -/
theorem Along.head {P : σ → Prop} {s : σ} {es : List ι}
    (h : Along step P s es) : P s := by
  cases es with
  | nil => exact h
  | cons e es => exact h.1

theorem along_of_forall {P : σ → Prop} (h : ∀ s, P s) (s : σ)
    (es : List ι) : Along step P s es := by
  induction es generalizing s with
  | nil => exact h s
  | cons e es ih => exact ⟨h s, ih (step s e)⟩

theorem Along.mono {P Q : σ → Prop} (hPQ : ∀ s, P s → Q s) {s : σ}
    {es : List ι} (h : Along step P s es) : Along step Q s es := by
  induction es generalizing s with
  | nil => exact hPQ s h
  | cons e es ih => exact ⟨hPQ s h.1, ih h.2⟩

theorem Along.and {P Q : σ → Prop} {s : σ} {es : List ι}
    (hP : Along step P s es) (hQ : Along step Q s es) :
    Along step (fun s => P s ∧ Q s) s es := by
  induction es generalizing s with
  | nil => exact ⟨hP, hQ⟩
  | cons e es ih => exact ⟨⟨hP.1, hQ.1⟩, ih hP.2 hQ.2⟩

/-- **The invariant rule inside a property**: in a run all along in `P` an
invariant need only be kept by the steps that end in `P`. -/
theorem Along.invariant {P I : σ → Prop}
    (hstep : ∀ s e, I s → P (step s e) → I (step s e)) {s : σ}
    {es : List ι} (hI : I s) (h : Along step P s es) :
    Along step I s es := by
  induction es generalizing s with
  | nil => exact hI
  | cons e es ih => exact ⟨hI, ih (hstep s e hI h.2.head) h.2⟩

/-- **The exact-condition rule**: where the invariant `I` is kept by the
steps that meet `C` and implies `P`, and a step from `I` that misses `C`
lands outside `P`, the runs that stay in `P` are those that meet `C`. -/
theorem along_iff_meets {C : σ → ι → Prop} {I P : σ → Prop}
    (hIP : ∀ s, I s → P s)
    (hkeep : ∀ s e, I s → C s e → I (step s e))
    (hbreak : ∀ s e, I s → ¬ C s e → ¬ P (step s e))
    {s : σ} {es : List ι} (hI : I s) :
    Along step P s es ↔ Meets step C s es := by
  constructor
  · intro h
    induction es generalizing s with
    | nil => trivial
    | cons e es ih =>
        have hC : C s e := Classical.byContradiction fun hn =>
          hbreak s e hI hn h.2.head
        exact ⟨hC, ih (hkeep s e hI hC) h.2⟩
  · intro h
    exact (Meets.along hkeep hI h).mono hIP

/-- **Simulation**: a relation kept by every step that meets `C` carries a
run of the system to the run of the abstract one. -/
theorem Meets.simulates {C : σ → ι → Prop} {astep : α → ι → α}
    {R : σ → α → Prop}
    (hstep : ∀ s a e, R s a → C s e → R (step s e) (astep a e))
    {s : σ} {a : α} {es : List ι} (hR : R s a) (hC : Meets step C s es) :
    R (run step s es) (run astep a es) := by
  induction es generalizing s a with
  | nil => exact hR
  | cons e es ih => exact ih (hstep s a e hR hC.1) hC.2

theorem simulates {astep : α → ι → α} {R : σ → α → Prop}
    (hstep : ∀ s a e, R s a → R (step s e) (astep a e))
    {s : σ} {a : α} (hR : R s a) (es : List ι) :
    R (run step s es) (run astep a es) := by
  induction es generalizing s a with
  | nil => exact hR
  | cons e es ih => exact ih (hstep s a e hR)

end Run

/-! ## Steps as a relation -/

namespace Lts

variable {σ ε α : Type}

/-- The steps `es`, one after the other, lead from the first state to the
last. -/
inductive Path (T : σ → ε → σ → Prop) : σ → List ε → σ → Prop where
  | nil (s : σ) : Path T s [] s
  | cons {s t u : σ} {e : ε} {es : List ε} :
      T s e t → Path T t es u → Path T s (e :: es) u

variable {T : σ → ε → σ → Prop} {s t : σ} {es : List ε}

/-- **Simulation**: a relation that every step keeps, with the abstract
system taking the step of its label, carries a path to the run on its
labels. -/
theorem Path.simulates {astep : α → ε → α} {R : σ → α → Prop}
    (hstep : ∀ s t a e, R s a → T s e t → R t (astep a e)) {a : α}
    (hR : R s a) (h : Path T s es t) : R t (Run.run astep a es) := by
  induction h generalizing a with
  | nil s => exact hR
  | cons hfirst _ ih => exact ih (hstep _ _ _ _ hR hfirst)

end Lts
