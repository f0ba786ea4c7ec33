import BacktraceLog.Lib.Run

/-!
# Journals

What a store that survives restarts is for: it keeps the last record that
was committed and counts commits and restarts. A record whose commit a
restart cut short is no event here, so a system that refines a journal
commits atomically.
-/

/-- The last committed record, and how often was committed and restarted. -/
structure Journal (ρ : Type) where
  last : Option ρ
  commits : Nat
  restarts : Nat

namespace Journal

variable {ρ ι : Type}

/-- A commit, or a restart of some kind. -/
inductive Event (ρ ι : Type) where
  | commit (r : ρ)
  | restart (i : ι)

namespace Event

def record? : Event ρ ι → Option ρ
  | .commit r => some r
  | .restart _ => none

def isRestart : Event ρ ι → Bool
  | .commit _ => false
  | .restart _ => true

end Event

/-- The records committed in a run, in order. -/
def records (es : List (Event ρ ι)) : List ρ := es.filterMap Event.record?

/-- The number of restarts in a run. -/
def restartsIn (es : List (Event ρ ι)) : Nat := es.countP Event.isRestart

def empty : Journal ρ := ⟨none, 0, 0⟩

def step (j : Journal ρ) : Event ρ ι → Journal ρ
  | .commit r => ⟨some r, j.commits + 1, j.restarts⟩
  | .restart _ => { j with restarts := j.restarts + 1 }

theorem run_eq (j : Journal ρ) (es : List (Event ρ ι)) :
    Run.run step j es
      = ⟨(records es).getLast?.or j.last, j.commits + (records es).length,
          j.restarts + restartsIn es⟩ := by
  induction es generalizing j with
  | nil => rfl
  | cons e es ih =>
      rw [Run.run_cons, ih]
      cases e with
      | commit r =>
          have hrec : records (.commit r :: es : List (Event ρ ι))
              = r :: records es := rfl
          have hcount : restartsIn (.commit r :: es : List (Event ρ ι))
              = restartsIn es := rfl
          rw [hrec, hcount]
          cases h : records es with
          | nil => simp [step]
          | cons r' rs =>
              rw [List.getLast?_cons_cons]
              simp [step, List.getLast?_cons]
              omega
      | restart i =>
          have hrec : records (.restart i :: es : List (Event ρ ι))
              = records es := rfl
          have hcount : restartsIn (.restart i :: es : List (Event ρ ι))
              = restartsIn es + 1 := List.countP_cons_of_pos rfl
          rw [hrec, hcount]
          simp [step]
          omega

/-- **A journal after a run**: the last record of the run and the number
of its commits and restarts. -/
theorem run_empty (es : List (Event ρ ι)) :
    Run.run step empty es
      = ⟨(records es).getLast?, (records es).length, restartsIn es⟩ := by
  rw [run_eq]
  simp [empty]

/-- A system refines a journal when commits and restarts keep the
relation; then every run of it is a run of the journal. -/
theorem refines {σ : Type} {f : σ → Event ρ ι → σ} {R : σ → Journal ρ → Prop}
    (hcommit : ∀ s j r, R s j → R (f s (.commit r))
      (step j (.commit r : Event ρ ι)))
    (hrestart : ∀ s j i, R s j → R (f s (.restart i))
      (step j (.restart i : Event ρ ι)))
    {s : σ} (h : R s empty) (es : List (Event ρ ι)) :
    R (Run.run f s es)
      ⟨(records es).getLast?, (records es).length, restartsIn es⟩ := by
  rw [← run_empty]
  refine Run.simulates (fun s j e hR => ?_) h es
  cases e with
  | commit r => exact hcommit s j r hR
  | restart i => exact hrestart s j i hR

end Journal
