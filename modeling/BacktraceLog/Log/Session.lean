import Mathlib.Data.List.Induction
import BacktraceLog.Lib.Run
import BacktraceLog.Log.Record

/-!
# Within one boot

Any interleaving of the public operations between two boots. `begin` and
`append` go through `set_pBT`, which takes an unsealed buffer for a corrupt
one and initialises it; runs in which they only meet a sealed buffer are
well behaved, and the results here are about those: the counters count,
and an open record is an append-only list.
-/

namespace BacktraceLog

variable {b : Build}

/-- The operations of the C API. -/
inductive Op where
  | begin (resetInfo : Option RstInfo)
  | append
  | write (pc : Word)
  | fin
  | clear

/-- One call. -/
def step (b : Build) (s : Device) : Op → Device
  | .begin resetInfo => backtraceLogBegin b s resetInfo
  | .append => backtraceLogAppend b s
  | .write pc => backtraceLogWrite s pc
  | .fin => backtraceLogFin b s
  | .clear => backtraceLogClear b s

/-- The duplicate `set_pBT` of `begin` and `append` finds the log sealed,
and `clear` a capacity inside the buffer. -/
def EntersSealed (b : Build) (s : Device) : Op → Prop
  | .begin _ => Sealed b s.ram
  | .append => Sealed b s.ram
  | .clear => s.ram.max.toNat ≤ b.MAX
  | _ => True

/-- What the operation does to the buffer, entered as `EntersSealed`
demands. -/
def stepRam (b : Build) (p : Ram) : Op → Ram
  | .begin resetInfo => openRecord p resetInfo
  | .append => putItem p 0
  | .write pc => writeItem p pc
  | .fin => closeRecord b p
  | .clear => clearRecord p

/-- A step from a booted device leaves it booted, with the buffer of
`stepRam`. -/
theorem step_eq {s : Device} (hs : Booted b s) {op : Op}
    (h : EntersSealed b s op) :
    Booted b (step b s op) ∧ (step b s op).ram = stepRam b s.ram op := by
  cases op with
  | begin r =>
      rw [step, backtraceLogBegin_sealed hs h]
      exact ⟨⟨hs.fits, hs.pBT, hs.status⟩, rfl⟩
  | append =>
      rw [step, backtraceLogAppend_sealed hs h]
      exact ⟨⟨hs.fits, hs.pBT, hs.status⟩, rfl⟩
  | write pc =>
      rw [step, backtraceLogWrite_eq hs.pBT]
      exact ⟨⟨hs.fits, hs.pBT, hs.status⟩, rfl⟩
  | fin =>
      rw [step, backtraceLogFin_eq hs]
      exact ⟨⟨hs.fits, hs.pBT, hs.status⟩, rfl⟩
  | clear =>
      rw [step, backtraceLogClear_eq hs]
      exact ⟨⟨hs.fits, hs.pBT, hs.status⟩, rfl⟩

/-- Capacity and boot counter are nobody's business between boots. -/
theorem word_stepRam {p : Ram} {op : Op}
    (hclear : op = .clear → p.max.toNat ≤ b.MAX) {i : Nat}
    (h : i = 1 ∨ i = 2) : (stepRam b p op).word i = p.word i := by
  cases op with
  | begin r => exact word_openRecord p r (by omega)
  | append => exact word_putItem p 0 (by omega) (by omega)
  | write pc => exact word_writeItem p pc (by omega) (by omega)
  | fin => exact word_closeRecord p (by omega) (by omega)
  | clear => exact word_clearRecord (clearEnds_of_le (hclear rfl)) (by omega)

/-! ## Where the stores go -/

/-- The entry that `write` or `append` stores is one of the first `n`. -/
def StoresBelow (n : Nat) (p : Ram) : Op → Prop
  | .append => p.count.toNat < n
  | .write _ => p.count < p.max → p.count.toNat < n
  | _ => True

/-- The step lemma of the bound: a store reaches its entry, and no store
but those of entries passes the buffer. -/
theorem storeEnd_stepRam_le {p : Ram} {op : Op} {n : Nat}
    (hclear : op = .clear → p.max.toNat ≤ b.MAX) (hn : b.MAX ≤ n)
    (hst : StoresBelow n p op) (h : p.storeEnd ≤ 13 + n) :
    (stepRam b p op).storeEnd ≤ 13 + n := by
  cases op with
  | begin r => exact storeEnd_openRecord_le r h
  | append => exact storeEnd_putItem_le 0 h hst
  | write pc =>
      show (writeItem p pc).storeEnd ≤ 13 + n
      unfold writeItem
      split
      · rename_i hlt
        exact storeEnd_putItem_le pc h (hst hlt)
      · exact h
  | fin => exact storeEnd_closeRecord_le h
  | clear => exact storeEnd_clearRecord_le (hclear rfl) hn h

/-- The entries in front of the end of the memory: from here on `&pc[i]`
comes round, and to the header first. -/
def pcEnd : Nat := 2 ^ 30 - 13

/-- As `EntersSealed` demands, and an entry is only stored where it does
not come round. -/
def EntersInMemory (b : Build) (s : Device) (op : Op) : Prop :=
  EntersSealed b s op ∧ StoresBelow pcEnd s.ram op

/-! ## The counters -/

namespace Op

def isBegin : Op → Bool
  | .begin _ => true
  | _ => false

def isClear : Op → Bool
  | .clear => true
  | _ => false

end Op

/-- What an operation does to the crash count. -/
def countCrash (c : Word) : Op → Word
  | .begin _ => c + 1
  | .clear => 0
  | _ => c

theorem crashCount_stepRam {p : Ram} {op : Op}
    (h : op = .clear → p.max.toNat ≤ b.MAX) :
    (stepRam b p op).crashCount = countCrash p.crashCount op := by
  cases op with
  | begin r => exact crashCount_openRecord p r
  | append => exact word_putItem p 0 (by omega) (by omega)
  | write pc => exact word_writeItem p pc (by omega) (by omega)
  | fin => exact word_closeRecord p (by omega) (by omega)
  | clear =>
      have hsize := clearSize32_of_le (h rfl)
      exact word_clearRecord_erased (clearEnds_of_le (h rfl)) (by omega)
        (by omega)

/-- The calls since the last clear. -/
def sinceClear (ops : List Op) : List Op :=
  (ops.reverse.takeWhile fun op => !op.isClear).reverse

/-- The `begin` calls since the last clear, on top of the boot value when
there was no clear. -/
def crashesAfter (boot : Word) (ops : List Op) : Word :=
  (if ops.any Op.isClear then 0 else boot)
    + .ofNat 32 ((sinceClear ops).countP Op.isBegin)

theorem sinceClear_concat_clear (ops : List Op) :
    sinceClear (ops ++ [.clear]) = [] := by
  simp [sinceClear, Op.isClear]

theorem sinceClear_concat (ops : List Op) {op : Op}
    (h : op.isClear = false) :
    sinceClear (ops ++ [op]) = sinceClear ops ++ [op] := by
  simp [sinceClear, h]

/-- Counting call by call is counting since the last clear. -/
theorem foldl_countCrash (boot : Word) (ops : List Op) :
    ops.foldl countCrash boot = crashesAfter boot ops := by
  -- from the right: a last `clear` starts the count over
  induction ops using List.reverseRecOn with
  | nil => simp [crashesAfter, sinceClear]
  | append_singleton ops op ih =>
      rw [List.foldl_append, ih]
      by_cases hclear : op.isClear = true
      · obtain rfl : op = .clear := by
          cases op <;> simp [Op.isClear] at hclear ⊢
        simp [crashesAfter, sinceClear_concat_clear, countCrash, Op.isClear]
      · have hclear' : op.isClear = false := by simpa using hclear
        simp only [crashesAfter, sinceClear_concat ops hclear',
          List.any_append, List.countP_append, List.any_cons, List.any_nil,
          hclear', Bool.or_false, List.foldl_cons, List.foldl_nil]
        cases op with
        | begin r =>
            simp only [countCrash, Op.isBegin, List.countP_cons,
              List.countP_nil, if_true, Nat.zero_add, BitVec.ofNat_add]
            rw [BitVec.add_assoc]
            rfl
        | clear => simp [Op.isClear] at hclear
        | append => simp [countCrash, Op.isBegin]
        | write pc => simp [countCrash, Op.isBegin]
        | fin => simp [countCrash, Op.isBegin]

/-- The invariant of the counters: in `t`, in the boot that began at `u`,
boot counter and capacity are those of `u`, `c` crashes are counted, and no
store has passed the end of the memory. -/
structure CountsOn (b : Build) (u t : Device) (c : Word) : Prop where
  booted : Booted b t
  bootCounter : t.ram.bootCounter = u.ram.bootCounter
  max : t.ram.max = u.ram.max
  crashCount : t.ram.crashCount = c
  storeEnd : u.ram.storeEnd ≤ 13 + pcEnd → t.ram.storeEnd ≤ 13 + pcEnd

/-- The step lemma of the counters. -/
theorem CountsOn.step {u t : Device} {c : Word} (h : CountsOn b u t c)
    {op : Op} (hop : EntersInMemory b t op) :
    CountsOn b u (step b t op) (countCrash c op) := by
  obtain ⟨hb, hram⟩ := step_eq h.booted hop.1
  have hclear : op = .clear → t.ram.max.toNat ≤ b.MAX := by
    rintro rfl
    exact hop.1
  have hsize : b.MAX ≤ pcEnd := by
    have hsz := b.sizeof_lt
    simp only [pcEnd]
    omega
  refine ⟨hb, ?_, ?_, ?_, fun hu => ?_⟩
  · rw [hram]
    exact (word_stepRam hclear (.inr rfl)).trans h.bootCounter
  · rw [hram]
    exact (word_stepRam hclear (.inl rfl)).trans h.max
  · rw [hram, crashCount_stepRam hclear, h.crashCount]
  · rw [hram]
    exact storeEnd_stepRam_le hclear hsize hop.2 (h.storeEnd hu)

/-- **The counters within one boot**: along any run that enters `begin` and
`append` sealed and stores no entry past the end of the memory, boot
counter and capacity stay, the crash count is the number of records begun
since the last clear, and no store has come round to them. -/
theorem counters_within_boot (b : Build) (s : Device) (hs : s.pBT = none)
    (hp : (setPBT b s).1.pBT ≠ none) (ops : List Op)
    (hops : Run.Meets (step b) (EntersInMemory b) (setPBT b s).1 ops) :
    (Run.run (step b) (setPBT b s).1 ops).ram.bootCounter
        = (setPBT b s).1.ram.bootCounter
      ∧ (Run.run (step b) (setPBT b s).1 ops).ram.max
        = (setPBT b s).1.ram.max
      ∧ (Run.run (step b) (setPBT b s).1 ops).ram.crashCount
        = crashesAfter (setPBT b s).1.ram.crashCount ops
      ∧ ((setPBT b s).1.ram.storeEnd ≤ 2 ^ 30 →
        (Run.run (step b) (setPBT b s).1 ops).ram.storeEnd ≤ 2 ^ 30) := by
  have hboot := (setPBT_boot (fits_of_pBT hp) hs).booted (fits_of_pBT hp)
  generalize (setPBT b s).1 = u at hboot hops
  have hfirst : CountsOn b u u u.ram.crashCount :=
    ⟨hboot, rfl, rfl, rfl, id⟩
  have hstep : ∀ t c op, CountsOn b u t c → EntersInMemory b t op →
      CountsOn b u (step b t op) (countCrash c op) :=
    fun _ _ _ h hop => h.step hop
  -- the abstract run counts crashes, call by call
  have hrun := Run.Meets.simulates hstep hfirst hops
  refine ⟨hrun.bootCounter, hrun.max, ?_, hrun.storeEnd⟩
  rw [hrun.crashCount]
  exact foldl_countCrash u.ram.crashCount ops

/-- A device about to boot for the second time. -/
def secondBoot : Device :=
  reset (firstBoot minimalBuild (fun _ => 0) (fun _ => 0) ⟨0, 0⟩) (.warm 4)

theorem counters_within_boot_closed :
    (Run.run (step minimalBuild) (setPBT minimalBuild secondBoot).1
        [.begin none, .write 0x40201234, .fin, .append, .fin,
          .clear]).ram.bootCounter
        = (setPBT minimalBuild secondBoot).1.ram.bootCounter
      ∧ (Run.run (step minimalBuild) (setPBT minimalBuild secondBoot).1
        [.begin none, .write 0x40201234, .fin, .append, .fin,
          .clear]).ram.max
        = (setPBT minimalBuild secondBoot).1.ram.max
      ∧ (Run.run (step minimalBuild) (setPBT minimalBuild secondBoot).1
        [.begin none, .write 0x40201234, .fin, .append, .fin,
          .clear]).ram.crashCount
        = crashesAfter (setPBT minimalBuild secondBoot).1.ram.crashCount
          [.begin none, .write 0x40201234, .fin, .append, .fin, .clear]
      ∧ ((setPBT minimalBuild secondBoot).1.ram.storeEnd ≤ 2 ^ 30 →
        (Run.run (step minimalBuild) (setPBT minimalBuild secondBoot).1
          [.begin none, .write 0x40201234, .fin, .append, .fin,
            .clear]).ram.storeEnd ≤ 2 ^ 30) := by
  refine counters_within_boot minimalBuild secondBoot rfl (by decide)
    [.begin none, .write 0x40201234, .fin, .append, .fin, .clear]
    ⟨⟨?_, trivial⟩, ⟨trivial, fun _ => ?_⟩, ⟨trivial, trivial⟩, ⟨?_, ?_⟩,
      ⟨trivial, trivial⟩, ⟨?_, trivial⟩, trivial⟩
  · show Sealed _ _
    decide
  · decide
  · show Sealed _ _
    decide
  · show BitVec.toNat _ < _
    decide
  · show BitVec.toNat _ ≤ _
    decide

/-- A `begin` over an open record boots again: the boot counter falls from
2 to 1, and only one of two records is counted. -/
theorem begin_over_open_record :
    (setPBT minimalBuild secondBoot).1.ram.bootCounter = 2
      ∧ (Run.run (step minimalBuild) (setPBT minimalBuild secondBoot).1
        [.begin none, .write 0x40201234, .begin none]).ram.bootCounter = 1
      ∧ (setPBT minimalBuild secondBoot).1.ram.crashCount = 0
      ∧ (Run.run (step minimalBuild) (setPBT minimalBuild secondBoot).1
        [.begin none, .write 0x40201234, .begin none]).ram.crashCount = 1 := by
  decide

/-! ## An open record -/

namespace Op

/-- The operations that extend an open record. -/
def InRecord : Op → Prop
  | .begin _ => False
  | .clear => False
  | _ => True

/-- What a call adds to the list of addresses; a separator is a 0. -/
def added : Op → List Word
  | .write pc => [pc]
  | .append => [0]
  | _ => []

end Op

/-- The addresses and separators of a run, in call order. -/
def addedItems (ops : List Op) : List Word := ops.flatMap Op.added

/-- An operation of an open record, with room for what it adds, appends
it. -/
theorem items_stepRam {p : Ram} {op : Op} (hop : op.InRecord)
    (hroom : (items p).length + op.added.length ≤ p.max.toNat) :
    items (stepRam b p op) = items p ++ op.added := by
  have hmax := p.max.isLt
  rw [length_items] at hroom
  cases op with
  | begin r => exact hop.elim
  | clear => exact hop.elim
  | append =>
      simp only [Op.added, List.length_singleton] at hroom
      exact items_putItem 0 (by omega)
  | write pc =>
      simp only [Op.added, List.length_singleton] at hroom
      show items (writeItem p pc) = items p ++ [pc]
      rw [items_writeItem, Bounded.push, length_items,
        if_pos (show p.count.toNat < p.max.toNat by omega)]
  | fin =>
      show items (closeRecord b p) = items p ++ []
      rw [items_closeRecord, List.append_nil]

/-- What has room is stored there. -/
theorem storesBelow_of_room {p : Ram} {op : Op} {n : Nat}
    (hroom : (items p).length + op.added.length ≤ n) :
    StoresBelow n p op := by
  rw [length_items] at hroom
  cases op with
  | append =>
      simp only [Op.added, List.length_singleton] at hroom
      exact hroom
  | write pc =>
      simp only [Op.added, List.length_singleton] at hroom
      exact fun _ => hroom
  | begin r => trivial
  | fin => trivial
  | clear => trivial

/-- Nothing but `count`, `pc`, `binCrc` and `chksum` changes. -/
theorem word_stepRam_inRecord (p : Ram) {op : Op} (hop : op.InRecord)
    {i : Nat} (h : 0 < i ∧ i < 12 ∧ i ≠ 4) :
    (stepRam b p op).word i = p.word i := by
  cases op with
  | begin r => exact hop.elim
  | clear => exact hop.elim
  | append => exact word_putItem p 0 (by omega) (by omega)
  | write pc => exact word_writeItem p pc (by omega) (by omega)
  | fin => exact word_closeRecord p (by omega) (by omega)

/-- An open record extended from `s` to `t`: `added` is behind the other
addresses, all other fields of the record are the same, and where the array
has room for the addresses the stores stay inside the buffer. -/
structure Extended (b : Build) (s t : Device) (added : List Word) :
    Prop where
  booted : Booted b t
  items : items t.ram = items s.ram ++ added
  word : ∀ i, 0 < i → i < 12 → i ≠ 4 → t.ram.word i = s.ram.word i
  storeEnd : (BacktraceLog.items t.ram).length ≤ b.MAX →
    s.ram.storeEnd ≤ 13 + b.MAX → t.ram.storeEnd ≤ 13 + b.MAX

namespace Extended

variable {s t u : Device} {xs ys : List Word}

theorem refl (hs : Booted b s) : Extended b s s [] where
  booted := hs
  items := (List.append_nil _).symm
  word := fun _ _ _ _ => rfl
  storeEnd := fun _ => id

theorem max (h : Extended b s t xs) : t.ram.max = s.ram.max :=
  h.word 1 (by omega) (by omega) (by omega)

theorem length_items (h : Extended b s t xs) :
    (BacktraceLog.items t.ram).length
      = (BacktraceLog.items s.ram).length + xs.length := by
  rw [h.items, List.length_append]

theorem trans (h : Extended b s t xs) (h' : Extended b t u ys) :
    Extended b s u (xs ++ ys) where
  booted := h'.booted
  items := by rw [h'.items, h.items, List.append_assoc]
  word := fun i h0 h1 h2 => (h'.word i h0 h1 h2).trans (h.word i h0 h1 h2)
  storeEnd := fun hfit hend => by
    have hlen := h'.length_items
    exact h'.storeEnd hfit (h.storeEnd (by omega) hend)

end Extended

/-- The step lemma of an open record. -/
theorem extended_step {s : Device} (hs : Booted b s) {op : Op}
    (hrec : op.InRecord) (hop : EntersSealed b s op)
    (hroom : (items s.ram).length + op.added.length ≤ s.ram.max.toNat) :
    Extended b s (step b s op) op.added := by
  obtain ⟨hb, hram⟩ := step_eq hs hop
  have hitems : items (step b s op).ram = items s.ram ++ op.added := by
    rw [hram]
    exact items_stepRam hrec hroom
  refine ⟨hb, hitems, fun i h0 h1 h2 => ?_, fun hfit hend => ?_⟩
  · rw [hram]
    exact word_stepRam_inRecord s.ram hrec ⟨h0, h1, h2⟩
  · rw [hitems, List.length_append] at hfit
    rw [hram]
    refine storeEnd_stepRam_le ?_ (Nat.le_refl _)
      (storesBelow_of_room hfit) hend
    rintro rfl
    exact hrec.elim

/-- The run lemma: the addresses grow by what the calls add. -/
theorem extended_run {s : Device} (hs : Booted b s) {ops : List Op}
    (hrec : ∀ op ∈ ops, op.InRecord)
    (hroom : (items s.ram).length + (addedItems ops).length
      ≤ s.ram.max.toNat)
    (hops : Run.Meets (step b) (EntersSealed b) s ops) :
    Extended b s (Run.run (step b) s ops) (addedItems ops) := by
  induction ops generalizing s with
  | nil => exact .refl hs
  | cons op ops ih =>
      have hadd : addedItems (op :: ops) = op.added ++ addedItems ops :=
        List.flatMap_cons
      rw [hadd, List.length_append] at hroom
      have hstep := extended_step hs (hrec op (by simp)) hops.1 (by omega)
      have hlen := hstep.length_items
      -- the room left is what the rest of the run needs
      have hrest := ih hstep.booted (fun o ho => hrec o (by simp [ho]))
        (by rw [hstep.max]; omega) hops.2
      rw [hadd, Run.run_cons]
      exact hstep.trans hrest

/-- **An open record is an append-only list**: after `begin` and any
interleaving of `write`, `append` and `fin` that fits the capacity and the
array, in which every `append` meets a sealed log, `read` gives the items
in call order, the record's other fields are as `begin` left them, and
every store was one inside the buffer. -/
theorem open_record_list (b : Build) (s : Device) (hs : Booted b s)
    (hseal : Sealed b s.ram) (resetInfo : Option RstInfo) (ops : List Op)
    (hrec : ∀ op ∈ ops, op.InRecord)
    (hroom : (addedItems ops).length ≤ s.ram.max.toNat)
    (hfit : (addedItems ops).length ≤ b.MAX)
    (hops : Run.Meets (step b) (EntersSealed b)
      (backtraceLogBegin b s resetInfo) ops) :
    (∀ sz, read (Run.run (step b) (backtraceLogBegin b s resetInfo) ops) sz
        = (addedItems ops).take sz)
      ∧ (Run.run (step b) (backtraceLogBegin b s resetInfo) ops).ram.rstInfo
        = resetInfo.getD .zero
      ∧ (Run.run (step b)
          (backtraceLogBegin b s resetInfo) ops).ram.crashCount
        = s.ram.crashCount + 1
      ∧ (Run.run (step b)
          (backtraceLogBegin b s resetInfo) ops).ram.bootCounter
        = s.ram.bootCounter
      ∧ (Run.run (step b) (backtraceLogBegin b s resetInfo) ops).ram.max
        = s.ram.max
      ∧ (s.ram.storeEnd ≤ 13 + b.MAX →
        (Run.run (step b)
          (backtraceLogBegin b s resetInfo) ops).ram.storeEnd
          ≤ 13 + b.MAX) := by
  rw [backtraceLogBegin_sealed hs hseal] at hops ⊢
  have hb : Booted b { s with ram := openRecord s.ram resetInfo } :=
    ⟨hs.fits, hs.pBT, hs.status⟩
  have hnil : items ({ s with ram := openRecord s.ram resetInfo } :
      Device).ram = [] := items_openRecord s.ram resetInfo
  have hmax : ({ s with ram := openRecord s.ram resetInfo } :
      Device).ram.max = s.ram.max := word_openRecord s.ram resetInfo (by omega)
  have h := extended_run hb hrec (by
    rw [hnil, hmax, List.length_nil, Nat.zero_add]
    exact hroom) hops
  have hitems := h.items
  rw [hnil, List.nil_append] at hitems
  refine ⟨fun sz => ?_, ?_, ?_, ?_, ?_, fun hs0 => h.storeEnd ?_ ?_⟩
  · rw [read_eq h.booted.pBT, hitems]
  · refine Eq.trans ?_ (rstInfo_openRecord s.ram resetInfo)
    exact Ram.rstInfo_congr fun i h1 h2 =>
      h.word i (by omega) (by omega) (by omega)
  · exact (h.word 3 (by omega) (by omega) (by omega)).trans
      (crashCount_openRecord s.ram resetInfo)
  · exact (h.word 2 (by omega) (by omega) (by omega)).trans
      (word_openRecord s.ram resetInfo (by omega))
  · exact h.max.trans hmax
  · rw [hitems]
    exact hfit
  · exact storeEnd_openRecord_le resetInfo hs0

/-- The log of the minimal build after its first boot. -/
def freshLog : Device :=
  firstBoot minimalBuild (fun _ => 0) (fun _ => 0) ⟨0, 0⟩

theorem booted_freshLog : Booted minimalBuild freshLog :=
  (firstBoot_taken fits_minimalBuild _ _ _).booted fits_minimalBuild

/-- Two addresses, a `fin`, and a separator after it. -/
theorem open_record_list_closed :
    (∀ sz, read (Run.run (step minimalBuild)
        (backtraceLogBegin minimalBuild freshLog none)
        [.write 0x40201234, .write 0x40205678, .fin, .append]) sz
      = (addedItems
        [.write 0x40201234, .write 0x40205678, .fin, .append]).take sz)
      ∧ (Run.run (step minimalBuild)
          (backtraceLogBegin minimalBuild freshLog none)
          [.write 0x40201234, .write 0x40205678, .fin, .append]).ram.rstInfo
        = .zero
      ∧ (Run.run (step minimalBuild)
          (backtraceLogBegin minimalBuild freshLog none)
          [.write 0x40201234, .write 0x40205678, .fin,
            .append]).ram.crashCount
        = freshLog.ram.crashCount + 1
      ∧ (Run.run (step minimalBuild)
          (backtraceLogBegin minimalBuild freshLog none)
          [.write 0x40201234, .write 0x40205678, .fin,
            .append]).ram.bootCounter
        = freshLog.ram.bootCounter
      ∧ (Run.run (step minimalBuild)
          (backtraceLogBegin minimalBuild freshLog none)
          [.write 0x40201234, .write 0x40205678, .fin, .append]).ram.max
        = freshLog.ram.max
      ∧ (freshLog.ram.storeEnd ≤ 13 + minimalBuild.MAX →
        (Run.run (step minimalBuild)
          (backtraceLogBegin minimalBuild freshLog none)
          [.write 0x40201234, .write 0x40205678, .fin,
            .append]).ram.storeEnd
          ≤ 13 + minimalBuild.MAX) := by
  refine open_record_list minimalBuild freshLog booted_freshLog (by decide)
    none _ ?_ (by decide) (by decide)
    ⟨trivial, trivial, trivial, ?_, trivial⟩
  · intro op h
    simp only [List.mem_cons, List.not_mem_nil, or_false] at h
    rcases h with rfl | rfl | rfl | rfl <;> trivial
  · show Sealed _ _
    decide

/-- An `append` right after a `write` finds the log unsealed and boots
again: of the address and the separator only the separator is left. -/
theorem append_over_open_record :
    Sealed minimalBuild freshLog.ram
      ∧ addedItems [.write 0x40201234, .append] = [0x40201234, 0]
      ∧ freshLog.ram.max = 4
      ∧ read (Run.run (step minimalBuild)
          (backtraceLogBegin minimalBuild freshLog none)
          [.write 0x40201234, .append]) 4 = [0] := by
  decide

end BacktraceLog
