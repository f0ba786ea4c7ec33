import BacktraceLog.Lib.Journal
import BacktraceLog.Log.Lasting

/-!
# Records across boots

The log as a journal: a complete record (`begin`, writes, `fin`) is a
commit, a reset and the boot after it is a restart. Without an RTC copy
the buffer itself carries the journal over warm resets. With one, the copy
that `fin` writes is what counts: it also carries the journal over the
loss of the RAM, and over a record that the reset cut short. Either way it
is one invariant, on top of what a settled log is.
-/

namespace BacktraceLog

variable {b : Build}

/-! ## Complete records -/

structure Record where
  /-- the argument of `backtraceLog_begin`; `none` is NULL -/
  resetInfo : Option RstInfo
  pcs : List Word

/-- The `rst_info` a record stores. -/
def Record.rstInfo (r : Record) : RstInfo := r.resetInfo.getD .zero

/-- `begin`, the writes, `fin`. -/
def writeRecord (b : Build) (s : Device) (r : Record) : Device :=
  backtraceLogFin b (writeAll (backtraceLogBegin b s r.resetInfo) r.pcs)

/-- The buffer with the record in it. -/
def recordRam (b : Build) (p : Ram) (r : Record) : Ram :=
  closeRecord b (writeItems (openRecord p r.resetInfo) r.pcs)

/-- `begin` and the writes, on a sealed log. -/
theorem openRecord_writes {s : Device} (hs : Booted b s)
    (h : Sealed b s.ram) (r : Record) :
    writeAll (backtraceLogBegin b s r.resetInfo) r.pcs
      = { s with ram := writeItems (openRecord s.ram r.resetInfo) r.pcs } := by
  rw [backtraceLogBegin_sealed hs h]
  exact writeAll_eq (s := { s with ram := openRecord s.ram r.resetInfo })
    hs.pBT r.pcs

theorem writeRecord_eq {s : Device} (hs : Booted b s) (h : Sealed b s.ram)
    (r : Record) :
    writeRecord b s r = { s with
      ram := recordRam b s.ram r
      rtc := if RtcActive b then rtcStore b s.rtc (recordRam b s.ram r)
        else s.rtc } := by
  rw [writeRecord, openRecord_writes hs h]
  exact backtraceLogFin_eq (b := b)
    (s := { s with ram := writeItems (openRecord s.ram r.resetInfo) r.pcs })
    ⟨hs.fits, hs.pBT, hs.status⟩

/-- The entries past the capacity are never touched, nor are `max` and
`bootCounter`. -/
theorem word_writeItems_openRecord (p : Ram) (r : Record) {i : Nat}
    (h : i = 1 ∨ i = 2 ∨ 13 + p.max.toNat ≤ i) :
    (writeItems (openRecord p r.resetInfo) r.pcs).word i = p.word i := by
  have hmax : (openRecord p r.resetInfo).max = p.max :=
    word_openRecord p r.resetInfo (by omega)
  rw [word_writeItems _ _ (by omega) (by rw [hmax]; omega),
    word_openRecord p r.resetInfo (by omega)]

theorem word_recordRam (p : Ram) (r : Record) {i : Nat}
    (h : i = 1 ∨ i = 2 ∨ 13 + p.max.toNat ≤ i) :
    (recordRam b p r).word i = p.word i := by
  rw [recordRam, word_closeRecord _ (by omega) (by omega),
    word_writeItems_openRecord p r h]

/-- **What a record holds**: as many of its addresses as there is room
for, from the first on. -/
theorem items_recordRam (p : Ram) (r : Record) :
    items (recordRam b p r) = r.pcs.take p.max.toNat := by
  have hmax : (openRecord p r.resetInfo).max = p.max :=
    word_openRecord p r.resetInfo (by omega)
  have hle : (openRecord p r.resetInfo).count
      ≤ (openRecord p r.resetInfo).max := by
    rw [count_openRecord]
    exact Nat.zero_le _
  rw [recordRam, items_closeRecord, items_writeItems hle, items_openRecord,
    List.nil_append, hmax]

theorem rstInfo_recordRam (p : Ram) (r : Record) :
    (recordRam b p r).rstInfo = r.rstInfo := by
  rw [recordRam, rstInfo_closeRecord, Record.rstInfo,
    ← rstInfo_openRecord p r.resetInfo]
  exact Ram.rstInfo_congr fun i h1 h2 =>
    word_writeItems _ _ (by omega) (by omega)

theorem crashCount_recordRam (p : Ram) (r : Record) :
    (recordRam b p r).crashCount = p.crashCount + 1 := by
  rw [← crashCount_openRecord p r.resetInfo, recordRam, Ram.crashCount,
    word_closeRecord _ (by omega) (by omega)]
  exact word_writeItems _ _ (by omega) (by omega)

theorem binCrc_recordRam (p : Ram) (r : Record) :
    (recordRam b p r).binCrc = b.crcVal :=
  binCrc_closeRecord _

/-! ## What the log shows -/

/-- The buffer holds the record `r` of a capacity of `cap`. -/
structure Holds (b : Build) (cap : Nat) (p : Ram) (r : Record) : Prop where
  items : items p = r.pcs.take cap
  rstInfo : p.rstInfo = r.rstInfo
  binCrc : p.binCrc = b.crcVal

theorem holds_recordRam {p : Ram} {cap : Nat} (h : p.max.toNat = cap)
    (r : Record) : Holds b cap (recordRam b p r) r where
  items := by rw [items_recordRam, h]
  rstInfo := rstInfo_recordRam p r
  binCrc := binCrc_recordRam p r

/-- Two buffers with the same record in them. -/
theorem Holds.congr {cap : Nat} {p q : Ram} {r : Record}
    (h : Holds b cap p r)
    (hw : ∀ i, 3 ≤ i → i < 13 + p.count.toNat → q.word i = p.word i) :
    Holds b cap q r where
  items := by
    rw [← h.items]
    exact items_congr (hw 12 (by omega) (by omega))
      fun i hi => hw (13 + i) (by omega) (by omega)
  rstInfo := (Ram.rstInfo_congr fun i h1 h2 =>
    hw i (by omega) (by omega)).trans h.rstInfo
  binCrc := (hw 4 (by omega) (by omega)).trans h.binCrc

/-- What `available()` and `read()` show of a record, and what is stored
with it. -/
structure Shows (b : Build) (cap : Nat) (s : Device) (r : Record) :
    Prop where
  available : available s = min r.pcs.length cap
  read : ∀ sz, read s sz = r.pcs.take (min sz cap)
  rstInfo : s.ram.rstInfo = r.rstInfo
  binCrc : s.ram.binCrc = b.crcVal

theorem Holds.shows {cap : Nat} {s : Device} {r : Record}
    (h : Holds b cap s.ram r) (hp : s.pBT ≠ none) : Shows b cap s r where
  available := by
    rw [available_eq hp, h.items, List.length_take, Nat.min_comm]
  read := fun sz => by
    rw [read_eq hp, h.items, List.take_take]
  rstInfo := h.rstInfo
  binCrc := h.binCrc

/-- The reset reasons `is_mem_valid` accepts. -/
abbrev ValidReason := { reason : Word // isMemValid reason = true }

/-! ## The journal -/

/-- The log `s` is a journal, begun at `s₀`: settled and sealed between the
events, with the last record in it and the counters counted on. -/
structure LogJournal (b : Build) (s₀ s : Device) (j : Journal Record) :
    Prop extends Settled b s where
  isSealed : Sealed b s.ram
  unwritten : j.last = none → ∀ i, 3 ≤ i → i < 13 + b.MAX →
    s.ram.word i = s₀.ram.word i
  last : ∀ r, j.last = some r → Holds b (capacity b) s.ram r
  crashCount : s.ram.crashCount = s₀.ram.crashCount + .ofNat 32 j.commits
  bootCounter :
    s.ram.bootCounter = s₀.ram.bootCounter + .ofNat 32 j.restarts

/-- The first boot, whatever RTC memory holds, begins a journal. -/
theorem logJournal_firstBoot (hf : Fits b) (words rtc : Nat → Word)
    (status : RtcStatus) :
    LogJournal b (firstBoot b words rtc status)
      (firstBoot b words rtc status) .empty := by
  obtain ⟨hsettled, hseal⟩ := settled_firstBoot hf words rtc status
  exact { hsettled with
    isSealed := hseal
    unwritten := fun _ _ _ _ => rfl
    last := fun r h => by cases h
    crashCount := (BitVec.add_zero _).symm
    bootCounter := (BitVec.add_zero _).symm }

section

variable {ι : Type} {s₀ s : Device} {j : Journal Record}

/-- **A complete record is a commit.** -/
theorem LogJournal.commit (h : LogJournal b s₀ s j) (r : Record) :
    LogJournal b s₀ (writeRecord b s r)
      (j.step (.commit r : Journal.Event Record ι)) := by
  obtain ⟨hshape, -⟩ := h.begin s.pBT s.resetReason r.resetInfo
  obtain ⟨hlasting, hseal, -⟩ := hshape.finish r.pcs
  have hram : (writeRecord b s r).ram = recordRam b s.ram r := by
    rw [writeRecord_eq h.booted h.isSealed]
  exact { hlasting.toSettled with
    isSealed := hseal
    unwritten := fun h => by cases h
    last := fun r' hr' => by
      obtain rfl : r = r' := Option.some.inj hr'
      rw [hram]
      exact holds_recordRam h.toNat_max r
    crashCount := by
      show _ = s₀.ram.crashCount + .ofNat 32 (j.commits + 1)
      rw [hram, crashCount_recordRam, h.crashCount, BitVec.ofNat_add,
        BitVec.add_assoc]
      rfl
    bootCounter := by
      rw [hram]
      exact (word_recordRam s.ram r (by omega)).trans h.bootCounter }

/-- **A boot that finds its log again is a restart.** -/
theorem LogJournal.restart (h : LogJournal b s₀ s j) {u t : Device}
    (hu : BootFinds b s u) (hsurv : Survives b u.resetReason)
    (ht : Taken b u t) (i : ι) :
    LogJournal b s₀ t (j.step (.restart i : Journal.Event Record ι)) := by
  have hleaves := h.boot hu ht
  have hagain := hleaves.record hsurv h.isSealed
  have hle := capacity_le b
  exact { hleaves.settled with
    isSealed := hleaves.isSealed
    unwritten := fun hj k h1 h2 => by
      rw [hagain.word k (by omega) (by omega) h2]
      exact h.unwritten hj k h1 h2
    last := fun r hj => by
      have hholds := h.last r hj
      -- a finished record has no more entries than there is room for
      have hcount : s.ram.count.toNat ≤ capacity b := by
        rw [← length_items, hholds.items, List.length_take]
        omega
      exact hholds.congr fun k h1 h2 =>
        hagain.word k (by omega) (by omega) (by omega)
    crashCount :=
      (hagain.word 3 (by omega) (by omega) (by omega)).trans h.crashCount
    bootCounter := by
      show _ = s₀.ram.bootCounter + .ofNat 32 (j.restarts + 1)
      rw [hagain.bootCounter, h.bootCounter, BitVec.ofNat_add,
        BitVec.add_assoc]
      rfl }

end

/-! ## Without an RTC copy -/

/-- A complete record, or a warm reset and the boot after it. -/
def ramStep (b : Build) (s : Device) :
    Journal.Event Record ValidReason → Device
  | .commit r => writeRecord b s r
  | .restart reason => reboot b s (.warm reason.1)

/-- The buffer carries the journal over a warm reset. -/
theorem LogJournal.warm {s₀ s : Device} {j : Journal Record}
    (h : LogJournal b s₀ s j) (reason : ValidReason) :
    LogJournal b s₀ (ramStep b s (.restart reason))
      (j.step (.restart reason : Journal.Event Record ValidReason)) :=
  h.restart (h.finds (u := reset s (.warm reason.1)) ⟨rfl, fun _ => rfl⟩)
    (.inr reason.2) (setPBT_boot h.booted.fits rfl) reason

/-- **Records persist without RTC**: after any run of complete records and
warm resets from a power-on boot, `available` and `read` show the first
`MAX` addresses of the last record, with its `rst_info` and `binCrc`; the
crash count is the number of records, the boot counter that of boots. -/
theorem record_persistence (b : Build) (hr : ¬ RtcActive b) (hf : Fits b)
    (words rtc : Nat → Word) (status : RtcStatus)
    (es : List (Journal.Event Record ValidReason)) :
    (∀ r, (Journal.records es).getLast? = some r →
        Shows b b.MAX
          (Run.run (ramStep b) (firstBoot b words rtc status) es) r)
      ∧ (Journal.records es = [] →
        available (Run.run (ramStep b) (firstBoot b words rtc status) es) = 0
          ∧ ∀ sz, read
            (Run.run (ramStep b) (firstBoot b words rtc status) es) sz = [])
      ∧ (Run.run (ramStep b)
          (firstBoot b words rtc status) es).ram.crashCount
        = .ofNat 32 (Journal.records es).length
      ∧ (Run.run (ramStep b)
          (firstBoot b words rtc status) es).ram.bootCounter
        = .ofNat 32 (1 + Journal.restartsIn es)
      ∧ (Run.run (ramStep b) (firstBoot b words rtc status) es).ram.max
        = .ofNat 32 b.MAX := by
  have hcap : capacity b = b.MAX := if_neg hr
  obtain ⟨hcrash, hboot, hcount⟩ := firstBoot_fresh hr hf words rtc status
  have h := Journal.refines (f := ramStep b)
    (R := LogJournal b (firstBoot b words rtc status))
    (fun s j r hR => hR.commit r) (fun s j i hR => hR.warm i)
    (logJournal_firstBoot hf words rtc status) es
  have hlast := h.last
  have hmax := h.max
  rw [hcap] at hlast hmax
  refine ⟨fun r hr => (hlast r hr).shows h.booted.pBT, fun hnil => ?_, ?_, ?_,
    hmax⟩
  · have hunwritten := h.unwritten (by rw [hnil]; rfl)
    have hitems := items_of_count_zero
      ((hunwritten 12 (by omega) (by omega)).trans hcount)
    refine ⟨?_, fun sz => ?_⟩
    · rw [available_eq h.booted.pBT, hitems]
      rfl
    · rw [read_eq h.booted.pBT, hitems, List.take_nil]
  · rw [h.crashCount, hcrash]
    exact BitVec.zero_add _
  · rw [h.bootCounter, hboot, BitVec.ofNat_add]
    rfl

/-- Two records with a software reset between them. -/
theorem record_persistence_two :
    Shows minimalBuild 4
      (Run.run (ramStep minimalBuild)
        (firstBoot minimalBuild (fun _ => 0) (fun _ => 0) ⟨0, 0⟩)
        [.commit ⟨none, [1, 2]⟩, .restart ⟨4, by decide⟩,
          .commit ⟨none, [3, 4, 5, 6, 7]⟩])
      ⟨none, [3, 4, 5, 6, 7]⟩ :=
  (record_persistence minimalBuild (by decide) fits_minimalBuild _ _ _
    [.commit ⟨none, [1, 2]⟩, .restart ⟨4, by decide⟩,
      .commit ⟨none, [3, 4, 5, 6, 7]⟩]).1 _ rfl

/-! ## With an RTC copy -/

/-- Where a reset cuts a record short after its writes: before the next
call, between the two stores of one more write (in either order), or
between the stores of `fin`, of which the RTC copy is the last. -/
inductive Cut where
  | writing
  | entryStored (pc : Word)
  | countStored
  | crcStored
  | chksumStored

/-- The buffer a cut leaves of an open record. -/
def cutRam (b : Build) (p : Ram) : Cut → Ram
  | .writing => p
  | .entryStored pc =>
      if p.count < p.max then p.setPc p.count.toNat pc else p
  | .countStored => if p.count < p.max then p.setCount (p.count + 1) else p
  | .crcStored => p.setBinCrc b.crcVal
  | .chksumStored => closeRecord b p

/-- `begin`, some writes, and a reset instead of the rest. -/
def cutRecord (b : Build) (s : Device) (r : Record) (c : Cut) : Device :=
  let s := writeAll (backtraceLogBegin b s r.resetInfo) r.pcs
  if s.pBT = none then s else { s with ram := cutRam b s.ram c }

/-- The resets of a log with an RTC copy. -/
inductive LiveReset where
  | warm (reason : ValidReason)
  | deepSleep (words : Nat → Word) (status : RtcStatus)

def LiveReset.toReset : LiveReset → Reset
  | .warm reason => .warm reason.1
  | .deepSleep words status => .deepSleep words status

/-- A reset, and the record it cut short if there was one. -/
structure Interruption where
  cut : Option (Record × Cut)
  reset : LiveReset

/-- A complete record, or an interruption and the boot after it. -/
def rtcStep (b : Build) (s : Device) :
    Journal.Event Record Interruption → Device
  | .commit r => writeRecord b s r
  | .restart i =>
      let s := match i.cut with
        | some (r, c) => cutRecord b s r c
        | none => s
      reboot b s i.reset.toReset

/-- A cut leaves the tail of the buffer alone. -/
theorem word_cutRam {p : Ram} (c : Cut) {i : Nat} (h0 : i ≠ 0) (h4 : i ≠ 4)
    (h12 : i ≠ 12) (hi : 13 + p.max.toNat ≤ i) :
    (cutRam b p c).word i = p.word i := by
  cases c with
  | writing => rfl
  | entryStored pc =>
      by_cases hlt : p.count < p.max
      · have : p.count.toNat < p.max.toNat := hlt
        rw [cutRam, if_pos hlt, Ram.setPc,
          WordMem.word_store_ne _ _ (by omega)]
      · rw [cutRam, if_neg hlt]
  | countStored =>
      by_cases hlt : p.count < p.max
      · rw [cutRam, if_pos hlt, Ram.setCount, WordMem.word_store_ne _ _ h12]
      · rw [cutRam, if_neg hlt]
  | crcStored => rw [cutRam, Ram.setBinCrc, WordMem.word_store_ne _ _ h4]
  | chksumStored => exact word_closeRecord p h0 h4

/-- **A cut record leaves no trace outside the buffer's entries**: the
copy and the tail stay, and that is all the boot after it looks at. -/
theorem LogJournal.finds_cut (hr : RtcActive b) {s₀ s : Device}
    {j : Journal Record} (h : LogJournal b s₀ s j) (r : Record) (c : Cut)
    (x : LiveReset) :
    BootFinds b s (reset (cutRecord b s r c) x.toReset) := by
  have hcap : s.ram.max.toNat = maxDepth b := by
    rw [h.toNat_max, capacity, if_pos hr]
  have hmax : (writeItems (openRecord s.ram r.resetInfo) r.pcs).max
      = s.ram.max := word_writeItems_openRecord s.ram r (by omega)
  have hcut : cutRecord b s r c = { s with
      ram := cutRam b (writeItems (openRecord s.ram r.resetInfo) r.pcs) c } := by
    rw [cutRecord, openRecord_writes h.booted h.isSealed]
    exact if_neg h.booted.pBT
  have htail : ZeroTail b (cutRecord b s r c).ram := by
    intro i h1 h2
    rw [hcut]
    show (cutRam b _ c).word i = 0
    rw [word_cutRam c (by omega) (by omega) (by omega) (by rw [hmax]; omega),
      word_writeItems_openRecord s.ram r (by omega)]
    exact h.zeroTail hr i h1 h2
  rw [hcut] at htail ⊢
  cases x with
  | warm reason => exact ⟨rfl, fun hn => absurd hr hn, fun _ _ => htail⟩
  | deepSleep words status =>
      refine ⟨rfl, fun hn => absurd hr hn, fun _ hvalid => ?_⟩
      exact absurd (show isMemValid 5 = true from hvalid) (by decide)

/-- The copy carries the journal over any live reset, with a record cut
short by it or not. -/
theorem LogJournal.live (hr : RtcActive b) {s₀ s : Device}
    {j : Journal Record} (h : LogJournal b s₀ s j) (i : Interruption) :
    LogJournal b s₀ (rtcStep b s (.restart i))
      (j.step (.restart i : Journal.Event Record Interruption)) := by
  obtain ⟨cut, x⟩ := i
  have hboot : ∀ u, BootFinds b s (reset u x.toReset) →
      LogJournal b s₀ (reboot b u x.toReset)
        (j.step (.restart ⟨cut, x⟩ : Journal.Event Record Interruption)) :=
    fun u hu => h.restart hu (.inl hr)
      (setPBT_boot h.booted.fits (by cases x <;> rfl)) _
  cases cut with
  | none =>
      refine hboot s (h.finds ?_)
      cases x with
      | warm reason => exact ⟨rfl, fun _ => rfl⟩
      | deepSleep words status =>
          refine ⟨rfl, fun hvalid => ?_⟩
          exact absurd (show isMemValid 5 = true from hvalid) (by decide)
  | some rc => exact hboot _ (h.finds_cut hr rc.1 rc.2 x)

/-- **The RTC copy commits records atomically**: from a power-on boot with
anything in RTC memory, after any run of complete records and of resets,
warm or out of deep sleep and each with or without a record it cut short,
the log is the last complete record, or the first boot's log where there
is none; the crash count counts complete records only, and the boot
counter every boot. -/
theorem rtc_commits_atomically (b : Build) (hr : RtcActive b) (hf : Fits b)
    (words rtc : Nat → Word) (status : RtcStatus)
    (es : List (Journal.Event Record Interruption)) :
    (∀ r, (Journal.records es).getLast? = some r →
        Shows b (maxDepth b)
          (Run.run (rtcStep b) (firstBoot b words rtc status) es) r)
      ∧ (Journal.records es = [] → ∀ i, 3 ≤ i → i < 13 + b.MAX →
        (Run.run (rtcStep b) (firstBoot b words rtc status) es).ram.word i
          = (firstBoot b words rtc status).ram.word i)
      ∧ (Run.run (rtcStep b)
          (firstBoot b words rtc status) es).ram.crashCount
        = (firstBoot b words rtc status).ram.crashCount
          + .ofNat 32 (Journal.records es).length
      ∧ (Run.run (rtcStep b)
          (firstBoot b words rtc status) es).ram.bootCounter
        = (firstBoot b words rtc status).ram.bootCounter
          + .ofNat 32 (Journal.restartsIn es)
      ∧ (Run.run (rtcStep b) (firstBoot b words rtc status) es).ram.max
        = .ofNat 32 (maxDepth b) := by
  have hcap : capacity b = maxDepth b := if_pos hr
  have h := Journal.refines (f := rtcStep b)
    (R := LogJournal b (firstBoot b words rtc status))
    (fun s j r hR => hR.commit r) (fun s j i hR => hR.live hr i)
    (logJournal_firstBoot hf words rtc status) es
  have hlast := h.last
  have hmax := h.max
  rw [hcap] at hlast hmax
  refine ⟨fun r hr => (hlast r hr).shows h.booted.pBT, fun hnil => ?_,
    h.crashCount, h.bootCounter, hmax⟩
  exact h.unwritten (by rw [hnil]; rfl)

/-- One record, and a second one that a deep sleep cuts in `fin`. -/
theorem rtc_commits_atomically_cut :
    Shows minimalRtcBuild (maxDepth minimalRtcBuild)
      (Run.run (rtcStep minimalRtcBuild)
        (firstBoot minimalRtcBuild (fun _ => 0) (fun _ => 0) ⟨0, 0⟩)
        [.commit ⟨none, [1, 2]⟩,
          .restart ⟨some (⟨none, [3]⟩, .chksumStored),
            .deepSleep (fun _ => 0xffffffff) ⟨0, 0⟩⟩])
      ⟨none, [1, 2]⟩ :=
  (rtc_commits_atomically minimalRtcBuild (by decide) fits_minimalRtcBuild
    _ _ _
    [.commit ⟨none, [1, 2]⟩,
      .restart ⟨some (⟨none, [3]⟩, .chksumStored),
        .deepSleep (fun _ => 0xffffffff) ⟨0, 0⟩⟩]).1 _ rfl

end BacktraceLog
