import BacktraceLog.Log.Bounds

/-!
# What lasts

The shape a log has between the things that happen to it, whatever they
are: its capacity is that of the build, its RTC copy is the buffer, and it
is sealed, or else empty. `clear` is why the last is not simply "sealed".
Each boot keeps that shape; one that finds the log unsealed loses nothing,
because there is nothing in it. Where the log holds no more than its
capacity, the operations keep that as well, and do to the list of addresses
what they do to a bounded list.
-/

namespace BacktraceLog

variable {b : Build} {s u : Device}

/-- The entries a log has room for. -/
def capacity (b : Build) : Nat := if RtcActive b then maxDepth b else b.MAX

theorem toNat_ofNat_capacity (b : Build) :
    (BitVec.ofNat 32 (capacity b)).toNat = capacity b := by
  unfold capacity
  split
  · exact toNat_ofNat_maxDepth b
  · exact toNat_ofNat_MAX b

theorem capacity_le (b : Build) : capacity b ≤ b.MAX := by
  have hle := maxDepth_le b
  unfold capacity
  split
  · exact hle
  · exact Nat.le_refl _

theorem four_le_capacity (b : Build) : 4 ≤ capacity b := by
  unfold capacity
  split
  · rename_i hr
    exact four_le_maxDepth hr
  · exact b.min_le

/-- Nothing is stored after the entries that have room in the copy. -/
def ZeroTail (b : Build) (p : Ram) : Prop :=
  ∀ i, 13 + maxDepth b ≤ i → i < 13 + b.MAX → p.word i = 0

theorem zeroTail_emptied (q : Ram) (n : Nat) :
    ZeroTail b (emptied b q n) :=
  fun i h1 h2 => word_emptied q n (by omega) h2

/-- The copy is the buffer, as far as it goes. -/
def Mirrored (b : Build) (s : Device) : Prop :=
  ∀ i, i < 13 + maxDepth b → s.rtc (b.RTC_OFFSET + i) = s.ram.word i

/-- A log of the build's capacity, its record open or not. -/
structure Placed (b : Build) (s : Device) : Prop where
  booted : Booted b s
  max : s.ram.max = .ofNat 32 (capacity b)
  zeroTail : RtcActive b → ZeroTail b s.ram

/-- A log with no record open, whatever its count says. -/
structure Settled (b : Build) (s : Device) : Prop extends Placed b s where
  mirrored : RtcActive b → Mirrored b s
  sealed_or_empty : Sealed b s.ram ∨ s.ram.count = 0

/-- A log that holds no more than its capacity. -/
structure InShape (b : Build) (s : Device) : Prop extends Placed b s where
  count_le : s.ram.count ≤ s.ram.max

/-- Such a log with no record open. -/
structure Lasting (b : Build) (s : Device) : Prop
    extends InShape b s, Settled b s

theorem Placed.toNat_max (h : Placed b s) :
    s.ram.max.toNat = capacity b := by
  rw [h.max, toNat_ofNat_capacity]

theorem InShape.length_items_le (h : InShape b s) :
    (items s.ram).length ≤ capacity b := by
  rw [length_items, ← h.toNat_max]
  exact h.count_le

/-! ## Boots -/

/-- The boot finds its log again: in the copy, or in the buffer after a
reset that keeps it. -/
def Survives (b : Build) (reason : Word) : Prop :=
  RtcActive b ∨ isMemValid reason = true

/-- What a boot counts itself on, from a settled log. -/
inductive BootTakes (b : Build) (s u : Device) : Prop where
  | log (hkept : Survives b u.resetReason)
      (h : ∀ i, i < 13 + b.MAX → (bootTaken b u).word i = s.ram.word i)
  | empty (hlost : Survives b u.resetReason → ¬ Sealed b s.ram) (q : Ram)
      (h : bootTaken b u = emptied b q (capacity b))

/-- Over a buffer with nothing in its tail the image of the copy is the
log. -/
theorem Settled.image (hr : RtcActive b) (h : Settled b s) {q : Ram}
    (hq : ZeroTail b q) {i : Nat} (hi : i < 13 + b.MAX) :
    (rtcImage b s.rtc q).word i = s.ram.word i := by
  by_cases hlt : i < 13 + maxDepth b
  · rw [word_rtcImage_in _ _ hlt, h.mirrored hr i hlt]
  · rw [word_rtcImage_out _ _ (by omega), hq i (by omega) hi,
      h.zeroTail hr i (by omega) hi]

/-- A boot from the memory of `s`: what the RTC words are then, and the
buffer, where the reset is one that keeps it. -/
structure BootsFrom (s u : Device) : Prop where
  rtc : u.rtc = s.rtc
  ram : isMemValid u.resetReason = true → u.ram.word = s.ram.word

/-- As much of that as a boot looks at: where there is a copy, all it needs
of a kept buffer is that nothing is in its tail. -/
structure BootFinds (b : Build) (s u : Device) : Prop where
  rtc : u.rtc = s.rtc
  ram : ¬ RtcActive b → isMemValid u.resetReason = true →
    u.ram.word = s.ram.word
  tail : RtcActive b → isMemValid u.resetReason = true → ZeroTail b u.ram

theorem Placed.finds (h : Placed b s) (hu : BootsFrom s u) :
    BootFinds b s u where
  rtc := hu.rtc
  ram := fun _ => hu.ram
  tail := fun hr hvalid i h1 h2 => by
    rw [hu.ram hvalid]
    exact h.zeroTail hr i h1 h2

/-- Kept, the buffer has nothing in its tail, and emptied it has not. -/
theorem zeroTail_initTaken
    (h : isMemValid u.resetReason = true → ZeroTail b u.ram) :
    ZeroTail b (initTaken b u.ram b.MAX (!isMemValid u.resetReason)) := by
  by_cases hvalid : isMemValid u.resetReason = true
  · unfold initTaken
    split
    · exact h hvalid
    · exact zeroTail_emptied _ _
  · rw [initTaken_invalid (Bool.eq_false_iff.mpr hvalid)]
    exact zeroTail_emptied _ _

/-- Without a copy the buffer is kept where it was sealed. -/
theorem BootFinds.initTaken_cases (hr : ¬ RtcActive b)
    (h : BootFinds b s u) :
    (isMemValid u.resetReason = true
        ∧ (initTaken b u.ram b.MAX (!isMemValid u.resetReason)).word
          = s.ram.word)
      ∨ (isMemValid u.resetReason = true → ¬ Sealed b s.ram)
        ∧ initTaken b u.ram b.MAX (!isMemValid u.resetReason)
          = emptied b u.ram b.MAX := by
  by_cases hvalid : isMemValid u.resetReason = true
  · have hram := h.ram hr hvalid
    by_cases hseal : Sealed b u.ram
    · rw [initTaken_keep hvalid hseal]
      exact .inl ⟨hvalid, hram⟩
    · refine .inr ⟨fun _ hs => hseal ?_, initTaken_unsealed hseal _ _⟩
      exact hs.congr fun i _ => congrFun hram i
  · have hinvalid : isMemValid u.resetReason = false :=
      Bool.eq_false_iff.mpr hvalid
    exact .inr ⟨fun hv => absurd hv hvalid, initTaken_invalid hinvalid _⟩

theorem Settled.bootTakes (h : Settled b s) (hu : BootFinds b s u) :
    BootTakes b s u := by
  by_cases hr : RtcActive b
  · -- the copy is the log, so it passes where the log is sealed
    have htail := zeroTail_initTaken (hu.tail hr)
    have himage : ∀ i, i < 13 + b.MAX → (rtcImage b u.rtc
        (initTaken b u.ram b.MAX (!isMemValid u.resetReason))).word i
          = s.ram.word i := by
      intro i hi
      rw [hu.rtc]
      exact h.image hr htail hi
    have hcap : capacity b = maxDepth b := if_pos hr
    by_cases hseal : Sealed b s.ram
    · have haccept : RtcAccepts b (rtcImage b u.rtc
          (initTaken b u.ram b.MAX (!isMemValid u.resetReason))) :=
        RtcAccepts.congr ⟨by rw [h.max, hcap], hseal⟩ himage
      refine .log (.inl hr) fun i hi => ?_
      simp only [bootTaken, if_pos hr]
      rw [rtcTaken_accept haccept, word_rtcImage_bump, himage i hi]
    · have hreject : ¬ RtcAccepts b (rtcImage b u.rtc
          (initTaken b u.ram b.MAX (!isMemValid u.resetReason))) :=
        fun ha => hseal (ha.2.congr fun i hi => (himage i hi).symm)
      refine .empty (fun _ => hseal)
        (rtcImage b u.rtc (bump b (initTaken b u.ram b.MAX
          (!isMemValid u.resetReason)))) ?_
      simp only [bootTaken, if_pos hr]
      rw [rtcTaken_reject hreject, hcap]
  · have hcap : capacity b = b.MAX := if_neg hr
    rcases hu.initTaken_cases hr with ⟨hvalid, hword⟩ | ⟨hunsealed, hempty⟩
    · refine .log (.inr hvalid) fun i _ => ?_
      simp only [bootTaken, if_neg hr]
      rw [hword]
    · refine .empty (fun hsurv => hunsealed (hsurv.resolve_left hr))
        u.ram ?_
      simp only [bootTaken, if_neg hr]
      rw [hempty, hcap]

/-- The shape after a boot from what it counts itself on. -/
theorem settled_of_taken (hf : Fits b) {t : Device} (ht : Taken b u t)
    (hmax : (bootTaken b u).max = .ofNat 32 (capacity b))
    (htail : RtcActive b → ZeroTail b (bootTaken b u)) : Settled b t := by
  have hw : ∀ i, i ≠ 0 → i ≠ 2 →
      t.ram.word i = (bootTaken b u).word i := fun i h0 h2 => by
    rw [ht.ram, word_bump _ h0 h2]
  exact {
    booted := ht.booted hf
    max := (hw 1 (by omega) (by omega)).trans hmax
    zeroTail := fun hr i h1 h2 => by
      rw [hw i (by omega) (by omega)]
      exact htail hr i h1 h2
    mirrored := fun hr i hi => by
      rw [ht.rtc, if_pos hr, rtcStore_read _ _ hi]
    sealed_or_empty := .inl ht.sealed }

/-- The log of `s`, with one more boot counted. -/
structure BootedAgain (b : Build) (s t : Device) : Prop where
  bootCounter : t.ram.bootCounter = s.ram.bootCounter + 1
  word : ∀ i, i ≠ 0 → i ≠ 2 → i < 13 + b.MAX →
    t.ram.word i = s.ram.word i

/-- What a boot leaves of a settled log: all of it but the boot counter, or
an emptied buffer. -/
structure BootLeaves (b : Build) (s u t : Device) : Prop where
  settled : Settled b t
  isSealed : Sealed b t.ram
  found_or_empty : Survives b u.resetReason ∧ BootedAgain b s t
    ∨ (Survives b u.resetReason → ¬ Sealed b s.ram) ∧ t.ram.count = 0

/-- **A boot settles the log again.** -/
theorem Settled.boot (h : Settled b s) (hu : BootFinds b s u) {t : Device}
    (ht : Taken b u t) : BootLeaves b s u t := by
  rcases h.bootTakes hu with ⟨hsurv, hword⟩ | ⟨hlost, q, hempty⟩
  · refine ⟨settled_of_taken h.booted.fits ht ?_ ?_, ht.sealed,
      .inl ⟨hsurv, ?_, fun i h0 h2 hi => ?_⟩⟩
    · exact (hword 1 (by omega)).trans h.max
    · intro hr i h1 h2
      rw [hword i h2]
      exact h.zeroTail hr i h1 h2
    · rw [ht.ram, bootCounter_bump, Ram.bootCounter, hword 2 (by omega)]
    · rw [ht.ram, word_bump _ h0 h2, hword i hi]
  · refine ⟨settled_of_taken h.booted.fits ht ?_ ?_, ht.sealed,
      .inr ⟨hlost, ?_⟩⟩
    · rw [hempty]
      exact max_emptied q _
    · intro _
      rw [hempty]
      exact zeroTail_emptied q _
    · rw [ht.ram, Ram.count, word_bump _ (by omega) (by omega), hempty]
      exact word_emptied _ _ (by omega) (by omega)

/-- A sealed log that survives is found. -/
theorem BootLeaves.record {t : Device} (h : BootLeaves b s u t)
    (hsurv : Survives b u.resetReason) (hseal : Sealed b s.ram) :
    BootedAgain b s t :=
  (h.found_or_empty.resolve_right fun hno => hno.1 hsurv hseal).2

/-- What a boot leaves of a log that lasts: its addresses as well, where it
survives. -/
structure BootKeeps (b : Build) (s u t : Device) : Prop
    extends BootLeaves b s u t where
  lasting : Lasting b t
  kept : Survives b u.resetReason → items t.ram = items s.ram
  lost : ¬ Survives b u.resetReason → items t.ram = []

/-- **A boot keeps what lasts**: the shape, and the addresses where the
reset leaves it a copy or the buffer to find them in. -/
theorem Lasting.boot (h : Lasting b s) (hu : BootFinds b s u) {t : Device}
    (ht : Taken b u t) : BootKeeps b s u t := by
  have hleaves := h.toSettled.boot hu ht
  have hle := capacity_le b
  have hlen := h.length_items_le
  rw [length_items] at hlen
  rcases hleaves.found_or_empty with ⟨hsurv, hagain⟩ | ⟨hlost, hzero⟩
  · have hcount : t.ram.count = s.ram.count :=
      hagain.word 12 (by omega) (by omega) (by omega)
    have hmax : t.ram.max = s.ram.max :=
      hagain.word 1 (by omega) (by omega) (by omega)
    refine {
      toBootLeaves := hleaves
      lasting := { hleaves.settled with count_le := ?_ }
      kept := fun _ => items_congr hcount fun i hi =>
        hagain.word (13 + i) (by omega) (by omega) (by omega)
      lost := fun hn => absurd hsurv hn }
    rw [hcount, hmax]
    exact h.count_le
  · refine {
      toBootLeaves := hleaves
      lasting := { hleaves.settled with count_le := ?_ }
      kept := fun hsurv => ?_
      lost := fun _ => items_of_count_zero hzero }
    · rw [hzero]
      exact Nat.zero_le _
    · rw [items_of_count_zero hzero, items_of_count_zero
        (h.sealed_or_empty.resolve_left (hlost hsurv))]

/-- The device `s` as its start code finds it, `pBT` being NULL or not
yet. -/
def started (s : Device) (p : Option Word) (reason : Word) : Device :=
  { s with pBT := p, resetReason := reason }

theorem bootsFrom_started (s : Device) (p : Option Word) (reason : Word) :
    BootsFrom s (started s p reason) :=
  ⟨rfl, fun _ => rfl⟩

/-- `set_pBT`, first call of a boot or not, finds the log sealed, or boots. -/
theorem Settled.setPBT_cases (h : Settled b s) (p : Option Word)
    (reason : Word) :
    (p ≠ none ∧ Sealed b s.ram
        ∧ (setPBT b (started s p reason)).1 = started s p reason
        ∧ Settled b (started s p reason))
      ∨ (¬ (p ≠ none ∧ Sealed b s.ram)
        ∧ Taken b (started s p reason)
          (setPBT b (started s p reason)).1) := by
  by_cases hdup : p ≠ none ∧ Sealed b s.ram
  · refine .inl ⟨hdup.1, hdup.2, setPBT_sealed h.booted.fits hdup.1 hdup.2,
      ?_⟩
    exact { h with
      booted := ⟨h.booted.fits, hdup.1, h.booted.status⟩
      zeroTail := h.zeroTail
      mirrored := h.mirrored }
  · have hboots : (started s p reason).pBT = none
        ∨ ¬ Sealed b (started s p reason).ram := by
      by_cases hp : p = none
      · exact .inl hp
      · exact .inr fun hseal => hdup ⟨hp, hseal⟩
    refine .inr ⟨hdup, ?_⟩
    rw [setPBT_take h.booted.fits hboots]
    exact takeBuffer_taken _

/-- **Any `set_pBT` keeps what lasts.** -/
theorem Lasting.setPBT_cases (h : Lasting b s) (p : Option Word)
    (reason : Word) :
    (p ≠ none ∧ Sealed b s.ram
        ∧ (setPBT b (started s p reason)).1 = started s p reason
        ∧ Lasting b (started s p reason))
      ∨ (¬ (p ≠ none ∧ Sealed b s.ram)
        ∧ BootKeeps b s (started s p reason)
          (setPBT b (started s p reason)).1) := by
  rcases h.toSettled.setPBT_cases p reason with
    ⟨hp, hseal, hsame, hsettled⟩ | ⟨hdup, htaken⟩
  · exact .inl ⟨hp, hseal, hsame, { hsettled with count_le := h.count_le }⟩
  · exact .inr ⟨hdup, h.boot
      (h.finds (bootsFrom_started s p reason)) htaken⟩

/-! ## Record operations -/

/-- A change of the buffer that leaves the capacity and what is behind
it. -/
theorem Placed.withRam (h : Placed b s) {p : Ram}
    (hmax : p.max = s.ram.max) (hcount : p.count ≤ p.max)
    (htail : ∀ i, 13 + s.ram.max.toNat ≤ i → p.word i = s.ram.word i) :
    InShape b { s with ram := p } where
  booted := ⟨h.booted.fits, h.booted.pBT, h.booted.status⟩
  max := hmax.trans h.max
  count_le := hcount
  zeroTail := fun hr i h1 h2 => by
    have hcap : s.ram.max.toNat = maxDepth b := by
      rw [h.toNat_max, capacity, if_pos hr]
    rw [htail i (by omega)]
    exact h.zeroTail hr i h1 h2

/-- The `set_pBT` of `begin`: it boots again, or does nothing. -/
theorem Settled.setPBT (h : Settled b s) (p : Option Word)
    (reason : Word) :
    Settled b (setPBT b (started s p reason)).1 := by
  rcases h.setPBT_cases p reason with ⟨-, -, hsame, hsettled⟩ | ⟨-, htaken⟩
  · rw [hsame]
    exact hsettled
  · exact (h.boot (h.finds (bootsFrom_started s p reason)) htaken).settled

/-- An open record is in shape, whatever the log held. -/
theorem Settled.begin (h : Settled b s) (p : Option Word) (reason : Word)
    (r : Option RstInfo) :
    InShape b (backtraceLogBegin b (started s p reason) r)
      ∧ items (backtraceLogBegin b (started s p reason) r).ram
        = [] := by
  have hset := h.setPBT p reason
  rw [backtraceLogBegin_eq, if_neg hset.booted.pBT]
  refine ⟨hset.withRam (word_openRecord _ r (by omega)) ?_ fun i hi =>
    word_openRecord _ r (by omega), items_openRecord _ r⟩
  rw [count_openRecord]
  exact Nat.zero_le _

theorem InShape.writeAll (h : InShape b s) (pcs : List Word) :
    InShape b (writeAll s pcs)
      ∧ items (writeAll s pcs).ram
        = (items s.ram ++ pcs).take (capacity b) := by
  have hitems := items_writeItems h.count_le pcs
  have hmax : (writeItems s.ram pcs).max = s.ram.max :=
    word_writeItems s.ram pcs (by omega) (by omega)
  rw [writeAll_eq h.booted.pBT]
  refine ⟨h.withRam hmax ?_ fun i hi =>
    word_writeItems s.ram pcs (by omega) (by omega), ?_⟩
  · show (writeItems s.ram pcs).count.toNat
      ≤ (writeItems s.ram pcs).max.toNat
    rw [← length_items, hitems, hmax, List.length_take]
    exact Nat.min_le_left _ _
  · rw [← h.toNat_max]
    exact hitems

theorem InShape.fin (h : InShape b s) :
    Lasting b (backtraceLogFin b s) ∧ Sealed b (backtraceLogFin b s).ram
      ∧ items (backtraceLogFin b s).ram = items s.ram := by
  have hclosed := h.withRam (p := closeRecord b s.ram)
    (word_closeRecord _ (by omega) (by omega))
    (by
      rw [Ram.count, Ram.max, word_closeRecord _ (by omega) (by omega),
        word_closeRecord _ (by omega) (by omega)]
      exact h.count_le)
    fun i hi => word_closeRecord _ (by omega) (by omega)
  have hseal := sealed_closeRecord (b := b) s.ram
  rw [backtraceLogFin_eq h.booted]
  refine ⟨?_, hseal, items_closeRecord s.ram⟩
  exact {
    booted := ⟨h.booted.fits, h.booted.pBT, h.booted.status⟩
    max := hclosed.max
    count_le := hclosed.count_le
    zeroTail := hclosed.zeroTail
    mirrored := fun hr i hi => by
      simp only [if_pos hr]
      exact rtcStore_read _ _ hi
    sealed_or_empty := .inl hseal }

theorem Lasting.clear (h : Lasting b s) :
    Lasting b (backtraceLogClear b s)
      ∧ items (backtraceLogClear b s).ram = [] := by
  have hmax : s.ram.max.toNat ≤ b.MAX := by
    rw [h.toNat_max]
    exact capacity_le b
  have hsize := clearSize32_of_le hmax
  have hends := clearEnds_of_le hmax
  have hcount := count_clearRecord hmax
  have hcleared := h.withRam (p := clearRecord s.ram)
    (word_clearRecord hends (by omega))
    (by
      rw [hcount]
      exact Nat.zero_le _)
    fun i hi => word_clearRecord hends (by omega)
  rw [backtraceLogClear_eq h.booted]
  refine ⟨?_, items_of_count_zero hcount⟩
  exact {
    booted := ⟨h.booted.fits, h.booted.pBT, h.booted.status⟩
    max := hcleared.max
    count_le := hcleared.count_le
    zeroTail := hcleared.zeroTail
    mirrored := fun hr i hi => by
      simp only [if_pos hr]
      exact rtcStore_read _ _ hi
    sealed_or_empty := .inr hcount }

/-- Writes into an open record and its end: the bounded list grows. -/
theorem InShape.finish (h : InShape b s) (pcs : List Word) :
    Lasting b (backtraceLogFin b (BacktraceLog.writeAll s pcs))
      ∧ Sealed b (backtraceLogFin b (BacktraceLog.writeAll s pcs)).ram
      ∧ items (backtraceLogFin b (BacktraceLog.writeAll s pcs)).ram
        = (items s.ram ++ pcs).take (capacity b) := by
  obtain ⟨hshape, hitems⟩ := h.writeAll pcs
  obtain ⟨hlasting, hseal, hfin⟩ := hshape.fin
  exact ⟨hlasting, hseal, hfin.trans hitems⟩

/-! ## The first boot -/

/-- **A log is settled from the first boot on**, whatever RTC memory
holds. -/
theorem settled_firstBoot (hf : Fits b) (words rtc : Nat → Word)
    (status : RtcStatus) :
    Settled b (firstBoot b words rtc status)
      ∧ Sealed b (firstBoot b words rtc status).ram := by
  have htaken := firstBoot_taken hf words rtc status
  refine ⟨settled_of_taken hf htaken ?_ fun hr => ?_, htaken.sealed⟩
  · by_cases hr : RtcActive b
    · rw [capacity, if_pos hr]
      exact max_bootTaken hr _
    · simp only [bootTaken, if_neg hr, capacity]
      rw [initTaken_invalid rfl]
      exact max_emptied _ _
  · have htail : ZeroTail b (initTaken b (powerOn words rtc status).ram b.MAX
        (!isMemValid (powerOn words rtc status).resetReason)) :=
      zeroTail_initTaken fun hvalid =>
        absurd (show isMemValid 0 = true from hvalid) (by decide)
    simp only [bootTaken, if_pos hr]
    unfold rtcTaken
    split
    · intro i h1 h2
      rw [word_rtcImage_bump, word_rtcImage_out _ _ h1]
      exact htail i h1 h2
    · exact zeroTail_emptied _ _

/-- Without an RTC copy the first boot finds nothing. -/
theorem firstBoot_fresh (hr : ¬ RtcActive b) (hf : Fits b)
    (words rtc : Nat → Word) (status : RtcStatus) :
    (firstBoot b words rtc status).ram.crashCount = 0
      ∧ (firstBoot b words rtc status).ram.bootCounter = 1
      ∧ (firstBoot b words rtc status).ram.count = 0 := by
  have htaken := firstBoot_taken hf words rtc status
  have hboot : bootTaken b (powerOn words rtc status)
      = emptied b (powerOn words rtc status).ram b.MAX := by
    simp only [bootTaken, if_neg hr]
    exact initTaken_invalid rfl _
  have hz : ∀ i, i ≠ 1 → i < 13 + b.MAX →
      (bootTaken b (powerOn words rtc status)).word i = 0 := fun i h1 hi => by
    rw [hboot]
    exact word_emptied _ _ h1 hi
  refine ⟨?_, ?_, ?_⟩
  · rw [htaken.ram, Ram.crashCount, word_bump _ (by omega) (by omega)]
    exact hz 3 (by omega) (by omega)
  · rw [htaken.ram, bootCounter_bump, Ram.bootCounter,
      hz 2 (by omega) (by omega)]
    rfl
  · rw [htaken.ram, Ram.count, word_bump _ (by omega) (by omega)]
    exact hz 12 (by omega) (by omega)

/-- **A log lasts from the first boot on**, unless it finds one in the copy
that does not fit; without an RTC copy it starts empty. -/
theorem lasting_firstBoot (hf : Fits b) {words rtc : Nat → Word}
    (hcopy : CopyFits b rtc) (status : RtcStatus) :
    Lasting b (firstBoot b words rtc status)
      ∧ (¬ RtcActive b → items (firstBoot b words rtc status).ram = []) := by
  obtain ⟨hsettled, -⟩ := settled_firstBoot hf words rtc status
  have husable := (firstBoot_inRange hf words status hcopy).usable
  exact ⟨{ hsettled with count_le := husable.2.2 }, fun hr =>
    items_of_count_zero (firstBoot_fresh hr hf words rtc status).2.2⟩

theorem lasting_freshLog : Lasting minimalBuild freshLog :=
  (lasting_firstBoot fits_minimalBuild (fun hr => absurd hr (by decide))
    ⟨0, 0⟩).1

end BacktraceLog
