import BacktraceLog.Log.Trust
import BacktraceLog.Log.Record

/-!
# Clear and the boot after it

`backtraceLog_clear` zeroes the record but leaves the checksum of what it
zeroed in place, in the buffer and in the RTC copy it writes. Whether the
next boot still takes the log for its own is then decided by the XOR of
the erased words. The condition is exact, for every sealed log, also for
those of a capacity that makes the erased words come round to the header.
-/

namespace BacktraceLog

variable {b : Build}

/-! ## The checksum over erased words -/

/-- A sealed buffer with `k` words from `crashCount` on zeroed is sealed
exactly when those words sum to zero. -/
theorem sealed_cleared_iff {p q : Ram} (hp : Sealed b p) {k : Nat}
    (hk : k ≤ 10 + b.MAX) (hlow : ∀ i, i < 3 → q.word i = p.word i)
    (hz : ∀ i, 3 ≤ i → i < 3 + k → q.word i = 0)
    (hhigh : ∀ i, 3 + k ≤ i → i < 13 + b.MAX → q.word i = p.word i) :
    Sealed b q ↔ XorSum.fold16 (XorSum.range p.word 3 k) = 0 := by
  have hlen : 12 + b.MAX = 2 + k + (10 + b.MAX - k) := by omega
  have hsum : XorSum.range p.word 1 (12 + b.MAX)
      = XorSum.range q.word 1 (12 + b.MAX) ^^^ XorSum.range p.word 3 k := by
    rw [hlen]
    refine XorSum.range_cleared (fun i h1 h2 => hz i h1 h2) ?_
    intro i hi hlt hge
    rcases hi with hi | hi
    · exact hlow i (by omega)
    · exact hhigh i (by omega) (by omega)
  have h0 : q.chksum = p.chksum := hlow 0 (by omega)
  rw [Sealed, doChecksum_eq] at hp
  rw [Sealed, h0, hp, doChecksum_eq, XorSum.setWidth_inj, hsum,
    XorSum.fold16_xor]
  rw [eq_comm]
  exact XorSum.xor_right_eq_self_iff

/-- The checksum of the words `clear` erases. -/
def erasedSum (b : Build) (p : Ram) : BitVec 16 :=
  XorSum.fold16 (XorSum.range p.word 3 (min (clearSize32 p) (10 + b.MAX)))

/-- The checksum of everything from `crashCount` to the last entry. -/
def recordSum (b : Build) (p : Ram) : BitVec 16 :=
  XorSum.fold16 (XorSum.range p.word 3 (10 + b.MAX))

theorem sealed_clearRecord_iff {p : Ram} (hp : Sealed b p)
    (he : ClearEnds p) : Sealed b (clearRecord p) ↔ erasedSum b p = 0 := by
  refine sealed_cleared_iff hp (Nat.min_le_right ..)
    (fun i hi => word_clearRecord he (.inl hi)) ?_ ?_
  · intro i h1 h2
    exact word_clearRecord_erased he h1 (by omega)
  · intro i h1 h2
    exact word_clearRecord he (.inr (by omega))

/-! ## The boot after a clear -/

/-- The log is empty, with its capacity kept and the boot counted. -/
def ClearedLog (p q : Ram) : Prop :=
  q.count = 0 ∧ q.crashCount = 0 ∧ q.max = p.max
    ∧ q.bootCounter = p.bootCounter + 1

theorem clearedLog_bump_iff {p q : Ram} :
    ClearedLog p (bump b q) ↔ q.count = 0 ∧ q.crashCount = 0
      ∧ q.max = p.max ∧ q.bootCounter = p.bootCounter := by
  have h12 : (bump b q).count = q.count := word_bump q (by omega) (by omega)
  have h3 : (bump b q).crashCount = q.crashCount :=
    word_bump q (by omega) (by omega)
  have h1 : (bump b q).max = q.max := word_bump q (by omega) (by omega)
  rw [ClearedLog, h12, h3, h1, bootCounter_bump, BitVec.add_left_inj]

/-- A boot on an emptied buffer looks like the boot after a clear only
where the boot counter stood at 0 and the capacity is the same. -/
theorem clearedLog_emptied_iff (p r : Ram) (n : Nat) :
    ClearedLog p (bump b (emptied b r n))
      ↔ p.max = .ofNat 32 n ∧ p.bootCounter = 0 := by
  have h12 : (emptied b r n).count = 0 := word_emptied r n (by omega) (by omega)
  have h3 : (emptied b r n).crashCount = 0 :=
    word_emptied r n (by omega) (by omega)
  have h2 : (emptied b r n).bootCounter = 0 :=
    word_emptied r n (by omega) (by omega)
  rw [clearedLog_bump_iff, h12, h3, h2, max_emptied]
  constructor
  · rintro ⟨-, -, h4, h5⟩
    exact ⟨h4.symm, h5.symm⟩
  · rintro ⟨h4, h5⟩
    exact ⟨rfl, rfl, h4.symm, h5.symm⟩

/-- The resets a log is meant to live through: a warm one, and with an RTC
copy the wake from deep sleep. -/
def KeepsLog (b : Build) : Reset → Prop
  | .warm reason => isMemValid reason = true
  | .deepSleep _ _ => RtcActive b

/-- The erased words reach `crashCount` and `count`, or these were 0; only
a capacity near `2 ^ 30` makes the size wrap and fall short of them. -/
def ErasesHeader (p : Ram) : Prop :=
  (1 ≤ clearSize32 p ∨ p.crashCount = 0) ∧ (10 ≤ clearSize32 p ∨ p.count = 0)

/-- The erased words come round to the checksum, but not to the capacity
after it. -/
def ErasesChksum (p : Ram) : Prop := 3 + clearSize32 p = 2 ^ 30 + 1

/-- The condition under which a cleared log passes the next boot. Where the
erased words come round to the checksum, it is zero, and all that is left
to sum up is the capacity and the boot counter. -/
def ClearSurvives (b : Build) (p : Ram) (r : Reset) : Prop :=
  if RtcActive b then
    p.max = .ofNat 32 (maxDepth b)
      ∧ (recordSum b p = 0
        ∨ (∃ reason, r = .warm reason) ∧ erasedSum b p = 0
        ∨ p.bootCounter = 0)
  else
    ClearEnds p ∧ erasedSum b p = 0 ∧ ErasesHeader p
      ∨ ClearEnds p ∧ erasedSum b p ≠ 0 ∧ p.max = .ofNat 32 b.MAX
        ∧ p.bootCounter = 0
      ∨ ErasesChksum p ∧ XorSum.fold16 (p.max ^^^ p.bootCounter) = 0

theorem clearedLog_clearRecord_iff {p : Ram} (he : ClearEnds p) :
    ClearedLog p (bump b (clearRecord p)) ↔ ErasesHeader p := by
  have h1 : (clearRecord p).max = p.max := word_clearRecord he (by omega)
  have h2 : (clearRecord p).bootCounter = p.bootCounter :=
    word_clearRecord he (by omega)
  have h3 : (clearRecord p).crashCount = 0
      ↔ 1 ≤ clearSize32 p ∨ p.crashCount = 0 := by
    rw [Ram.crashCount, clearRecord_of_ends he, WordMem.word_blit]
    by_cases h : 1 ≤ clearSize32 p
    · simp [h, show 3 < 3 + clearSize32 p by omega]
    · simp [show clearSize32 p = 0 by omega]
  have h12 : (clearRecord p).count = 0
      ↔ 10 ≤ clearSize32 p ∨ p.count = 0 := by
    rw [Ram.count, clearRecord_of_ends he, WordMem.word_blit]
    by_cases h : 10 ≤ clearSize32 p
    · simp [h, show 12 < 3 + clearSize32 p by omega]
    · simp [h, show ¬ 12 < 3 + clearSize32 p by omega]
  rw [clearedLog_bump_iff, h1, h2, h3, h12, ErasesHeader]
  constructor
  · rintro ⟨h, h', -, -⟩
    exact ⟨h', h⟩
  · rintro ⟨h', h⟩
    exact ⟨h, h', rfl, rfl⟩

/-! ## Erased words that come round -/

/-- Only a capacity no build has makes the erased words come round. -/
theorem max_ne_of_round {p : Ram} (h : ¬ ClearEnds p) {n : Nat}
    (hn : n ≤ b.MAX) : p.max ≠ .ofNat 32 n := by
  have hsz := b.sizeof_lt
  intro hmax
  have hlt : p.max.toNat ≤ b.MAX := by
    rw [hmax, BitVec.toNat_ofNat, Nat.mod_eq_of_lt (by omega)]
    exact hn
  exact h (clearEnds_of_le hlt)

theorem word_clearRecord_round {p : Ram} (h : ¬ ClearEnds p) {i : Nat}
    (hi : i < 2 ^ 30) :
    (clearRecord p).word i
      = if 3 ≤ i ∨ i + 2 ^ 30 < 3 + clearSize32 p then 0 else p.word i := by
  rw [ClearEnds] at h
  rw [clearRecord, WordMem.word_blitRound _ _ (by omega) hi]
  by_cases h3 : 3 ≤ i
  · rw [if_pos (.inl ⟨h3, by omega⟩), if_pos (.inl h3)]
  · simp [h3]

theorem ErasesChksum.not_ends {p : Ram} (h : ErasesChksum p) :
    ¬ ClearEnds p := by
  rw [ErasesChksum] at h
  rw [ClearEnds]
  omega

/-- Of the words the checksum covers the capacity and the boot counter are
left, and the checksum itself is zero. -/
theorem sealed_clearRecord_round_iff {p : Ram} (h : ErasesChksum p) :
    Sealed b (clearRecord p)
      ↔ XorSum.fold16 (p.max ^^^ p.bootCounter) = 0 := by
  have hsz := b.sizeof_lt
  have hw : ∀ i, i < 2 ^ 30 → (clearRecord p).word i
      = if 3 ≤ i ∨ i = 0 then 0 else p.word i := fun i hi => by
    have hn : 3 + clearSize32 p = 2 ^ 30 + 1 := h
    have hround : 3 ≤ i ∨ i + 2 ^ 30 < 2 ^ 30 + 1 ↔ 3 ≤ i ∨ i = 0 := by omega
    rw [word_clearRecord_round h.not_ends hi, hn]
    simp only [hround]
  have h0 : (clearRecord p).chksum = 0 := hw 0 (by omega)
  have h1 : (clearRecord p).word 1 = p.max := hw 1 (by omega)
  have h2 : (clearRecord p).word 2 = p.bootCounter := hw 2 (by omega)
  have hrest : XorSum.range (clearRecord p).word 3 (10 + b.MAX) = 0 :=
    XorSum.range_eq_zero fun i hi1 hi2 => by
      rw [hw i (by omega), if_pos (.inl hi1)]
  have hsum : XorSum.range (clearRecord p).word 1 (12 + b.MAX)
      = p.max ^^^ p.bootCounter := by
    rw [show 12 + b.MAX = 2 + (10 + b.MAX) by omega, XorSum.range_add, hrest]
    simp [XorSum.range_succ, h1, h2]
  have hzero : (0 : Word) = (0 : BitVec 16).setWidth 32 := by decide
  rw [Sealed, h0, doChecksum_eq, hsum, hzero, XorSum.setWidth_inj, eq_comm]

/-- One word further and the capacity is gone as well. -/
theorem clearedLog_clearRecord_round_iff {p : Ram} (h : ¬ ClearEnds p) :
    ClearedLog p (bump b (clearRecord p)) ↔ ErasesChksum p := by
  have hw := fun i => word_clearRecord_round (i := i) h
  have hlt : clearSize32 p < 2 ^ 30 := by
    rw [clearSize32_eq]
    exact Nat.mod_lt _ (by decide)
  have hmax : p.max ≠ 0 := max_ne_of_round (b := b) (n := 0) h (by omega)
  rw [ClearEnds] at h
  have h3 : (clearRecord p).crashCount = 0 := hw 3 (by omega)
  have h12 : (clearRecord p).count = 0 := hw 12 (by omega)
  have h2 : (clearRecord p).bootCounter = p.bootCounter := by
    rw [Ram.bootCounter, hw 2 (by omega), if_neg (by omega)]
  rw [clearedLog_bump_iff, h12, h3, h2, ErasesChksum]
  by_cases hn : 3 + clearSize32 p = 2 ^ 30 + 1
  · have h1 : (clearRecord p).max = p.max := by
      rw [Ram.max, hw 1 (by omega), if_neg (by omega)]
    exact ⟨fun _ => hn, fun _ => ⟨rfl, rfl, h1, rfl⟩⟩
  · have h1 : (clearRecord p).max = 0 := by
      rw [Ram.max, hw 1 (by omega), if_pos (by omega)]
    rw [h1]
    exact ⟨fun hc => absurd hc.2.2.1.symm hmax, fun hc => absurd hc hn⟩

/-- The buffer `backtraceLog_init` leaves to the RTC check after a clear:
the cleared one where a warm reset found it sealed, an emptied one
elsewhere. -/
theorem initTaken_after_clear {p : Ram} {s : Device}
    (hs : s.ram = clearRecord p) {r : Reset} (hr : KeepsLog b r) :
    ((∃ reason, r = .warm reason) ∧ Sealed b (clearRecord p))
        ∧ initTaken b (reset s r).ram b.MAX (!isMemValid (reset s r).resetReason)
          = clearRecord p
      ∨ ¬ ((∃ reason, r = .warm reason) ∧ Sealed b (clearRecord p))
        ∧ ∃ q, initTaken b (reset s r).ram b.MAX
            (!isMemValid (reset s r).resetReason) = emptied b q b.MAX := by
  cases r with
  | warm reason =>
      have hram : (reset s (.warm reason)).ram = clearRecord p := hs
      by_cases h : Sealed b (clearRecord p)
      · refine .inl ⟨⟨⟨reason, rfl⟩, h⟩, ?_⟩
        rw [← hram] at h ⊢
        exact initTaken_keep (s := reset s (.warm reason)) hr h b.MAX
      · refine .inr ⟨fun hc => h hc.2, ?_⟩
        rw [← hram] at h
        exact ⟨_, initTaken_unsealed h _ _⟩
  | deepSleep words status =>
      refine .inr ⟨?_, _, initTaken_invalid rfl b.MAX⟩
      rintro ⟨⟨reason, h⟩, -⟩
      cases h

/-! ## With an RTC copy -/

/-- Of a log with the copy's capacity `clear` erases all the copy has. -/
theorem clearSize32_of_max {p : Ram}
    (hmax : p.max = .ofNat 32 (maxDepth b)) :
    ClearEnds p ∧ clearSize32 p = 10 + maxDepth b := by
  have hnat : p.max.toNat = maxDepth b := by
    rw [hmax, toNat_ofNat_maxDepth]
  have hle : p.max.toNat ≤ b.MAX := by
    rw [hnat]
    exact maxDepth_le b
  refine ⟨clearEnds_of_le hle, ?_⟩
  rw [clearSize32_of_le hle, hnat]

/-- The RTC copy `clear` wrote, read back over a buffer with nothing after
the copied words, passes exactly when the whole record sums to zero. -/
theorem rtcAccepts_cleared_iff {p q : Ram} (hp : Sealed b p)
    (hmax : p.max = .ofNat 32 (maxDepth b)) (rtc : Nat → Word)
    (hq : ∀ i, 13 + maxDepth b ≤ i → i < 13 + b.MAX → q.word i = 0) :
    RtcAccepts b (rtcImage b (rtcStore b rtc (clearRecord p)) q)
      ↔ recordSum b p = 0 := by
  obtain ⟨he, hsize⟩ := clearSize32_of_max hmax
  have hlow : ∀ i, i < 3 →
      (rtcImage b (rtcStore b rtc (clearRecord p)) q).word i = p.word i :=
    fun i hi => by
      rw [word_rtcImage_rtcStore _ _ _ (by omega),
        word_clearRecord he (.inl hi)]
  have hz : ∀ i, 3 ≤ i → i < 3 + (10 + b.MAX) →
      (rtcImage b (rtcStore b rtc (clearRecord p)) q).word i = 0 := by
    intro i h1 h2
    by_cases h : i < 13 + maxDepth b
    · rw [word_rtcImage_rtcStore _ _ _ h]
      exact word_clearRecord_erased he h1 (by omega)
    · rw [word_rtcImage_out _ _ (by omega)]
      exact hq i (by omega) (by omega)
  have hseal := sealed_cleared_iff hp (Nat.le_refl (10 + b.MAX)) hlow hz
    (fun i h1 h2 => absurd h2 (by omega))
  rw [RtcAccepts, hseal]
  exact ⟨fun h => h.2, fun h => ⟨(hlow 1 (by omega)).trans hmax, h⟩⟩

/-- Read back over the cleared buffer itself, it passes when that buffer is
still sealed. -/
theorem rtcAccepts_kept {p : Ram} (hmax : p.max = .ofNat 32 (maxDepth b))
    (hseal : Sealed b (clearRecord p)) (rtc : Nat → Word) :
    RtcAccepts b (rtcImage b (rtcStore b rtc (clearRecord p))
      (clearRecord p)) := by
  have haccept : RtcAccepts b (clearRecord p) :=
    ⟨(word_clearRecord (clearSize32_of_max hmax).1 (by omega)).trans hmax,
      hseal⟩
  refine haccept.congr fun i _ => ?_
  by_cases h : i < 13 + maxDepth b
  · exact word_rtcImage_rtcStore _ _ _ h
  · exact word_rtcImage_out _ _ (by omega)

/-- A log of another capacity is not the copy's, with its capacity erased
or not. -/
theorem not_rtcAccepts_of_max (hr : RtcActive b) {p q : Ram}
    (hmax : p.max ≠ .ofNat 32 (maxDepth b)) (rtc : Nat → Word) :
    ¬ RtcAccepts b (rtcImage b (rtcStore b rtc (clearRecord p)) q) := by
  rintro ⟨h, -⟩
  rw [Ram.max, word_rtcImage_rtcStore _ _ _ (by omega)] at h
  rcases WordMem.word_blitRound_or p (2 ^ 30) 3 (clearSize32 p) 1
    (fun _ => 0) with h0 | hsame
  · have hzero : BitVec.ofNat 32 (maxDepth b) = 0 := h.symm.trans h0
    have hnat := congrArg BitVec.toNat hzero
    have h4 := four_le_maxDepth hr
    rw [toNat_ofNat_maxDepth] at hnat
    simp at hnat
    omega
  · exact hmax (hsame.symm.trans h)

/-- An accepted copy shows the cleared log. -/
theorem clearedLog_image {p : Ram} (hmax : p.max = .ofNat 32 (maxDepth b))
    (rtc : Nat → Word) (q : Ram) :
    ClearedLog p
      (bump b (rtcImage b (rtcStore b rtc (clearRecord p)) q)) := by
  obtain ⟨he, hsize⟩ := clearSize32_of_max hmax
  have hheader : ErasesHeader p := ⟨.inl (by omega), .inl (by omega)⟩
  have h := (clearedLog_clearRecord_iff (b := b) he).mpr hheader
  rw [clearedLog_bump_iff] at h ⊢
  have hw : ∀ i, i < 13 + maxDepth b →
      (rtcImage b (rtcStore b rtc (clearRecord p)) q).word i
        = (clearRecord p).word i :=
    fun i hi => word_rtcImage_rtcStore rtc (clearRecord p) q hi
  simp only [Ram.count, Ram.crashCount, Ram.max, Ram.bootCounter,
    hw 12 (by omega), hw 3 (by omega), hw 1 (by omega), hw 2 (by omega)]
  exact h

/-- The boot of a log with a copy, where `q` is what the initialisation of
the buffer left: the cleared buffer if it was kept, else an emptied one. -/
theorem clearedLog_rtcTaken_iff (hr : RtcActive b) {p q : Ram}
    (hp : Sealed b p) (rtc : Nat → Word) {kept : Prop}
    (hq : (kept ∧ Sealed b (clearRecord p)) ∧ q = clearRecord p
      ∨ ¬ (kept ∧ Sealed b (clearRecord p))
        ∧ ∃ r, q = emptied b r b.MAX) :
    ClearedLog p
        (bump b (rtcTaken b (rtcStore b rtc (clearRecord p)) (bump b q)))
      ↔ p.max = .ofNat 32 (maxDepth b)
        ∧ (recordSum b p = 0 ∨ kept ∧ erasedSum b p = 0
          ∨ p.bootCounter = 0) := by
  by_cases hmax : p.max = .ofNat 32 (maxDepth b)
  · have hsealed := sealed_clearRecord_iff hp (clearSize32_of_max hmax).1
    rcases hq with ⟨⟨hkept, hseal⟩, rfl⟩ | ⟨hnot, r, rfl⟩
    · rw [rtcTaken_accept (rtcAccepts_kept hmax hseal rtc)]
      exact ⟨fun _ => ⟨hmax, .inr (.inl ⟨hkept, hsealed.mp hseal⟩)⟩,
        fun _ => clearedLog_image hmax rtc _⟩
    · have hacc := rtcAccepts_cleared_iff hp hmax rtc
        (q := emptied b r b.MAX) fun i h1 h2 => word_emptied r _ (by omega) h2
      by_cases hsum : recordSum b p = 0
      · rw [rtcTaken_accept (hacc.mpr hsum)]
        exact ⟨fun _ => ⟨hmax, .inl hsum⟩,
          fun _ => clearedLog_image hmax rtc _⟩
      · rw [rtcTaken_reject fun h => hsum (hacc.mp h), clearedLog_emptied_iff]
        constructor
        · rintro ⟨-, h⟩
          exact ⟨hmax, .inr (.inr h)⟩
        · rintro ⟨-, h | h | h⟩
          · exact absurd h hsum
          · exact absurd ⟨h.1, hsealed.mpr h.2⟩ hnot
          · exact ⟨hmax, h⟩
  · -- the copy is rejected, and the emptied log has another capacity
    rw [rtcTaken_reject (not_rtcAccepts_of_max hr hmax rtc),
      clearedLog_emptied_iff]
    exact ⟨fun h => absurd h.1 hmax, fun h => absurd h.1 hmax⟩

/-- The boot of a log without one, after a warm reset. -/
theorem clearedLog_initTaken_iff {p q : Ram} (hp : Sealed b p)
    (hq : Sealed b (clearRecord p) ∧ q = clearRecord p
      ∨ ¬ Sealed b (clearRecord p) ∧ ∃ r, q = emptied b r b.MAX) :
    ClearedLog p (bump b q)
      ↔ ClearEnds p ∧ erasedSum b p = 0 ∧ ErasesHeader p
        ∨ ClearEnds p ∧ erasedSum b p ≠ 0 ∧ p.max = .ofNat 32 b.MAX
          ∧ p.bootCounter = 0
        ∨ ErasesChksum p
          ∧ XorSum.fold16 (p.max ^^^ p.bootCounter) = 0 := by
  by_cases he : ClearEnds p
  · have hsealed := sealed_clearRecord_iff hp he
    have hround : ¬ ErasesChksum p := fun h => h.not_ends he
    simp only [he, hround, true_and, false_and, or_false]
    rcases hq with ⟨hseal, rfl⟩ | ⟨hnot, r, rfl⟩
    · have hsum := hsealed.mp hseal
      rw [clearedLog_clearRecord_iff he]
      exact ⟨fun h => .inl ⟨hsum, h⟩,
        fun h => h.elim (·.2) fun h => absurd hsum h.1⟩
    · have hsum : erasedSum b p ≠ 0 := fun h => hnot (hsealed.mpr h)
      rw [clearedLog_emptied_iff]
      exact ⟨fun h => .inr ⟨hsum, h⟩,
        fun h => h.elim (fun h => absurd h.1 hsum) (·.2)⟩
  · simp only [he, false_and, false_or]
    rcases hq with ⟨hseal, rfl⟩ | ⟨hnot, r, rfl⟩
    · rw [clearedLog_clearRecord_round_iff he]
      exact ⟨fun h => ⟨h, (sealed_clearRecord_round_iff h).mp hseal⟩,
        fun h => h.1⟩
    · have hmax := max_ne_of_round he (Nat.le_refl b.MAX)
      rw [clearedLog_emptied_iff]
      exact ⟨fun h => absurd h.1 hmax,
        fun h => absurd ((sealed_clearRecord_round_iff h.1).mpr h.2) hnot⟩

/-! ## The exact condition -/

/-- **When a cleared log survives the next boot**, for every sealed log
and every reset the log is meant to live through. -/
theorem clear_survives_iff (b : Build) (s : Device) (hs : Booted b s)
    (hseal : Sealed b s.ram) (r : Reset) (hr : KeepsLog b r) :
    ClearedLog s.ram (reboot b (backtraceLogClear b s) r).ram
      ↔ ClearSurvives b s.ram r := by
  have hclear := backtraceLogClear_eq hs
  have hram : (backtraceLogClear b s).ram = clearRecord s.ram := by
    rw [hclear]
  have hnone : (reset (backtraceLogClear b s) r).pBT = none := by
    cases r <;> rfl
  have htaken := setPBT_boot hs.fits hnone
  have hinit := initTaken_after_clear hram hr
  rw [reboot, htaken.ram, bootTaken, ClearSurvives]
  generalize initTaken b (reset (backtraceLogClear b s) r).ram b.MAX
    (!isMemValid (reset (backtraceLogClear b s) r).resetReason) = q at hinit
  by_cases ha : RtcActive b
  · have hrtc : (reset (backtraceLogClear b s) r).rtc
        = rtcStore b s.rtc (clearRecord s.ram) := by
      cases r <;> simp [reset, hclear, ha]
    simp only [if_pos ha, hrtc]
    exact clearedLog_rtcTaken_iff ha hseal s.rtc hinit
  · -- without a copy the reset is warm
    have hwarm : ∃ reason, r = .warm reason := by
      cases r with
      | warm reason => exact ⟨reason, rfl⟩
      | deepSleep words status => exact absurd hr ha
    simp only [hwarm, true_and] at hinit
    simp only [if_neg ha]
    exact clearedLog_initTaken_iff hseal hinit

theorem clear_survives_iff_oneRecord :
    ClearedLog (oneRecord minimalRtcBuild).ram
        (reboot minimalRtcBuild
          (backtraceLogClear minimalRtcBuild (oneRecord minimalRtcBuild))
          (.warm 4)).ram
      ↔ ClearSurvives minimalRtcBuild (oneRecord minimalRtcBuild).ram
          (.warm 4) :=
  clear_survives_iff minimalRtcBuild (oneRecord minimalRtcBuild)
    (oneRecord_sealed fits_minimalRtcBuild).1
    (oneRecord_sealed fits_minimalRtcBuild).2 (.warm 4)
    (show isMemValid 4 = true by decide)

/-- A log with one record, cleared and reset by software: both copies are
rejected, and the boot counter starts over at 1 instead of reaching 2. -/
theorem clear_resets_bootCounter :
    Booted minimalRtcBuild (oneRecord minimalRtcBuild)
      ∧ Sealed minimalRtcBuild (oneRecord minimalRtcBuild).ram
      ∧ KeepsLog minimalRtcBuild (.warm 4)
      ∧ (oneRecord minimalRtcBuild).ram.bootCounter = 1
      ∧ (reboot minimalRtcBuild
          (backtraceLogClear minimalRtcBuild (oneRecord minimalRtcBuild))
          (.warm 4)).ram.bootCounter = 1
      ∧ ¬ ClearedLog (oneRecord minimalRtcBuild).ram
          (reboot minimalRtcBuild
            (backtraceLogClear minimalRtcBuild (oneRecord minimalRtcBuild))
            (.warm 4)).ram := by
  refine ⟨(oneRecord_sealed fits_minimalRtcBuild).1, by decide,
    show isMemValid 4 = true by decide, by decide, by decide, ?_⟩
  rintro ⟨-, -, -, h⟩
  exact absurd h (by decide)

end BacktraceLog
