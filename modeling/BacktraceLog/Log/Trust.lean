import BacktraceLog.Log.Boot

/-!
# What a boot trusts

The boot-time `set_pBT` over memory it did not write: buffers left by
another build or by power-on noise, RTC words overwritten in between. Two
questions: when is the buffer usable afterwards, and when does a good
buffer survive a damaged RTC copy. Both have an exact answer, and neither
is "always": `backtraceLog_init` tests the checksum only, and
`rtc_check_init` reads the copy over the buffer before testing it.
-/

namespace BacktraceLog

variable {b : Build}

/-! ## The copy under test -/

/-- The image under test has the words of the copy and of the buffer's
tail; the boot counted in between is in neither. -/
theorem word_rtcImage_bump (rtc : Nat → Word) (p : Ram) (i : Nat) :
    (rtcImage b rtc (bump b p)).word i = (rtcImage b rtc p).word i := by
  by_cases h : i < 13 + maxDepth b
  · rw [word_rtcImage_in _ _ h, word_rtcImage_in _ _ h]
  · rw [word_rtcImage_out _ _ (by omega), word_rtcImage_out _ _ (by omega),
      word_bump _ (by omega) (by omega)]

theorem RtcAccepts.congr {p q : Ram} (h : RtcAccepts b p)
    (hpq : ∀ i, i < 13 + b.MAX → q.word i = p.word i) : RtcAccepts b q := by
  obtain ⟨h1, h2⟩ := h
  exact ⟨(hpq 1 (by omega)).trans h1, h2.congr hpq⟩

theorem rtcAccepts_bump_iff (rtc : Nat → Word) (p : Ram) :
    RtcAccepts b (rtcImage b rtc (bump b p))
      ↔ RtcAccepts b (rtcImage b rtc p) :=
  ⟨fun h => h.congr fun i _ => (word_rtcImage_bump rtc p i).symm,
    fun h => h.congr fun i _ => word_rtcImage_bump rtc p i⟩

theorem rtcTaken_accept {rtc : Nat → Word} {p : Ram}
    (h : RtcAccepts b (rtcImage b rtc p)) :
    rtcTaken b rtc (bump b p) = rtcImage b rtc (bump b p) :=
  if_pos ((rtcAccepts_bump_iff rtc p).mpr h)

theorem rtcTaken_reject {rtc : Nat → Word} {p : Ram}
    (h : ¬ RtcAccepts b (rtcImage b rtc p)) :
    rtcTaken b rtc (bump b p)
      = emptied b (rtcImage b rtc (bump b p)) (maxDepth b) :=
  if_neg fun hb => h ((rtcAccepts_bump_iff rtc p).mp hb)

/-- The copy on its own, read over zeros, passes the test. -/
def CopyGood (b : Build) (rtc : Nat → Word) : Prop :=
  RtcAccepts b (rtcImage b rtc { word := fun _ => 0, storeEnd := 0 })

/-- Over a buffer with nothing after the copied words the test is of the
copy alone. -/
theorem rtcAccepts_iff_copyGood {p : Ram}
    (hp : ∀ i, 13 + maxDepth b ≤ i → i < 13 + b.MAX → p.word i = 0)
    (rtc : Nat → Word) :
    RtcAccepts b (rtcImage b rtc p) ↔ CopyGood b rtc := by
  have hw : ∀ i, i < 13 + b.MAX → (rtcImage b rtc p).word i
      = (rtcImage b rtc { word := fun _ => 0, storeEnd := 0 }).word i := by
    intro i hi
    by_cases h : i < 13 + maxDepth b
    · rw [word_rtcImage_in _ _ h, word_rtcImage_in _ _ h]
    · rw [word_rtcImage_out _ _ (by omega), hp i (by omega) hi,
        word_rtcImage_out _ _ (by omega)]
  exact ⟨fun h => h.congr fun i hi => (hw i hi).symm,
    fun h => h.congr hw⟩

/-- The copy a build finds at power on is no log, or one that fits. -/
def CopyFits (b : Build) (rtc : Nat → Word) : Prop :=
  RtcActive b → CopyGood b rtc →
    (rtc (b.RTC_OFFSET + 12)).toNat ≤ maxDepth b

/-! ## A usable buffer -/

/-- The log can be written, read and reported inside the buffer, and has
room for a record. -/
def Usable (b : Build) (p : Ram) : Prop :=
  logMin ≤ p.max.toNat ∧ p.max.toNat ≤ b.MAX ∧ p.count.toNat ≤ p.max.toNat

/-- An emptied buffer is usable when its capacity is in range. -/
theorem usable_emptied (p : Ram) {n : Nat} (h4 : 4 ≤ n) (hn : n ≤ b.MAX) :
    Usable b (emptied b p n) := by
  have hsz := b.sizeof_lt
  have hmax : (emptied b p n).max.toNat = n := by
    rw [max_emptied, BitVec.toNat_ofNat, Nat.mod_eq_of_lt (by omega)]
  have hcount : (emptied b p n).count.toNat = 0 := by
    rw [Ram.count, word_emptied p n (by omega) (by omega)]
    rfl
  rw [Usable, hmax, hcount]
  exact ⟨h4, hn, Nat.zero_le _⟩

theorem usable_bump_iff (p : Ram) : Usable b (bump b p) ↔ Usable b p := by
  have h1 : (bump b p).max = p.max := word_bump p (by omega) (by omega)
  have h2 : (bump b p).count = p.count := word_bump p (by omega) (by omega)
  rw [Usable, Usable, h1, h2]

/-- The boot takes no count or capacity on trust that is out of range:
without RTC, a buffer it keeps is in range; with RTC, a copy it accepts
holds no more entries than it has room for. -/
def BootTrustsUsable (b : Build) (s : Device) : Prop :=
  if RtcActive b then
    RtcAccepts b (rtcImage b s.rtc
      (initTaken b s.ram b.MAX (!isMemValid s.resetReason))) →
      (s.rtc (b.RTC_OFFSET + 12)).toNat ≤ maxDepth b
  else
    isMemValid s.resetReason = true → Sealed b s.ram → Usable b s.ram

/-- The same of the buffer the boot counts itself on. -/
theorem usable_bootTaken_iff (b : Build) (s : Device) :
    Usable b (bootTaken b s) ↔ BootTrustsUsable b s := by
  rw [bootTaken, BootTrustsUsable]
  by_cases hr : RtcActive b
  · -- the copy decides; its capacity is the one the test demands
    simp only [if_pos hr]
    have h4 := four_le_maxDepth hr
    have hle := maxDepth_le b
    generalize initTaken b s.ram b.MAX (!isMemValid s.resetReason) = q
    by_cases ha : RtcAccepts b (rtcImage b s.rtc q)
    · have hmax : (rtcImage b s.rtc (bump b q)).max.toNat
          = maxDepth b := by
        have hmax : (rtcImage b s.rtc q).word 1 = _ := ha.1
        rw [Ram.max, word_rtcImage_bump, hmax, toNat_ofNat_maxDepth]
      have hcount : (rtcImage b s.rtc (bump b q)).count
          = s.rtc (b.RTC_OFFSET + 12) :=
        word_rtcImage_in _ _ (by omega)
      rw [rtcTaken_accept ha, Usable, hmax, hcount]
      constructor
      · rintro ⟨_, _, h⟩ _
        exact h
      · intro h
        exact ⟨h4, hle, h ha⟩
    · rw [rtcTaken_reject ha]
      exact ⟨fun _ h => absurd h ha, fun _ => usable_emptied _ h4 hle⟩
  · -- the buffer is kept, or emptied for one of two reasons
    simp only [if_neg hr]
    by_cases hv : isMemValid s.resetReason = true
    · by_cases hseal : Sealed b s.ram
      · rw [initTaken_keep hv hseal]
        exact ⟨fun h _ _ => h, fun h => h hv hseal⟩
      · rw [initTaken_unsealed hseal]
        exact ⟨fun _ _ h => absurd h hseal,
          fun _ => usable_emptied _ b.min_le (Nat.le_refl _)⟩
    · rw [initTaken_invalid (by simpa using hv)]
      exact ⟨fun _ h => absurd h hv,
        fun _ => usable_emptied _ b.min_le (Nat.le_refl _)⟩

/-- **When a boot yields a usable buffer**, for all contents of RAM and RTC
and every reset reason. -/
theorem boot_usable_iff (b : Build) (s : Device) (hs : s.pBT = none)
    (hp : (setPBT b s).1.pBT ≠ none) :
    Usable b (setPBT b s).1.ram ↔ BootTrustsUsable b s := by
  rw [(setPBT_boot (fits_of_pBT hp) hs).ram, usable_bump_iff,
    usable_bootTaken_iff]

theorem boot_usable_iff_blank :
    Usable minimalRtcBuild (setPBT minimalRtcBuild (blank 6)).1.ram
      ↔ BootTrustsUsable minimalRtcBuild (blank 6) :=
  boot_usable_iff minimalRtcBuild (blank 6) rfl (by decide)

/-- RAM that reads all zero under an accepted reset reason (an external
reset reported at power on) is sealed as it stands, with capacity zero. -/
theorem boot_blank_unusable :
    (setPBT minimalBuild (blank 6)).1.pBT ≠ none
      ∧ ¬ Usable minimalBuild (setPBT minimalBuild (blank 6)).1.ram := by
  refine ⟨by decide, ?_⟩
  rintro ⟨h, -, -⟩
  exact absurd h (by decide)

/-! ## A damaged copy -/

/-- The parts of the log a record consists of. -/
structure SameRecord (p q : Ram) : Prop where
  count : p.count = q.count
  pc : ∀ i, i < q.count.toNat → p.pc i = q.pc i
  rstInfo : p.rstInfo = q.rstInfo
  crashCount : p.crashCount = q.crashCount

theorem SameRecord.of_words {p q : Ram}
    (h : ∀ i, 3 ≤ i → p.word i = q.word i) : SameRecord p q where
  count := h 12 (by omega)
  pc := fun i _ => h (13 + i) (by omega)
  rstInfo := Ram.rstInfo_congr fun i h1 _ => h i (by omega)
  crashCount := h 3 (by omega)

/-- The log of an emptied buffer. -/
def EmptyRecord (p : Ram) : Prop :=
  p.count = 0 ∧ p.rstInfo = .zero ∧ p.crashCount = 0

theorem emptyRecord_emptied (p : Ram) (n : Nat) :
    EmptyRecord (emptied b p n) :=
  ⟨word_emptied p n (by omega) (by omega), rstInfo_emptied p n,
    word_emptied p n (by omega) (by omega)⟩

theorem sameRecord_emptied_iff (p q : Ram) (n : Nat) :
    SameRecord (emptied b p n) q ↔ EmptyRecord q := by
  obtain ⟨hc, hr, hk⟩ := emptyRecord_emptied (b := b) p n
  constructor
  · intro h
    exact ⟨by rw [← h.count, hc], by rw [← h.rstInfo, hr],
      by rw [← h.crashCount, hk]⟩
  · rintro ⟨h1, h2, h3⟩
    refine ⟨by rw [hc, h1], fun i hi => ?_, by rw [hr, h2], by rw [hk, h3]⟩
    rw [h1] at hi
    exact absurd hi (Nat.not_lt_zero i)

/-- The log `p` is that of the buffer found, or that of the copy, and then
the copy passed the checksum and capacity test; and it is empty only if
the log it comes from was. -/
def FromGoodCopy (b : Build) (s : Device) (p : Ram) : Prop :=
  (SameRecord p s.ram
    ∨ RtcAccepts b (rtcImage b s.rtc s.ram)
      ∧ SameRecord p (rtcImage b s.rtc s.ram))
  ∧ (p.count = 0 → s.ram.count = 0
    ∨ RtcAccepts b (rtcImage b s.rtc s.ram)
      ∧ (rtcImage b s.rtc s.ram).count = 0)

theorem SameRecord.congr_left {p p' q : Ram} (h : SameRecord p q)
    (hw : ∀ i, 3 ≤ i → p'.word i = p.word i) : SameRecord p' q where
  count := (hw 12 (by omega)).trans h.count
  pc := fun i hi => (hw (13 + i) (by omega)).trans (h.pc i hi)
  rstInfo := (Ram.rstInfo_congr fun i h1 _ => hw i (by omega)).trans h.rstInfo
  crashCount := (hw 3 (by omega)).trans h.crashCount

/-- **When a good buffer survives the boot**: exactly when the RTC copy is
good as well, or there was nothing to lose. The buffer's own capacity does
not matter, only that it is sealed. -/
theorem boot_keeps_good_iff (b : Build) (hr : RtcActive b) (s : Device)
    (hs : s.pBT = none) (hp : (setPBT b s).1.pBT ≠ none)
    (hvalid : isMemValid s.resetReason = true) (hseal : Sealed b s.ram) :
    FromGoodCopy b s (setPBT b s).1.ram
      ↔ RtcAccepts b (rtcImage b s.rtc s.ram) ∨ EmptyRecord s.ram := by
  have htaken := setPBT_boot (fits_of_pBT hp) hs
  have hinit := initTaken_keep hvalid hseal b.MAX
  have hram : (setPBT b s).1.ram
      = bump b (rtcTaken b s.rtc (bump b s.ram)) := by
    rw [htaken.ram, bootTaken, if_pos hr, hinit]
  rw [hram]
  by_cases ha : RtcAccepts b (rtcImage b s.rtc s.ram)
  · -- the copy passes and is taken
    rw [rtcTaken_accept ha]
    have hw : ∀ i, 3 ≤ i →
        (bump b (rtcImage b s.rtc (bump b s.ram))).word i
          = (rtcImage b s.rtc s.ram).word i := fun i hi => by
      rw [word_bump _ (by omega) (by omega), word_rtcImage_bump]
    refine ⟨fun _ => .inl ha, fun _ => ⟨.inr ⟨ha, .of_words hw⟩, ?_⟩⟩
    intro h0
    exact .inr ⟨ha, (hw 12 (by omega)).symm.trans h0⟩
  · -- the copy fails, and the buffer it was read over is emptied
    rw [rtcTaken_reject ha]
    generalize rtcImage b s.rtc (bump b s.ram) = q
    have hw : ∀ i, 3 ≤ i → (bump b (emptied b q (maxDepth b))).word i
        = (emptied b q (maxDepth b)).word i :=
      fun i hi => word_bump _ (by omega) (by omega)
    constructor
    · rintro ⟨h | ⟨h, -⟩, -⟩
      · exact .inr ((sameRecord_emptied_iff q s.ram (maxDepth b)).mp
          (h.congr_left fun i hi => (hw i hi).symm))
      · exact absurd h ha
    · rintro (h | h)
      · exact absurd h ha
      · exact ⟨.inl (((sameRecord_emptied_iff q s.ram _).mpr h).congr_left hw),
          fun _ => .inl h.1⟩

/-- A device with one finished record, reset by software, whose RTC words
were overwritten with ones. -/
def damagedCopy : Device :=
  { reset (oneRecord minimalRtcBuild) (.warm 4) with
    rtc := fun _ => 0xffffffff }

theorem boot_keeps_good_iff_damagedCopy :
    FromGoodCopy minimalRtcBuild damagedCopy
        (setPBT minimalRtcBuild damagedCopy).1.ram
      ↔ RtcAccepts minimalRtcBuild
          (rtcImage minimalRtcBuild damagedCopy.rtc damagedCopy.ram)
        ∨ EmptyRecord damagedCopy.ram :=
  boot_keeps_good_iff minimalRtcBuild (by decide) damagedCopy rfl (by decide)
    (by decide) (by decide)

/-- The sealed one-entry log in RAM is lost to the damaged copy. -/
theorem damagedCopy_lost :
    RtcActive minimalRtcBuild
      ∧ isMemValid damagedCopy.resetReason = true
      ∧ Sealed minimalRtcBuild damagedCopy.ram
      ∧ damagedCopy.ram.max = .ofNat 32 (maxDepth minimalRtcBuild)
      ∧ ¬ FromGoodCopy minimalRtcBuild damagedCopy
          (setPBT minimalRtcBuild damagedCopy).1.ram := by
  refine ⟨by decide, by decide, by decide, by decide, ?_⟩
  rintro ⟨-, h⟩
  have hempty : (setPBT minimalRtcBuild damagedCopy).1.ram.count = 0 := by
    decide
  have hfull : damagedCopy.ram.count ≠ 0 := by decide
  have hbad : ¬ RtcAccepts minimalRtcBuild
      (rtcImage minimalRtcBuild damagedCopy.rtc damagedCopy.ram) := by decide
  rcases h hempty with h0 | ⟨ha, -⟩
  · exact hfull h0
  · exact hbad ha

end BacktraceLog
