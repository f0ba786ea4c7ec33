import BacktraceLog.Log.Device

/-!
# What a boot does

One specification for each initialisation function, and from them the
cases of a boot: which words the buffer holds afterwards, as a function of
the words before, the RTC content and the reset reason. Whatever the case,
the buffer ends up sealed with its boot counter one above that of the copy
that was taken (`bump`).
-/

namespace BacktraceLog

variable {b : Build}

/-! ## The last two statements of every initialisation -/

/-- `bootCounter++; chksum = do_checksum(p)`. -/
def bump (b : Build) (p : Ram) : Ram :=
  let p : Ram := p.setBootCounter (p.bootCounter + 1)
  p.setChksum (doChecksum b p)

/-- The zeroed buffer with its capacity set. -/
def emptied (b : Build) (p : Ram) (max : Nat) : Ram :=
  Ram.setMax (WordMem.blit p 0 (13 + b.MAX) fun _ => 0) (.ofNat 32 max)

theorem word_bump (p : Ram) {i : Nat} (h0 : i ≠ 0) (h2 : i ≠ 2) :
    (bump b p).word i = p.word i := by
  simp [bump, h0, h2]

@[simp] theorem bootCounter_bump (p : Ram) :
    (bump b p).bootCounter = p.bootCounter + 1 := by
  simp [bump]

theorem sealed_bump (p : Ram) : Sealed b (bump b p) :=
  sealed_setChksum b _

theorem storeEnd_bump_le {p : Ram} (h : p.storeEnd ≤ 13 + b.MAX) :
    (bump b p).storeEnd ≤ 13 + b.MAX := by
  unfold bump
  exact WordMem.storeEnd_store_le _
    (WordMem.storeEnd_store_le _ h (by omega)) (by omega)

theorem max_emptied (p : Ram) (n : Nat) :
    (emptied b p n).max = .ofNat 32 n := by
  simp [emptied]

theorem word_emptied (p : Ram) (n : Nat) {i : Nat} (h1 : i ≠ 1)
    (hi : i < 13 + b.MAX) : (emptied b p n).word i = 0 := by
  rw [emptied, WordMem.word_store_ne _ _ h1,
    WordMem.word_blit_in _ _ (by omega) (by omega)]

theorem rstInfo_emptied (p : Ram) (n : Nat) :
    (emptied b p n).rstInfo = .zero := by
  have hz : ∀ i, 5 ≤ i → i < 12 → (emptied b p n).word i = 0 :=
    fun i h1 h2 => word_emptied p n (by omega) (by omega)
  simp [Ram.rstInfo, hz, RstInfo.zero]

theorem storeEnd_emptied_le {p : Ram} (n : Nat)
    (h : p.storeEnd ≤ 13 + b.MAX) :
    (emptied b p n).storeEnd ≤ 13 + b.MAX := by
  unfold emptied
  exact WordMem.storeEnd_store_le _
    (WordMem.storeEnd_blit_le _ h (by omega)) (by omega)

/-! ## `backtraceLog_init` -/

theorem backtraceLogInit_force (p : Ram) (n : Nat) :
    backtraceLogInit b p n true = bump b (emptied b p n) := by
  simp [backtraceLogInit, bump, emptied]

theorem backtraceLogInit_sealed {p : Ram} (h : Sealed b p) (n : Nat) :
    backtraceLogInit b p n false = bump b p := by
  rw [Sealed] at h
  simp [backtraceLogInit, bump, h]

theorem backtraceLogInit_unsealed {p : Ram} (h : ¬ Sealed b p) (n : Nat)
    (force : Bool) : backtraceLogInit b p n force = bump b (emptied b p n) := by
  rw [Sealed] at h
  simp [backtraceLogInit, bump, emptied, h]

/-- The buffer `backtraceLog_init` counts the boot on: the one it found, or
an emptied one. -/
def initTaken (b : Build) (p : Ram) (n : Nat) (force : Bool) : Ram :=
  if force = false ∧ Sealed b p then p else emptied b p n

theorem backtraceLogInit_eq (p : Ram) (n : Nat) (force : Bool) :
    backtraceLogInit b p n force = bump b (initTaken b p n force) := by
  unfold initTaken
  cases force with
  | true => simp [backtraceLogInit_force]
  | false =>
      by_cases h : Sealed b p
      · simp [h, backtraceLogInit_sealed]
      · simp [h, backtraceLogInit_unsealed h]

/-- After a reset with an accepted reason a sealed buffer is kept. -/
theorem initTaken_keep {s : Device}
    (hvalid : isMemValid s.resetReason = true) (h : Sealed b s.ram)
    (n : Nat) :
    initTaken b s.ram n (!isMemValid s.resetReason) = s.ram := by
  rw [hvalid]
  exact if_pos ⟨rfl, h⟩

/-- After any other reset, and where it is not sealed, it is emptied. -/
theorem initTaken_invalid {s : Device}
    (hvalid : isMemValid s.resetReason = false) (n : Nat) :
    initTaken b s.ram n (!isMemValid s.resetReason)
      = emptied b s.ram n := by
  rw [hvalid]
  exact if_neg fun h => Bool.noConfusion h.1

theorem initTaken_unsealed {p : Ram} (h : ¬ Sealed b p) (n : Nat)
    (force : Bool) : initTaken b p n force = emptied b p n :=
  if_neg fun hk => h hk.2

/-! ## `rtc_check_init` -/

/-- The RTC option is on and leaves room for at least
`DEBUG_ESP_BACKTRACELOG_MIN` entries. -/
def RtcActive (b : Build) : Prop :=
  b.RTC_OFFSET ≠ 0 ∧ b.RTC_OFFSET + 17 ≤ 192

instance (b : Build) : Decidable (RtcActive b) :=
  inferInstanceAs (Decidable (_ ∧ _))

/-- `rtc_status.max_depth` as `rtc_check_init` sets it when active. -/
def maxDepth (b : Build) : Nat := min (179 - b.RTC_OFFSET) b.MAX

theorem maxDepth_le (b : Build) : maxDepth b ≤ b.MAX := Nat.min_le_right ..

theorem four_le_maxDepth (h : RtcActive b) : 4 ≤ maxDepth b := by
  have h1 := h.2
  have h2 := b.min_le
  simp only [maxDepth]
  omega

theorem toNat_ofNat_maxDepth (b : Build) :
    (BitVec.ofNat 32 (maxDepth b)).toNat = maxDepth b := by
  have h1 := maxDepth_le b
  have h2 := b.sizeof_lt
  rw [BitVec.toNat_ofNat, Nat.mod_eq_of_lt (by omega)]

theorem toNat_ofNat_MAX (b : Build) :
    (BitVec.ofNat 32 b.MAX).toNat = b.MAX := by
  have h2 := b.sizeof_lt
  rw [BitVec.toNat_ofNat, Nat.mod_eq_of_lt (by omega)]

/-- The buffer with the RTC copy read over its first words. -/
def rtcImage (b : Build) (rtc : Nat → Word) (p : Ram) : Ram :=
  WordMem.blit p 0 (13 + maxDepth b) fun i => rtc (b.RTC_OFFSET + i)

/-- The test `rtc_check_init` makes on what it has read. -/
def RtcAccepts (b : Build) (p : Ram) : Prop :=
  p.max = .ofNat 32 (maxDepth b) ∧ Sealed b p

instance (b : Build) (p : Ram) : Decidable (RtcAccepts b p) :=
  inferInstanceAs (Decidable (_ ∧ _))

/-- The RTC memory with the buffer's first words written back. -/
def rtcStore (b : Build) (rtc : Nat → Word) (p : Ram) : Nat → Word :=
  fun j => if b.RTC_OFFSET ≤ j ∧ j < b.RTC_OFFSET + (13 + maxDepth b) then
    p.word (j - b.RTC_OFFSET) else rtc j

/-- `rtc_status` after an active `rtc_check_init`. -/
def rtcStatusOf (b : Build) : RtcStatus :=
  if RtcActive b then ⟨4 * (13 + maxDepth b), maxDepth b⟩ else ⟨0, 0⟩

/-- The buffer an active `rtc_check_init` counts the boot on. -/
def rtcTaken (b : Build) (rtc : Nat → Word) (p : Ram) : Ram :=
  if RtcAccepts b (rtcImage b rtc p) then rtcImage b rtc p
  else emptied b (rtcImage b rtc p) (maxDepth b)

theorem word_rtcImage_in (rtc : Nat → Word) (p : Ram) {i : Nat}
    (h : i < 13 + maxDepth b) :
    (rtcImage b rtc p).word i = rtc (b.RTC_OFFSET + i) :=
  WordMem.word_blit_in _ _ (by omega) (by omega)

theorem word_rtcImage_out (rtc : Nat → Word) (p : Ram) {i : Nat}
    (h : 13 + maxDepth b ≤ i) : (rtcImage b rtc p).word i = p.word i :=
  WordMem.word_blit_out _ _ (by omega)

/-- What was saved is what is read back. -/
theorem rtcStore_read (rtc : Nat → Word) (p : Ram) {i : Nat}
    (h : i < 13 + maxDepth b) :
    rtcStore b rtc p (b.RTC_OFFSET + i) = p.word i := by
  rw [rtcStore, if_pos (by omega)]
  congr 1
  omega

theorem word_rtcImage_rtcStore (rtc : Nat → Word) (p q : Ram) {i : Nat}
    (h : i < 13 + maxDepth b) :
    (rtcImage b (rtcStore b rtc p) q).word i = p.word i := by
  rw [word_rtcImage_in _ _ h, rtcStore_read _ _ h]

theorem rtcCheckInit_inactive (h : ¬ RtcActive b) (s : Device) :
    (rtcCheckInit b s).pBT = s.pBT ∧ (rtcCheckInit b s).ram = s.ram
      ∧ (rtcCheckInit b s).rtc = s.rtc
      ∧ (b.RTC_OFFSET ≠ 0 → (rtcCheckInit b s).rtcStatus = ⟨0, 0⟩)
      ∧ (rtcCheckInit b s).resetReason = s.resetReason := by
  unfold rtcCheckInit
  by_cases h0 : b.RTC_OFFSET = 0
  · simp [h0]
  · have hfree : ¬ ((logMin : Int)
        ≤ (192 - b.RTC_OFFSET : Int) - (baseSize32 : Int)) := by
      simp only [RtcActive, not_and] at h
      have := h h0
      simp only [logMin, baseSize32, Ram.offPc]
      omega
    simp [h0, hfree]

theorem rtcCheckInit_active (h : RtcActive b) (s : Device) :
    rtcCheckInit b s = { s with
      ram := bump b (rtcTaken b s.rtc s.ram)
      rtc := rtcStore b s.rtc (bump b (rtcTaken b s.rtc s.ram))
      rtcStatus := rtcStatusOf b } := by
  obtain ⟨h0, h1⟩ := h
  have hbase : baseSize32 = 13 := rfl
  have hfree : (logMin : Int)
      ≤ (192 - b.RTC_OFFSET : Int) - (baseSize32 : Int) := by
    simp only [logMin, hbase]
    omega
  have hdepth : (if (192 - b.RTC_OFFSET : Int) - (baseSize32 : Int) < b.MAX
      then ((192 - b.RTC_OFFSET : Int) - (baseSize32 : Int)).toNat
      else b.MAX) = maxDepth b := by
    rw [hbase, maxDepth]
    by_cases hlt : (192 - b.RTC_OFFSET : Int) - ((13 : Nat) : Int) < b.MAX
    · rw [if_pos hlt]
      omega
    · rw [if_neg hlt]
      omega
  have hsize : 4 * (baseSize32 + maxDepth b) / 4 = 13 + maxDepth b := by
    rw [hbase]
    omega
  have hstatus : rtcStatusOf b
      = ⟨4 * (baseSize32 + maxDepth b), maxDepth b⟩ := by
    rw [rtcStatusOf, if_pos ⟨h0, h1⟩]
    rfl
  have himage : systemRtcMemRead s.rtc b.RTC_OFFSET s.ram
      (4 * (baseSize32 + maxDepth b)) = rtcImage b s.rtc s.ram := by
    rw [systemRtcMemRead, hsize]
    rfl
  have hstore : ∀ p : Ram, systemRtcMemWrite s.rtc b.RTC_OFFSET p
      (4 * (baseSize32 + maxDepth b)) = rtcStore b s.rtc p := by
    intro p
    funext j
    rw [systemRtcMemWrite, rtcStore, hsize]
  have hram : (if (rtcImage b s.rtc s.ram).max = .ofNat 32 (maxDepth b)
        ∧ (rtcImage b s.rtc s.ram).chksum
          = doChecksum b (rtcImage b s.rtc s.ram) then
        bump b (rtcImage b s.rtc s.ram)
      else backtraceLogInit b (rtcImage b s.rtc s.ram) (maxDepth b) true)
      = bump b (rtcTaken b s.rtc s.ram) := by
    rw [backtraceLogInit_force, rtcTaken]
    show (if RtcAccepts b (rtcImage b s.rtc s.ram) then _ else _) = _
    split <;> rfl
  simp only [rtcCheckInit, if_neg h0, if_pos hfree, hdepth, himage, hstatus]
  rw [← hram]
  simp only [hstore]
  rfl

/-! ## `set_pBT` -/

/-- The buffer has room where the build puts it. -/
def Fits (b : Build) : Prop :=
  match b.site with
  | .dram _ => True
  | .iram textEnd instramVaddr mmuIramSize =>
      let iramBufferSz : Word := ((textEnd + 32) &&& ~~~7) - instramVaddr
      (iramReserveSz b).toInt
        ≤ (if iramBufferSz.toInt < mmuIramSize.toInt then
            mmuIramSize - iramBufferSz
          else 0).toInt

theorem fits_minimalBuild : Fits minimalBuild := trivial

theorem fits_minimalRtcBuild : Fits minimalRtcBuild := trivial

/-- The address `set_pBT` gives to `pBT`. -/
def bufferAddr (b : Build) : Word :=
  match b.site with
  | .dram addr => addr
  | .iram textEnd _ _ => (textEnd + 32) &&& ~~~7

/-- The duplicate call: a sealed buffer is left alone. -/
theorem setPBT_sealed (hf : Fits b) {s : Device} (hp : s.pBT ≠ none)
    (h : Sealed b s.ram) : (setPBT b s).1 = s := by
  have hc : s.pBT.isSome = true ∧ s.ram.chksum = doChecksum b s.ram :=
    ⟨Option.isSome_iff_ne_none.mpr hp, h⟩
  unfold setPBT
  unfold Fits at hf
  cases hsite : b.site with
  | dram addr =>
      show (if _ then (s, _) else _).1 = s
      rw [if_pos hc]
  | iram te va sz =>
      simp only [hsite] at hf
      simp only [if_pos hf, if_pos hc]

/-- The first call of a boot, and any call that finds a stale checksum. -/
theorem setPBT_take (hf : Fits b) {s : Device}
    (h : s.pBT = none ∨ ¬ Sealed b s.ram) :
    (setPBT b s).1 = takeBuffer b (bufferAddr b) s := by
  have hc : ¬ (s.pBT.isSome = true ∧ s.ram.chksum = doChecksum b s.ram) := by
    rintro ⟨h1, h2⟩
    rcases h with h | h
    · simp [h] at h1
    · exact h h2
  unfold setPBT bufferAddr
  unfold Fits at hf
  cases hsite : b.site with
  | dram addr => simp only [if_neg hc]
  | iram te va sz =>
      simp only [hsite] at hf
      simp only [if_pos hf, if_neg hc]

/-- Without room there is no log. -/
theorem setPBT_no_room (hf : ¬ Fits b) (s : Device) :
    (setPBT b s).1 = { s with pBT := none } := by
  unfold setPBT
  unfold Fits at hf
  cases hsite : b.site with
  | dram addr => simp only [hsite, not_true_eq_false] at hf
  | iram te va sz =>
      simp only [hsite] at hf
      simp only [if_neg hf]

/-- The buffer a boot counts itself on: the RTC copy or an emptied buffer
where there is a copy, the buffer found or an emptied one where not. -/
def bootTaken (b : Build) (s : Device) : Ram :=
  let p := initTaken b s.ram b.MAX (!isMemValid s.resetReason)
  if RtcActive b then rtcTaken b s.rtc (bump b p) else p

/-- **The boot branch**: everything `takeBuffer` does to the device. -/
structure Taken (b : Build) (s t : Device) : Prop where
  pBT : t.pBT = some (bufferAddr b)
  ram : t.ram = bump b (bootTaken b s)
  rtc : t.rtc = if RtcActive b then rtcStore b s.rtc t.ram else s.rtc
  status : b.RTC_OFFSET ≠ 0 → t.rtcStatus = rtcStatusOf b
  reason : t.resetReason = s.resetReason

theorem takeBuffer_taken (s : Device) :
    Taken b s (takeBuffer b (bufferAddr b) s) := by
  by_cases hr : RtcActive b
  · unfold takeBuffer
    rw [rtcCheckInit_active hr]
    refine ⟨rfl, ?_, ?_, fun _ => rfl, rfl⟩
    · rw [bootTaken, if_pos hr, backtraceLogInit_eq]
    · rw [if_pos hr]
  · unfold takeBuffer
    obtain ⟨h1, h2, h3, h4, h5⟩ := rtcCheckInit_inactive hr { s with
      pBT := some (bufferAddr b)
      ram := backtraceLogInit b s.ram b.MAX (!isMemValid s.resetReason) }
    refine ⟨h1, ?_, ?_, ?_, h5⟩
    · rw [h2, bootTaken, if_neg hr, backtraceLogInit_eq]
    · rw [h3, if_neg hr]
    · intro h0
      rw [h4 h0, rtcStatusOf, if_neg hr]

/-- A boot with room for the buffer. -/
theorem setPBT_boot (hf : Fits b) {s : Device} (h : s.pBT = none) :
    Taken b s (setPBT b s).1 := by
  rw [setPBT_take hf (.inl h)]
  exact takeBuffer_taken s

theorem Taken.sealed {s t : Device} (h : Taken b s t) : Sealed b t.ram := by
  rw [h.ram]
  exact sealed_bump _

/-- What holds of the device from the boot on: there is a buffer, and
`rtc_status` is as `rtc_check_init` left it. -/
structure Booted (b : Build) (s : Device) : Prop where
  fits : Fits b
  pBT : s.pBT ≠ none
  status : b.RTC_OFFSET ≠ 0 → s.rtcStatus = rtcStatusOf b

theorem Taken.booted {s t : Device} (hf : Fits b) (h : Taken b s t) :
    Booted b t where
  fits := hf
  pBT := by rw [h.pBT]; exact Option.some_ne_none _
  status := h.status

/-- A further `set_pBT` leaves the device booted, sealed or not. -/
theorem setPBT_booted {s : Device} (hs : Booted b s) :
    Booted b (setPBT b s).1 := by
  by_cases h : Sealed b s.ram
  · rw [setPBT_sealed hs.fits hs.pBT h]
    exact hs
  · rw [setPBT_take hs.fits (.inr h)]
    exact (takeBuffer_taken s).booted hs.fits

/-- `pBT` is non-NULL after a boot exactly where the buffer fits. -/
theorem fits_of_pBT {s : Device} (h : (setPBT b s).1.pBT ≠ none) :
    Fits b := by
  refine Classical.byContradiction fun hf => h ?_
  rw [setPBT_no_room hf]

/-- `rtcSave` after a boot. -/
theorem rtcSave_eq {s : Device}
    (h : b.RTC_OFFSET ≠ 0 → s.rtcStatus = rtcStatusOf b) :
    rtcSave b s = if RtcActive b then
      { s with rtc := rtcStore b s.rtc s.ram } else s := by
  unfold rtcSave
  by_cases hr : RtcActive b
  · have hst : s.rtcStatus = ⟨4 * (13 + maxDepth b), maxDepth b⟩ := by
      rw [h hr.1, rtcStatusOf, if_pos hr]
    have hsize : 4 * (13 + maxDepth b) / 4 = 13 + maxDepth b := by omega
    have hpos : s.rtcStatus.size ≠ 0 := by
      rw [hst]
      show 4 * (13 + maxDepth b) ≠ 0
      omega
    rw [if_pos hr, if_pos ⟨hr.1, hpos⟩, hst]
    congr 1
    funext j
    rw [systemRtcMemWrite, rtcStore, hsize]
  · rw [if_neg hr, if_neg]
    rintro ⟨h0, hsz⟩
    rw [h h0, rtcStatusOf, if_neg hr] at hsz
    exact hsz rfl

end BacktraceLog
