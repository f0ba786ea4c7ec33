import BacktraceLog.Log.Bounds

/-!
# Where the entries come from

What the log holds was put there: no address in it is made up by a reset,
by RAM that deep sleep has lost, by a copy that fails its test or by an
`append` past the end. An entry is a zero, the argument of a `write` of the
run, or an entry of the RTC copy found at power on, and of that only where
the copy is good.
-/

namespace BacktraceLog

variable {b : Build} {P : Word → Prop}

/-- Every entry of the buffer and of its RTC copy is in `P`. -/
structure Drawn (b : Build) (P : Word → Prop) (s : Device) : Prop where
  booted : Booted b s
  pc : ∀ i, i < b.MAX → P (s.ram.pc i)
  copy : RtcActive b → ∀ i, i < maxDepth b →
    P (s.rtc (b.RTC_OFFSET + (13 + i)))

/-! ## A boot -/

/-- The boot takes an entry from the buffer only where it keeps that, from
the copy only where it accepts that, and clears the others. -/
theorem pc_bootTaken (h0 : P 0) {s : Device}
    (hram : isMemValid s.resetReason = true →
      ∀ i, i < b.MAX → P (s.ram.pc i))
    (hrtc : RtcActive b → RtcAccepts b (rtcImage b s.rtc
      (initTaken b s.ram b.MAX (!isMemValid s.resetReason))) →
      ∀ i, i < maxDepth b → P (s.rtc (b.RTC_OFFSET + (13 + i))))
    {i : Nat} (hi : i < b.MAX) : P ((bootTaken b s).pc i) := by
  have hinit : P ((initTaken b s.ram b.MAX
      (!isMemValid s.resetReason)).pc i) := by
    unfold initTaken
    split
    · rename_i hkeep
      exact hram (by simpa using hkeep.1) i hi
    · rw [Ram.pc, word_emptied _ _ (by omega) (by omega)]
      exact h0
  simp only [bootTaken]
  split
  · rename_i hr
    by_cases ha : RtcAccepts b (rtcImage b s.rtc
        (initTaken b s.ram b.MAX (!isMemValid s.resetReason)))
    · rw [rtcTaken_accept ha, Ram.pc, word_rtcImage_bump]
      -- past the copied words the buffer shows through
      by_cases hd : i < maxDepth b
      · rw [word_rtcImage_in _ _ (by omega)]
        exact hrtc hr ha i hd
      · rw [word_rtcImage_out _ _ (by omega)]
        exact hinit
    · rw [rtcTaken_reject ha, Ram.pc,
        word_emptied _ _ (by omega) (by omega)]
      exact h0
  · exact hinit

theorem copy_of_pc {p : Ram} (h : ∀ i, i < b.MAX → P (p.pc i))
    (rtc : Nat → Word) {i : Nat} (hi : i < maxDepth b) :
    P (rtcStore b rtc p (b.RTC_OFFSET + (13 + i))) := by
  rw [rtcStore_read _ _ (by omega)]
  exact h i (Nat.lt_of_lt_of_le hi (maxDepth_le b))

theorem Taken.drawn (h0 : P 0) (hf : Fits b) {s t : Device}
    (h : Taken b s t)
    (hram : isMemValid s.resetReason = true →
      ∀ i, i < b.MAX → P (s.ram.pc i))
    (hrtc : RtcActive b → RtcAccepts b (rtcImage b s.rtc
      (initTaken b s.ram b.MAX (!isMemValid s.resetReason))) →
      ∀ i, i < maxDepth b → P (s.rtc (b.RTC_OFFSET + (13 + i)))) :
    Drawn b P t := by
  have hpc : ∀ i, i < b.MAX → P (t.ram.pc i) := by
    intro i hi
    rw [h.ram, Ram.pc, word_bump _ (by omega) (by omega)]
    exact pc_bootTaken h0 hram hrtc hi
  refine ⟨h.booted hf, hpc, fun hr i hi => ?_⟩
  rw [h.rtc, if_pos hr]
  exact copy_of_pc hpc s.rtc hi

/-! ## One step -/

theorem Drawn.setPBT (h0 : P 0) {s : Device} (h : Drawn b P s) :
    Drawn b P (setPBT b s).1 := by
  by_cases hseal : Sealed b s.ram
  · rw [setPBT_sealed h.booted.fits h.booted.pBT hseal]
    exact h
  · rw [setPBT_take h.booted.fits (.inr hseal)]
    exact (takeBuffer_taken s).drawn h0 h.booted.fits (fun _ => h.pc)
      (fun hr _ => h.copy hr)

/-- A change of the buffer only. -/
theorem Drawn.withRam {s : Device} (h : Drawn b P s) {p : Ram}
    (hpc : ∀ i, i < b.MAX → P (p.pc i)) :
    Drawn b P { s with ram := p } :=
  ⟨⟨h.booted.fits, h.booted.pBT, h.booted.status⟩, hpc, h.copy⟩

/-- A change of the buffer that is copied to RTC. -/
theorem Drawn.withCopy {s : Device} (h : Drawn b P s) {p : Ram}
    (hpc : ∀ i, i < b.MAX → P (p.pc i)) :
    Drawn b P { s with
      ram := p
      rtc := if RtcActive b then rtcStore b s.rtc p else s.rtc } := by
  refine ⟨⟨h.booted.fits, h.booted.pBT, h.booted.status⟩, hpc,
    fun hr i hi => ?_⟩
  simp only [if_pos hr]
  exact copy_of_pc hpc s.rtc hi

/-- The entry goes to `pc[count]`, inside the array or past it. -/
theorem pc_putItem {p : Ram} (h : ∀ i, i < b.MAX → P (p.pc i)) {v : Word}
    (hv : P v) (i : Nat) (hi : i < b.MAX) : P ((putItem p v).pc i) := by
  rw [putItem, Ram.pc, WordMem.word_store_ne _ _ (by omega),
    WordMem.word_store]
  split
  · exact hv
  · exact h i hi

theorem Drawn.putItem {s : Device} (h : Drawn b P s) {v : Word}
    (hv : P v) : Drawn b P { s with ram := putItem s.ram v } :=
  h.withRam (pc_putItem h.pc hv)

theorem Drawn.begin (h0 : P 0) {s : Device} (h : Drawn b P s)
    (r : Option RstInfo) : Drawn b P (backtraceLogBegin b s r) := by
  have hset := h.setPBT h0
  rw [backtraceLogBegin_eq, if_neg hset.booted.pBT]
  refine hset.withRam fun i hi => ?_
  rw [Ram.pc, word_openRecord _ r (by omega)]
  exact hset.pc i hi

theorem Drawn.append (h0 : P 0) {s : Device} (h : Drawn b P s) :
    Drawn b P (backtraceLogAppend b s) := by
  have hset := h.setPBT h0
  unfold backtraceLogAppend
  rw [if_neg hset.booted.pBT]
  exact hset.putItem h0

theorem Drawn.write {s : Device} (h : Drawn b P s) {v : Word}
    (hv : P v) : Drawn b P (backtraceLogWrite s v) := by
  rw [backtraceLogWrite_eq h.booted.pBT, writeItem]
  split
  · exact h.putItem hv
  · exact h

theorem Drawn.fin {s : Device} (h : Drawn b P s) :
    Drawn b P (backtraceLogFin b s) := by
  rw [backtraceLogFin_eq h.booted]
  refine h.withCopy fun i hi => ?_
  rw [Ram.pc, word_closeRecord _ (by omega) (by omega)]
  exact h.pc i hi

theorem Drawn.clear (h0 : P 0) {s : Device} (h : Drawn b P s) :
    Drawn b P (backtraceLogClear b s) := by
  rw [backtraceLogClear_eq h.booted]
  refine h.withCopy fun i hi => ?_
  -- a word is erased or it is not, wherever the erased words end
  rcases WordMem.word_blitRound_or s.ram (2 ^ 30) 3 (clearSize32 s.ram)
    (13 + i) (fun _ => 0) with hzero | hsame
  · rw [clearRecord, Ram.pc, hzero]
    exact h0
  · rw [clearRecord, Ram.pc, hsame]
    exact h.pc i hi

/-- Only a warm reset hands the RAM on; deep sleep leaves the copy. -/
theorem Drawn.reboot (h0 : P 0) {s : Device} (h : Drawn b P s)
    (r : Reset) : Drawn b P (reboot b s r) := by
  have hf := h.booted.fits
  cases r with
  | warm reason =>
      exact (setPBT_boot hf rfl).drawn h0 hf (fun _ => h.pc)
        (fun hr _ => h.copy hr)
  | deepSleep words status =>
      refine (setPBT_boot hf rfl).drawn h0 hf ?_ (fun hr _ => h.copy hr)
      intro hv
      simp [reset, isMemValid] at hv

/-- **The step lemma**: what is written is all that is added. -/
theorem Drawn.step (h0 : P 0) {s : Device} (h : Drawn b P s) {e : Event}
    (hw : ∀ v, e = .op (.write v) → P v) :
    Drawn b P (eventStep b s e) := by
  cases e with
  | reboot r => exact h.reboot h0 r
  | op o =>
      cases o with
      | begin r => exact h.begin h0 r
      | append => exact h.append h0
      | write v => exact h.write (hw v rfl)
      | fin => exact h.fin
      | clear => exact h.clear h0

/-! ## The run -/

/-- At power on the RAM holds anything and none of it is taken; of the copy
the entries are, if it passes its test. -/
theorem drawn_firstBoot (h0 : P 0) (hf : Fits b) (words rtc : Nat → Word)
    (status : RtcStatus)
    (hcopy : RtcActive b → CopyGood b rtc → ∀ i, i < maxDepth b →
      P (rtc (b.RTC_OFFSET + (13 + i)))) :
    Drawn b P (firstBoot b words rtc status) := by
  have hv : isMemValid (powerOn words rtc status).resetReason = false := rfl
  refine (firstBoot_taken hf words rtc status).drawn h0 hf ?_ ?_
  · intro h
    rw [hv] at h
    cases h
  · intro hr ha
    rw [initTaken_invalid hv] at ha
    exact hcopy hr ((rtcAccepts_iff_copyGood
      (fun i _ h => word_emptied _ _ (by omega) h) _).mp ha)

theorem noLog_firstBoot (hf : ¬ Fits b) (words rtc : Nat → Word)
    (status : RtcStatus) : NoLog b (firstBoot b words rtc status) := by
  rw [firstBoot, setPBT_no_room hf]
  exact ⟨hf, rfl, Nat.zero_le _⟩

/-- What a sketch reads of the array is in `P`. -/
theorem Drawn.read {s : Device} (h : Drawn b P s) (sz : Nat) {v : Word}
    (hv : v ∈ (read s sz).take b.MAX) : P v := by
  unfold BacktraceLog.read at hv
  rw [if_neg h.booted.pBT] at hv
  simp only [← List.map_take, List.take_range, List.mem_map,
    List.mem_range] at hv
  obtain ⟨i, hi, rfl⟩ := hv
  exact h.pc i (by omega)

/-- Where an entry can come from: a zero, the argument of a `write` of the
run, or an entry of a good RTC copy found at power on. -/
def Source (b : Build) (rtc : Nat → Word) (es : List Event) (v : Word) :
    Prop :=
  v = 0 ∨ Event.op (.write v) ∈ es
    ∨ RtcActive b ∧ CopyGood b rtc
      ∧ ∃ i, i < maxDepth b ∧ v = rtc (b.RTC_OFFSET + (13 + i))

/-- **No address is made up**: over any run of the operations and of resets
of every kind, whatever is read of the array has a source. -/
theorem entries_have_source (b : Build) (words rtc : Nat → Word)
    (status : RtcStatus) (es : List Event) (sz : Nat) :
    ∀ v ∈ (read (Run.run (eventStep b) (firstBoot b words rtc status) es)
        sz).take b.MAX, Source b rtc es v := by
  intro v hv
  by_cases hf : Fits b
  · have hstep : ∀ s, ∀ e ∈ es, Drawn b (Source b rtc es) s →
        Drawn b (Source b rtc es) (eventStep b s e) :=
      fun s e he h => h.step (.inl rfl) fun w hw => .inr (.inl (hw ▸ he))
    have hdrawn := Run.run_invariant_of_mem hstep
      (drawn_firstBoot (.inl rfl) hf words rtc status
        fun hr hg i hi => .inr (.inr ⟨hr, hg, i, hi, rfl⟩))
    exact hdrawn.read sz hv
  · -- without room for the buffer nothing is read
    have hnone := Run.run_invariant (fun s e (h : NoLog b s) => h.step e)
      (noLog_firstBoot hf words rtc status) es
    unfold read at hv
    rw [if_pos hnone.pBT] at hv
    simp at hv

/-- The address read after deep sleep was written before it, and is none of
what the RAM holds by then. -/
theorem entries_have_source_deepSleep :
    Source minimalRtcBuild (fun _ => 0)
      [.op (.begin none), .op (.write 0x40201234), .op .fin,
        .reboot (.deepSleep (fun _ => 0x40205678) ⟨0, 0⟩)]
      0x40201234 :=
  entries_have_source minimalRtcBuild (fun _ => 0x40205678) (fun _ => 0)
    ⟨0, 0⟩ _ 1 _ (by decide)

end BacktraceLog
