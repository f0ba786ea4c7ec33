import BacktraceLog.Log.Session
import BacktraceLog.Log.Trust

/-!
# Bounds over whole runs

Runs of any length made of the public operations and of resets. The count
stays below the capacity, the capacity inside the array, and no store
passes the end of the buffer, as long as every `append` finds room: it is
the one operation that stores without looking. That condition is exact.
-/

namespace BacktraceLog

variable {b : Build}

/-- An operation, or a reset and the boot after it. -/
inductive Event where
  | op (o : Op)
  | reboot (r : Reset)

def eventStep (b : Build) (s : Device) : Event → Device
  | .op o => step b s o
  | .reboot r => reboot b s r

/-- `count <= max <= MAX` where there is a log, and no store so far at or
past `pc[MAX]`, the word after the buffer. -/
def InBounds (b : Build) (s : Device) : Prop :=
  (s.pBT ≠ none →
    s.ram.count.toNat ≤ s.ram.max.toNat ∧ s.ram.max.toNat ≤ b.MAX)
  ∧ s.ram.storeEnd ≤ 13 + b.MAX

/-- The log `append` works on has room: the one found, or where that is
unsealed the good RTC copy that replaces it (an emptied buffer has). -/
def AppendRoom (b : Build) (s : Device) : Prop :=
  s.pBT ≠ none →
    if Sealed b s.ram then s.ram.count < s.ram.max
    else RtcActive b → CopyGood b s.rtc →
      s.rtc (b.RTC_OFFSET + 12) < s.rtc (b.RTC_OFFSET + 1)

/-- Every `append` of a run has room. -/
def HasRoom (b : Build) (s : Device) : Event → Prop
  | .op .append => AppendRoom b s
  | _ => True

/-! ## The invariant -/

/-- The inductive form of `InBounds`, with what the RTC copy holds. -/
structure InRange (b : Build) (s : Device) : Prop where
  booted : Booted b s
  usable : Usable b s.ram
  storeEnd : s.ram.storeEnd ≤ 13 + b.MAX
  depth : RtcActive b → s.ram.max = .ofNat 32 (maxDepth b)
  copy : RtcActive b → (s.rtc (b.RTC_OFFSET + 12)).toNat ≤ maxDepth b

theorem storeEnd_rtcImage_le (rtc : Nat → Word) {p : Ram}
    (h : p.storeEnd ≤ 13 + b.MAX) :
    (rtcImage b rtc p).storeEnd ≤ 13 + b.MAX := by
  have := maxDepth_le b
  exact WordMem.storeEnd_blit_le _ h (by omega)

theorem storeEnd_initTaken_le {p : Ram} (n : Nat) (force : Bool)
    (h : p.storeEnd ≤ 13 + b.MAX) :
    (initTaken b p n force).storeEnd ≤ 13 + b.MAX := by
  unfold initTaken
  split
  · exact h
  · exact storeEnd_emptied_le n h

theorem storeEnd_bootTaken_le {s : Device}
    (h : s.ram.storeEnd ≤ 13 + b.MAX) :
    (bootTaken b s).storeEnd ≤ 13 + b.MAX := by
  have hinit := storeEnd_initTaken_le b.MAX (!isMemValid s.resetReason) h
  simp only [bootTaken]
  split
  · have himage := storeEnd_rtcImage_le s.rtc (storeEnd_bump_le hinit)
    unfold rtcTaken
    split
    · exact himage
    · exact storeEnd_emptied_le _ himage
  · exact hinit

theorem max_bootTaken (hr : RtcActive b) (s : Device) :
    (bootTaken b s).max = .ofNat 32 (maxDepth b) := by
  simp only [bootTaken, if_pos hr, rtcTaken]
  split
  · rename_i h
    exact h.1
  · exact max_emptied _ _

/-- The copy written back holds no more than its capacity. -/
theorem copy_rtcStore {p : Ram} (hp : Usable b p)
    (hd : p.max = .ofNat 32 (maxDepth b)) (rtc : Nat → Word) :
    (rtcStore b rtc p (b.RTC_OFFSET + 12)).toNat ≤ maxDepth b := by
  rw [rtcStore_read _ _ (by omega)]
  have h := hp.2.2
  rwa [hd, toNat_ofNat_maxDepth] at h

/-- A boot, first or duplicate, that trusts only usable data. -/
theorem Taken.inRange {s t : Device} (hf : Fits b) (h : Taken b s t)
    (htrust : BootTrustsUsable b s) (hend : s.ram.storeEnd ≤ 13 + b.MAX) :
    InRange b t := by
  have husable : Usable b t.ram := by
    rw [h.ram, usable_bump_iff, usable_bootTaken_iff]
    exact htrust
  have hdepth : RtcActive b → t.ram.max = .ofNat 32 (maxDepth b) := by
    intro hr
    rw [h.ram, Ram.max, word_bump _ (by omega) (by omega)]
    exact max_bootTaken hr s
  refine ⟨h.booted hf, husable, ?_, hdepth, fun hr => ?_⟩
  · rw [h.ram]
    exact storeEnd_bump_le (storeEnd_bootTaken_le hend)
  · rw [h.rtc, if_pos hr]
    exact copy_rtcStore husable (hdepth hr) s.rtc

/-- From a state in range, every boot branch trusts only usable data. -/
theorem InRange.trusts {s t : Device} (h : InRange b s)
    (hram : isMemValid t.resetReason = true → t.ram = s.ram)
    (hrtc : t.rtc = s.rtc) : BootTrustsUsable b t := by
  unfold BootTrustsUsable
  split
  · rename_i hr
    intro _
    rw [hrtc]
    exact h.copy hr
  · intro hv _
    rw [hram hv]
    exact h.usable

/-- The `set_pBT` of `begin` and `append` keeps the range. -/
theorem InRange.setPBT {s : Device} (h : InRange b s) :
    InRange b (setPBT b s).1 := by
  by_cases hseal : Sealed b s.ram
  · rw [setPBT_sealed h.booted.fits h.booted.pBT hseal]
    exact h
  · rw [setPBT_take h.booted.fits (.inr hseal)]
    exact (takeBuffer_taken s).inRange h.booted.fits
      (h.trusts (fun _ => rfl) rfl) h.storeEnd

/-- A change of the buffer only. -/
theorem InRange.withRam {s : Device} (h : InRange b s) {p : Ram}
    (hmax : p.max = s.ram.max) (hcount : p.count.toNat ≤ p.max.toNat)
    (hend : p.storeEnd ≤ 13 + b.MAX) : InRange b { s with ram := p } where
  booted := ⟨h.booted.fits, h.booted.pBT, h.booted.status⟩
  usable := by
    refine ⟨?_, ?_, hcount⟩
    · rw [hmax]
      exact h.usable.1
    · rw [hmax]
      exact h.usable.2.1
  storeEnd := hend
  depth := fun hr => hmax.trans (h.depth hr)
  copy := h.copy

/-- A change of the buffer that is copied to RTC. -/
theorem InRange.withCopy {s : Device} (h : InRange b s) {p : Ram}
    (hmax : p.max = s.ram.max) (hcount : p.count.toNat ≤ p.max.toNat)
    (hend : p.storeEnd ≤ 13 + b.MAX) :
    InRange b { s with
      ram := p
      rtc := if RtcActive b then rtcStore b s.rtc p else s.rtc } := by
  have h' := h.withRam hmax hcount hend
  refine ⟨⟨h'.booted.fits, h'.booted.pBT, h'.booted.status⟩, h'.usable,
    h'.storeEnd, h'.depth, fun hr => ?_⟩
  simp only [if_pos hr]
  exact copy_rtcStore h'.usable (h'.depth hr) s.rtc

/-! ## One step -/

theorem toNat_count_putItem {p : Ram} (v : Word)
    (h : p.count.toNat + 1 < 2 ^ 32) :
    (putItem p v).count.toNat = p.count.toNat + 1 := by
  rw [count_putItem, BitVec.toNat_add]
  exact Nat.mod_eq_of_lt h

theorem InRange.putItem {s : Device} (h : InRange b s)
    (hroom : s.ram.count < s.ram.max) (v : Word) :
    InRange b { s with ram := putItem s.ram v } := by
  have hlt : s.ram.count.toNat < s.ram.max.toNat := hroom
  have hmax := s.ram.max.isLt
  have hle := h.usable.2.1
  have hmax' : (BacktraceLog.putItem s.ram v).max = s.ram.max :=
    word_putItem s.ram v (by omega) (by omega)
  refine h.withRam hmax' ?_ (storeEnd_putItem_le v h.storeEnd (by omega))
  rw [toNat_count_putItem v (by omega), hmax']
  omega

theorem InRange.begin {s : Device} (h : InRange b s)
    (r : Option RstInfo) : InRange b (backtraceLogBegin b s r) := by
  have hu := h.setPBT
  rw [backtraceLogBegin_eq, if_neg hu.booted.pBT]
  refine hu.withRam (word_openRecord _ r (by omega)) ?_
    (storeEnd_openRecord_le r hu.storeEnd)
  rw [count_openRecord]
  exact Nat.zero_le _

theorem InRange.write {s : Device} (h : InRange b s) (v : Word) :
    InRange b (backtraceLogWrite s v) := by
  rw [backtraceLogWrite_eq h.booted.pBT, writeItem]
  by_cases hroom : s.ram.count < s.ram.max
  · rw [if_pos hroom]
    exact h.putItem hroom v
  · rw [if_neg hroom]
    exact h

theorem InRange.fin {s : Device} (h : InRange b s) :
    InRange b (backtraceLogFin b s) := by
  have hmax : (closeRecord b s.ram).max = s.ram.max :=
    word_closeRecord s.ram (by omega) (by omega)
  have hcount : (closeRecord b s.ram).count = s.ram.count :=
    word_closeRecord s.ram (by omega) (by omega)
  rw [backtraceLogFin_eq h.booted]
  refine h.withCopy hmax ?_ (storeEnd_closeRecord_le h.storeEnd)
  rw [hcount, hmax]
  exact h.usable.2.2

theorem InRange.clear {s : Device} (h : InRange b s) :
    InRange b (backtraceLogClear b s) := by
  have hmax := h.usable.2.1
  rw [backtraceLogClear_eq h.booted]
  refine h.withCopy (word_clearRecord (clearEnds_of_le hmax) (by omega)) ?_
    (storeEnd_clearRecord_le hmax (Nat.le_refl _) h.storeEnd)
  rw [count_clearRecord hmax]
  exact Nat.zero_le _

theorem InRange.reboot {s : Device} (h : InRange b s) (r : Reset) :
    InRange b (reboot b s r) := by
  have hf := h.booted.fits
  cases r with
  | warm reason =>
      exact (setPBT_boot hf rfl).inRange hf (h.trusts (fun _ => rfl) rfl)
        h.storeEnd
  | deepSleep words status =>
      refine (setPBT_boot hf rfl).inRange hf (h.trusts ?_ rfl) h.storeEnd
      intro hv
      simp [reset, isMemValid] at hv

/-- The room `append` is promised is the room it finds. -/
theorem appendRoom_iff {s : Device} (h : InRange b s) :
    AppendRoom b s
      ↔ (setPBT b s).1.ram.count < (setPBT b s).1.ram.max := by
  rw [AppendRoom]
  simp only [ne_eq, h.booted.pBT, not_false_eq_true, forall_const]
  -- unsealed, the room is that of the buffer a second boot takes
  by_cases hseal : Sealed b s.ram
  · rw [if_pos hseal, setPBT_sealed h.booted.fits h.booted.pBT hseal]
  · have htaken := takeBuffer_taken (b := b) s
    have hempty : ∀ (q : Ram) (n : Nat), 0 < n → n ≤ b.MAX →
        (emptied b q n).count < (emptied b q n).max := by
      intro q n h0 hn
      have hsz := b.sizeof_lt
      show (emptied b q n).count.toNat < (emptied b q n).max.toNat
      rw [Ram.count, word_emptied q n (by omega) (by omega), max_emptied,
        BitVec.toNat_ofNat, Nat.mod_eq_of_lt (by omega)]
      exact h0
    rw [if_neg hseal, setPBT_take h.booted.fits (.inr hseal), htaken.ram,
      Ram.count, Ram.max, word_bump _ (by omega) (by omega),
      word_bump _ (by omega) (by omega), bootTaken,
      initTaken_unsealed hseal]
    by_cases hr : RtcActive b
    · have h4 := four_le_maxDepth hr
      have hgood := rtcAccepts_iff_copyGood (b := b)
        (p := emptied b s.ram b.MAX)
        (fun i h1 h2 => word_emptied _ _ (by omega) h2) s.rtc
      simp only [hr, if_true, forall_const]
      by_cases hg : CopyGood b s.rtc
      · rw [rtcTaken_accept (hgood.mpr hg), word_rtcImage_in _ _ (by omega),
          word_rtcImage_in _ _ (by omega)]
        exact ⟨fun h => h hg, fun h _ => h⟩
      · rw [rtcTaken_reject fun ha => hg (hgood.mp ha)]
        exact ⟨fun _ => hempty _ _ (by omega) (maxDepth_le b),
          fun _ h => absurd h hg⟩
    · have h4 := b.min_le
      simp only [if_neg hr]
      exact ⟨fun _ => hempty _ _ (by omega) (Nat.le_refl _),
        fun _ h => absurd h hr⟩

/-- `append` on a log without room pushes the count past the capacity. -/
theorem append_no_room {s : Device} (h : InRange b s)
    (hroom : ¬ AppendRoom b s) :
    (backtraceLogAppend b s).pBT ≠ none
      ∧ (backtraceLogAppend b s).ram.max.toNat
        < (backtraceLogAppend b s).ram.count.toNat := by
  have hu := h.setPBT
  rw [appendRoom_iff h] at hroom
  have hge : ¬ (setPBT b s).1.ram.count.toNat
      < (setPBT b s).1.ram.max.toNat := hroom
  have h1 := hu.usable.2.1
  have h2 := hu.usable.2.2
  have hsz := b.sizeof_lt
  unfold backtraceLogAppend
  rw [if_neg hu.booted.pBT]
  refine ⟨hu.booted.pBT, ?_⟩
  show (putItem (setPBT b s).1.ram 0).max.toNat
    < (putItem (setPBT b s).1.ram 0).count.toNat
  have hmax : (putItem (setPBT b s).1.ram 0).max = (setPBT b s).1.ram.max :=
    word_putItem _ 0 (by omega) (by omega)
  rw [toNat_count_putItem 0 (by omega), hmax]
  omega

theorem InRange.append {s : Device} (h : InRange b s)
    (hroom : AppendRoom b s) : InRange b (backtraceLogAppend b s) := by
  have hu := h.setPBT
  unfold backtraceLogAppend
  rw [if_neg hu.booted.pBT]
  exact hu.putItem ((appendRoom_iff h).mp hroom) 0

/-- **The step lemma** of the invariant. -/
theorem InRange.step {s : Device} (h : InRange b s) {e : Event}
    (hroom : HasRoom b s e) : InRange b (eventStep b s e) := by
  cases e with
  | reboot r => exact h.reboot r
  | op o =>
      cases o with
      | begin r => exact h.begin r
      | append => exact h.append hroom
      | write v => exact h.write v
      | fin => exact h.fin
      | clear => exact h.clear

/-! ## The run -/

/-- Without room for the buffer there is no log, and nothing is stored. -/
structure NoLog (b : Build) (s : Device) : Prop where
  fits : ¬ Fits b
  pBT : s.pBT = none
  storeEnd : s.ram.storeEnd ≤ 13 + b.MAX

theorem NoLog.step {s : Device} (h : NoLog b s) (e : Event) :
    NoLog b (eventStep b s e) := by
  have hset : (setPBT b s).1.pBT = none ∧ (setPBT b s).1.ram = s.ram := by
    rw [setPBT_no_room h.fits]
    exact ⟨rfl, rfl⟩
  cases e with
  | reboot r =>
      show NoLog b (setPBT b (reset s r)).1
      rw [setPBT_no_room h.fits]
      refine ⟨h.fits, rfl, ?_⟩
      cases r <;> exact h.storeEnd
  | op o =>
      cases o with
      | begin r =>
          show NoLog b (backtraceLogBegin b s r)
          rw [backtraceLogBegin_eq, if_pos hset.1]
          exact ⟨h.fits, hset.1, by rw [hset.2]; exact h.storeEnd⟩
      | append =>
          show NoLog b (backtraceLogAppend b s)
          unfold backtraceLogAppend
          rw [if_pos hset.1]
          exact ⟨h.fits, hset.1, by rw [hset.2]; exact h.storeEnd⟩
      | write v =>
          show NoLog b (backtraceLogWrite s v)
          unfold backtraceLogWrite
          rw [if_pos h.pBT]
          exact h
      | fin =>
          show NoLog b (backtraceLogFin b s)
          unfold backtraceLogFin
          rw [if_pos h.pBT]
          exact h
      | clear =>
          show NoLog b (backtraceLogClear b s)
          unfold backtraceLogClear
          rw [if_pos h.pBT]
          exact h

theorem InRange.inBounds {s : Device} (h : InRange b s) : InBounds b s :=
  ⟨fun _ => ⟨h.usable.2.2, h.usable.2.1⟩, h.storeEnd⟩

theorem NoLog.inBounds {s : Device} (h : NoLog b s) : InBounds b s :=
  ⟨fun hp => absurd h.pBT hp, h.storeEnd⟩

/-- The first boot is in range: RAM is zeroed, and a copy is only taken if
it is a log that fits. -/
theorem firstBoot_inRange (hf : Fits b) (words : Nat → Word)
    {rtc : Nat → Word} (status : RtcStatus) (hcopy : CopyFits b rtc) :
    InRange b (firstBoot b words rtc status) := by
  refine (firstBoot_taken hf words rtc status).inRange hf ?_
    (Nat.zero_le _)
  have hv : isMemValid (powerOn words rtc status).resetReason = false := rfl
  unfold BootTrustsUsable
  split
  · rename_i hr
    intro ha
    rw [initTaken_invalid hv] at ha
    exact hcopy hr ((rtcAccepts_iff_copyGood
      (fun i _ h => word_emptied _ _ (by omega) h) _).mp ha)
  · intro h
    rw [hv] at h
    cases h

/-- **Bounds over whole runs**: from a power-on boot with an RTC copy that
fails its own test, the states of a run stay in bounds, and its stores in
the buffer, exactly when every `append` has room. -/
theorem log_in_bounds_iff (b : Build) (words rtc : Nat → Word)
    (status : RtcStatus) (hrtc : RtcActive b → ¬ CopyGood b rtc)
    (es : List Event) :
    Run.Along (eventStep b) (InBounds b) (firstBoot b words rtc status) es
      ↔ Run.Meets (eventStep b) (HasRoom b)
        (firstBoot b words rtc status) es := by
  refine Run.along_iff_meets (I := fun s => InRange b s ∨ NoLog b s)
    ?_ ?_ ?_ ?_
  · rintro s (h | h)
    · exact h.inBounds
    · exact h.inBounds
  · rintro s e (h | h) hroom
    · exact .inl (h.step hroom)
    · exact .inr (h.step e)
  · rintro s e (h | h) hno hbounds
    · cases e with
      | reboot r => exact hno trivial
      | op o =>
          cases o with
          | append =>
              -- the count passes `max` at once, not only the array's end
              obtain ⟨hp, hlt⟩ := append_no_room h hno
              have hle := (hbounds.1 hp).1
              exact absurd hlt (Nat.not_lt.mpr hle)
          | begin r => exact hno trivial
          | write v => exact hno trivial
          | fin => exact hno trivial
          | clear => exact hno trivial
    · -- without a log there is nothing to store to
      refine hno ?_
      cases e with
      | reboot r => trivial
      | op o =>
          cases o with
          | append => exact fun hp => absurd h.pBT hp
          | begin r => trivial
          | write v => trivial
          | fin => trivial
          | clear => trivial
  · by_cases hf : Fits b
    · have hcopy : CopyFits b rtc := fun hr hg => absurd hg (hrtc hr)
      exact .inl (firstBoot_inRange hf words status hcopy)
    · refine .inr ⟨hf, ?_, ?_⟩
      · rw [firstBoot, setPBT_no_room hf]
      · rw [firstBoot, setPBT_no_room hf]
        exact Nat.zero_le _

/-- The copy of zeroed RTC memory fails its test. -/
theorem log_in_bounds_iff_closed :
    Run.Along (eventStep minimalRtcBuild) (InBounds minimalRtcBuild)
        (firstBoot minimalRtcBuild (fun _ => 0) (fun _ => 0) ⟨0, 0⟩)
        [.op (.begin none), .op (.write 0x40201234), .op .fin, .op .append,
          .op .fin, .reboot (.warm 4)]
      ↔ Run.Meets (eventStep minimalRtcBuild) (HasRoom minimalRtcBuild)
        (firstBoot minimalRtcBuild (fun _ => 0) (fun _ => 0) ⟨0, 0⟩)
        [.op (.begin none), .op (.write 0x40201234), .op .fin, .op .append,
          .op .fin, .reboot (.warm 4)] := by
  refine log_in_bounds_iff minimalRtcBuild _ _ _ (fun _ => ?_) _
  show ¬ RtcAccepts _ _
  decide

/-- Four addresses, a `fin` and an `append` on a log of four: the count
reaches 5, and the store goes to the word after the buffer. -/
theorem append_past_end :
    (Run.run (eventStep minimalBuild)
        (firstBoot minimalBuild (fun _ => 0) (fun _ => 0) ⟨0, 0⟩)
        [.op (.begin none), .op (.write 1), .op (.write 2), .op (.write 3),
          .op (.write 4), .op .fin, .op .append]).ram.count = 5
      ∧ (Run.run (eventStep minimalBuild)
        (firstBoot minimalBuild (fun _ => 0) (fun _ => 0) ⟨0, 0⟩)
        [.op (.begin none), .op (.write 1), .op (.write 2), .op (.write 3),
          .op (.write 4), .op .fin, .op .append]).ram.max = 4
      ∧ (Run.run (eventStep minimalBuild)
        (firstBoot minimalBuild (fun _ => 0) (fun _ => 0) ⟨0, 0⟩)
        [.op (.begin none), .op (.write 1), .op (.write 2), .op (.write 3),
          .op (.write 4), .op .fin, .op .append]).ram.storeEnd
        = 13 + minimalBuild.MAX + 1 := by
  decide

end BacktraceLog
