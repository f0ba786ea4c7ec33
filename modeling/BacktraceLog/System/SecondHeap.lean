import BacktraceLog.Log.Bounds
import BacktraceLog.Log.Carve
import BacktraceLog.Log.Printed

/-!
# The log beside the second heap

With `MMU_IRAM_HEAP` the log and the second heap share IRAM: `set_pBT`
takes its bytes in front and `umm_init_iram` gives the rest away. Here the
operations of the log, resets and the stores of whoever holds heap memory
come in any order, into one memory. Neither side sees the other, as long
as every `append` has room.
-/

namespace BacktraceLog

variable {b : Build} {textEnd va sz : Word} {mem : MemInfo}

/-! ## What the log looks at -/

/-- The devices differ in nothing but the memory behind the log. -/
structure SameLog (b : Build) (s t : Device) : Prop where
  pBT : s.pBT = t.pBT
  ram : WordMem.AgreeTo (13 + b.MAX) s.ram t.ram
  rtc : s.rtc = t.rtc
  rtcStatus : s.rtcStatus = t.rtcStatus
  resetReason : s.resetReason = t.resetReason

theorem SameLog.refl (b : Build) (s : Device) : SameLog b s s :=
  ⟨rfl, fun _ _ => rfl, rfl, rfl, rfl⟩

section Agree

variable {p q : Ram}

theorem doChecksum_agree (h : WordMem.AgreeTo (13 + b.MAX) p q) :
    doChecksum b p = doChecksum b q :=
  doChecksum_congr fun i _ hi => h i hi

theorem sealed_agree_iff (h : WordMem.AgreeTo (13 + b.MAX) p q) :
    Sealed b p ↔ Sealed b q :=
  ⟨fun hs => hs.congr fun i hi => (h i hi).symm, fun hs => hs.congr h⟩

theorem setChksum_agree (h : WordMem.AgreeTo (13 + b.MAX) p q) :
    WordMem.AgreeTo (13 + b.MAX) (p.setChksum (doChecksum b p))
      (q.setChksum (doChecksum b q)) :=
  h.store 0 (doChecksum_agree h)

theorem bump_agree (h : WordMem.AgreeTo (13 + b.MAX) p q) :
    WordMem.AgreeTo (13 + b.MAX) (bump b p) (bump b q) := by
  have hboot : p.bootCounter + 1 = q.bootCounter + 1 := by
    rw [Ram.bootCounter, Ram.bootCounter, h 2 (by omega)]
  exact setChksum_agree (h.store 2 hboot)

theorem emptied_agree (h : WordMem.AgreeTo (13 + b.MAX) p q) (n : Nat) :
    WordMem.AgreeTo (13 + b.MAX) (emptied b p n) (emptied b q n) :=
  (h.blit 0 rfl _).store 1 rfl

theorem initTaken_agree (h : WordMem.AgreeTo (13 + b.MAX) p q) (n : Nat)
    (force : Bool) :
    WordMem.AgreeTo (13 + b.MAX) (initTaken b p n force)
      (initTaken b q n force) := by
  unfold initTaken
  exact .ite (and_congr_right' (sealed_agree_iff h)) h (emptied_agree h n)

theorem rtcTaken_agree (h : WordMem.AgreeTo (13 + b.MAX) p q)
    (rtc : Nat → Word) :
    WordMem.AgreeTo (13 + b.MAX) (rtcTaken b rtc p) (rtcTaken b rtc q) := by
  have himage : WordMem.AgreeTo (13 + b.MAX) (rtcImage b rtc p)
      (rtcImage b rtc q) := h.blit 0 rfl _
  have haccepts : RtcAccepts b (rtcImage b rtc p)
      ↔ RtcAccepts b (rtcImage b rtc q) :=
    ⟨fun ha => ha.congr fun i hi => (himage i hi).symm,
      fun ha => ha.congr himage⟩
  unfold rtcTaken
  exact .ite haccepts himage (emptied_agree himage _)

/-- What is copied to RTC is in front of the heap. -/
theorem rtcStore_agree (h : WordMem.AgreeTo (13 + b.MAX) p q)
    (rtc : Nat → Word) : rtcStore b rtc p = rtcStore b rtc q := by
  have hle := maxDepth_le b
  funext j
  unfold rtcStore
  split
  · exact h _ (by omega)
  · rfl

end Agree

/-! ## One step of the log -/

theorem SameLog.bootTaken {s t : Device} (h : SameLog b s t) :
    WordMem.AgreeTo (13 + b.MAX) (bootTaken b s) (bootTaken b t) := by
  have hinit := initTaken_agree h.ram b.MAX (!isMemValid t.resetReason)
  simp only [BacktraceLog.bootTaken, h.resetReason, h.rtc]
  split
  · exact rtcTaken_agree (bump_agree hinit) t.rtc
  · exact hinit

theorem rtcStatus_takeBuffer (h : b.RTC_OFFSET = 0) (addr : Word)
    (s : Device) : (takeBuffer b addr s).rtcStatus = s.rtcStatus := by
  simp [takeBuffer, rtcCheckInit, h]

theorem SameLog.takeBuffer {s t : Device} (h : SameLog b s t) :
    SameLog b (takeBuffer b (bufferAddr b) s)
      (takeBuffer b (bufferAddr b) t) := by
  have hs := takeBuffer_taken (b := b) s
  have ht := takeBuffer_taken (b := b) t
  have hram : WordMem.AgreeTo (13 + b.MAX)
      (BacktraceLog.takeBuffer b (bufferAddr b) s).ram
      (BacktraceLog.takeBuffer b (bufferAddr b) t).ram := by
    rw [hs.ram, ht.ram]
    exact bump_agree h.bootTaken
  refine ⟨by rw [hs.pBT, ht.pBT], hram, ?_, ?_, ?_⟩
  · rw [hs.rtc, ht.rtc, rtcStore_agree hram, h.rtc]
  · by_cases h0 : b.RTC_OFFSET = 0
    · rw [rtcStatus_takeBuffer h0, rtcStatus_takeBuffer h0, h.rtcStatus]
    · rw [hs.status h0, ht.status h0]
  · rw [hs.reason, ht.reason, h.resetReason]

theorem SameLog.setPBT (hf : Fits b) {s t : Device} (h : SameLog b s t) :
    SameLog b (setPBT b s).1 (setPBT b t).1 := by
  by_cases hfound : s.pBT ≠ none ∧ Sealed b s.ram
  · obtain ⟨hp, hseal⟩ := hfound
    rw [setPBT_sealed hf hp hseal, setPBT_sealed hf (h.pBT ▸ hp)
      ((sealed_agree_iff h.ram).mp hseal)]
    exact h
  · have hs : s.pBT = none ∨ ¬ Sealed b s.ram := by
      rwa [not_and_or, not_not] at hfound
    have ht : t.pBT = none ∨ ¬ Sealed b t.ram := by
      rwa [← h.pBT, ← sealed_agree_iff h.ram]
    rw [setPBT_take hf hs, setPBT_take hf ht]
    exact h.takeBuffer

theorem SameLog.withRam {s t : Device} (h : SameLog b s t) {p q : Ram}
    (hpq : WordMem.AgreeTo (13 + b.MAX) p q) :
    SameLog b { s with ram := p } { t with ram := q } :=
  ⟨h.pBT, hpq, h.rtc, h.rtcStatus, h.resetReason⟩

theorem SameLog.withCopy {s t : Device} (h : SameLog b s t) {p q : Ram}
    (hpq : WordMem.AgreeTo (13 + b.MAX) p q) :
    SameLog b
      { s with
        ram := p
        rtc := if RtcActive b then rtcStore b s.rtc p else s.rtc }
      { t with
        ram := q
        rtc := if RtcActive b then rtcStore b t.rtc q else t.rtc } :=
  ⟨h.pBT, hpq, by simp only [rtcStore_agree hpq, h.rtc], h.rtcStatus,
    h.resetReason⟩

theorem SameLog.booted {s t : Device} (h : SameLog b s t)
    (hs : Booted b s) : Booted b t :=
  ⟨hs.fits, h.pBT ▸ hs.pBT, fun h0 => h.rtcStatus ▸ hs.status h0⟩

theorem SameLog.reset {s t : Device} (h : SameLog b s t) (r : Reset) :
    SameLog b (reset s r) (reset t r) := by
  cases r with
  | warm reason => exact ⟨rfl, h.ram, h.rtc, h.rtcStatus, rfl⟩
  | deepSleep words status => exact ⟨rfl, fun _ _ => rfl, h.rtc, rfl, rfl⟩

theorem putItem_agree {p q : Ram}
    (h : WordMem.AgreeTo (13 + b.MAX) p q) (v : Word) :
    WordMem.AgreeTo (13 + b.MAX) (putItem p v) (putItem q v) := by
  have hcount : p.count = q.count := h 12 (by omega)
  unfold putItem
  rw [hcount]
  exact (h.store _ rfl).store 12 rfl

theorem openRecord_agree {p q : Ram}
    (h : WordMem.AgreeTo (13 + b.MAX) p q) (r : Option RstInfo) :
    WordMem.AgreeTo (13 + b.MAX) (openRecord p r) (openRecord q r) := by
  have hrst : WordMem.AgreeTo (13 + b.MAX) (p.setRstInfo (r.getD .zero))
      (q.setRstInfo (r.getD .zero)) := h.blit 5 rfl _
  refine (hrst.store 3 ?_).store 12 rfl
  rw [Ram.crashCount, Ram.crashCount, hrst 3 (by omega)]

theorem closeRecord_agree {p q : Ram}
    (h : WordMem.AgreeTo (13 + b.MAX) p q) :
    WordMem.AgreeTo (13 + b.MAX) (closeRecord b p) (closeRecord b q) :=
  setChksum_agree (h.store 4 rfl)

theorem clearRecord_agree {p q : Ram}
    (h : WordMem.AgreeTo (13 + b.MAX) p q) :
    WordMem.AgreeTo (13 + b.MAX) (clearRecord p) (clearRecord q) := by
  have hsize : clearSize32 p = clearSize32 q := by
    rw [clearSize32, clearSize32, Ram.max, Ram.max, h 1 (by omega)]
  exact h.blitRound (2 ^ 30) 3 hsize _

/-- **What the log does depends on the log alone.** -/
theorem SameLog.step {s t : Device} (hs : Booted b s) (h : SameLog b s t)
    (e : Event) : SameLog b (eventStep b s e) (eventStep b t e) := by
  have ht := h.booted hs
  have hset := h.setPBT hs.fits
  have hs' := setPBT_booted hs
  cases e with
  | reboot r => exact (h.reset r).setPBT hs.fits
  | op o =>
      cases o with
      | begin r =>
          show SameLog b (backtraceLogBegin b s r) (backtraceLogBegin b t r)
          rw [backtraceLogBegin_eq, backtraceLogBegin_eq, if_neg hs'.pBT,
            if_neg (hset.booted hs').pBT]
          exact hset.withRam (openRecord_agree hset.ram r)
      | append =>
          show SameLog b (backtraceLogAppend b s) (backtraceLogAppend b t)
          unfold backtraceLogAppend
          rw [if_neg hs'.pBT, if_neg (hset.booted hs').pBT]
          exact hset.withRam (putItem_agree hset.ram 0)
      | write v =>
          show SameLog b (backtraceLogWrite s v) (backtraceLogWrite t v)
          rw [backtraceLogWrite_eq hs.pBT, backtraceLogWrite_eq ht.pBT]
          refine h.withRam (.ite ?_ (putItem_agree h.ram v) h.ram)
          rw [Ram.count, Ram.max, h.ram 12 (by omega), h.ram 1 (by omega)]
      | fin =>
          show SameLog b (backtraceLogFin b s) (backtraceLogFin b t)
          rw [backtraceLogFin_eq hs, backtraceLogFin_eq ht]
          exact h.withCopy (closeRecord_agree h.ram)
      | clear =>
          show SameLog b (backtraceLogClear b s) (backtraceLogClear b t)
          rw [backtraceLogClear_eq hs, backtraceLogClear_eq ht]
          exact h.withCopy (clearRecord_agree h.ram)

/-! ## What the log leaves alone -/

section Behind

variable {i : Nat}

theorem word_emptied_behind (p : Ram) (n : Nat) (hi : 13 + b.MAX ≤ i) :
    (emptied b p n).word i = p.word i := by
  rw [emptied, WordMem.word_store_ne _ _ (by omega),
    WordMem.word_blit_out _ _ (by omega)]

theorem word_bootTaken_behind (s : Device) (hi : 13 + b.MAX ≤ i) :
    (bootTaken b s).word i = s.ram.word i := by
  have hle := maxDepth_le b
  have hinit : (initTaken b s.ram b.MAX
      (!isMemValid s.resetReason)).word i = s.ram.word i := by
    unfold initTaken
    split
    · rfl
    · exact word_emptied_behind _ _ hi
  have himage : (rtcImage b s.rtc (bump b (initTaken b s.ram b.MAX
      (!isMemValid s.resetReason)))).word i = s.ram.word i := by
    rw [word_rtcImage_out _ _ (by omega), word_bump _ (by omega) (by omega),
      hinit]
  simp only [bootTaken]
  split
  · unfold rtcTaken
    split
    · exact himage
    · rw [word_emptied_behind _ _ hi, himage]
  · exact hinit

theorem word_setPBT_behind (s : Device) (hi : 13 + b.MAX ≤ i) :
    (setPBT b s).1.ram.word i = s.ram.word i := by
  by_cases hf : Fits b
  · by_cases hfound : s.pBT ≠ none ∧ Sealed b s.ram
    · rw [setPBT_sealed hf hfound.1 hfound.2]
    · have htake : s.pBT = none ∨ ¬ Sealed b s.ram := by
        rwa [not_and_or, not_not] at hfound
      rw [setPBT_take hf htake, (takeBuffer_taken s).ram,
        word_bump _ (by omega) (by omega), word_bootTaken_behind s hi]
  · rw [setPBT_no_room hf]

theorem word_putItem_behind {p : Ram} (hmax : p.max.toNat ≤ b.MAX)
    (hroom : p.count < p.max) (v : Word) (hi : 13 + b.MAX ≤ i) :
    (putItem p v).word i = p.word i := by
  have hlt : p.count.toNat < p.max.toNat := hroom
  rw [putItem, WordMem.word_store_ne _ _ (by omega),
    WordMem.word_store_ne _ _ (by omega)]

/-- **No operation stores behind the log**, where an `append` has room. -/
theorem InRange.word_behind {s : Device} (h : InRange b s) {o : Op}
    (hroom : HasRoom b s (.op o)) (hi : 13 + b.MAX ≤ i) :
    (BacktraceLog.step b s o).ram.word i = s.ram.word i := by
  have hset := h.setPBT
  have hword := word_setPBT_behind s hi
  cases o with
  | begin r =>
      show (backtraceLogBegin b s r).ram.word i = _
      rw [backtraceLogBegin_eq, if_neg hset.booted.pBT,
        word_openRecord _ _ (by omega), hword]
  | append =>
      show (backtraceLogAppend b s).ram.word i = _
      unfold backtraceLogAppend
      rw [if_neg hset.booted.pBT]
      exact (word_putItem_behind hset.usable.2.1
        ((appendRoom_iff h).mp hroom) 0 hi).trans hword
  | write v =>
      show (backtraceLogWrite s v).ram.word i = _
      rw [backtraceLogWrite_eq h.booted.pBT, writeItem]
      split
      · rename_i hlt
        exact word_putItem_behind h.usable.2.1 hlt v hi
      · rfl
  | fin =>
      show (backtraceLogFin b s).ram.word i = _
      rw [backtraceLogFin_eq h.booted,
        word_closeRecord _ (by omega) (by omega)]
  | clear =>
      have hmax := h.usable.2.1
      show (backtraceLogClear b s).ram.word i = _
      rw [backtraceLogClear_eq h.booted]
      refine word_clearRecord (clearEnds_of_le hmax) (.inr ?_)
      rw [clearSize32_of_le hmax]
      omega

end Behind

/-! ## The heap's memory -/

/-- What is handed on lies in what was there: the contract of
`DEBUG_ESP_BACKTRACELOG_IRAM_RESERVE_CB`, which gives the next available
address and the size remaining. -/
def PartOf (part whole : MemInfo) : Prop :=
  whole.addr.toNat ≤ part.addr.toNat
    ∧ part.addr.toNat + part.sz.toNat ≤ whole.addr.toNat + whole.sz.toNat

/-- A word of the block. -/
def InHeap (mem : MemInfo) (a : Word) : Prop :=
  4 ∣ a.toNat ∧ mem.addr.toNat ≤ a.toNat
    ∧ a.toNat + 4 ≤ mem.addr.toNat + mem.sz.toNat

/-- The word at the address `a`, counted from the log. -/
def wordAt (b : Build) (a : Word) : Nat :=
  (a.toNat - (bufferAddr b).toNat) / 4

/-- A store of the heap's user. -/
def heapStore (b : Build) (s : Device) (a v : Word) : Device :=
  { s with ram := { s.ram with
      word := fun i => if i = wordAt b a then v else s.ram.word i } }

/-- **The heap is behind the log**, at every boot. -/
theorem InIram.heap_behind (h : InIram b textEnd va sz) (hf : Fits b)
    {cb : Option (MemInfo → MemInfo)}
    (hcb : ∀ f, cb = some f → ∀ m, PartOf (f m) m) {s : Device}
    (hmem : (ummInitIram b cb s).2 = some mem) :
    (bufferAddr b).toNat + (iramReserveSz b).toNat ≤ mem.addr.toNat := by
  have haddr : bufferAddr b = iramBuffer textEnd := by
    rw [bufferAddr, h.site]
    rfl
  have hstart := (h.logAt hf).start
  have hblock := h.block_behind hf
  have hpart : PartOf mem (iramBlock b textEnd va sz) ∧ mem.sz ≠ 0 := by
    simp only [ummInitIram, setPBT_block h.site,
      Option.ite_none_right_eq_some, Option.some.injEq] at hmem
    obtain ⟨hsz, rfl⟩ := hmem
    refine ⟨?_, hsz⟩
    cases cb with
    | none => exact ⟨Nat.le_refl _, Nat.le_refl _⟩
    | some f => exact hcb f rfl _
  obtain ⟨⟨hlo, hhi⟩, hsz⟩ := hpart
  have hpos : mem.sz.toNat ≠ 0 := fun h0 => hsz (BitVec.eq_of_toNat_eq h0)
  have hwhole : (iramBlock b textEnd va sz).sz ≠ 0 := by
    intro h0
    rw [h0] at hhi
    have hzero : (0 : Word).toNat = 0 := rfl
    omega
  obtain ⟨hfirst, -⟩ := hblock.of_sz hwhole
  rw [haddr]
  omega

/-- Where the words of the heap are: behind the log, each at its own. -/
structure Behind (b : Build) (mem : MemInfo) : Prop where
  aligned : 8 ∣ (bufferAddr b).toNat
  reserved : 4 * (13 + b.MAX) ≤ (iramReserveSz b).toNat
  start : (bufferAddr b).toNat + (iramReserveSz b).toNat ≤ mem.addr.toNat

theorem Behind.le_wordAt (h : Behind b mem) {a : Word} (ha : InHeap mem a) :
    13 + b.MAX ≤ wordAt b a := by
  have h1 := h.reserved
  have h2 := h.start
  have h3 := ha.2.1
  unfold wordAt
  omega

theorem Behind.wordAt_inj (h : Behind b mem) {a a' : Word}
    (ha : InHeap mem a) (ha' : InHeap mem a')
    (heq : wordAt b a = wordAt b a') : a = a' := by
  have h1 := h.aligned
  have h2 := h.start
  obtain ⟨h3, h4, -⟩ := ha
  obtain ⟨h5, h6, -⟩ := ha'
  unfold wordAt at heq
  exact BitVec.eq_of_toNat_eq (by omega)

/-! ## The shared memory -/

/-- The two users of the memory. -/
inductive Shared where
  | log (e : Event)
  | heap (a v : Word)

def sharedStep (b : Build) (s : Device) : Shared → Device
  | .log e => eventStep b s e
  | .heap a v => heapStore b s a v

/-- Each keeps to its own: an `append` has room, a store is to a word of
the heap. -/
def KeepsTo (b : Build) (mem : MemInfo) (s : Device) : Shared → Prop
  | .log e => HasRoom b s e
  | .heap a _ => InHeap mem a

/-- What the log's side is, alone. -/
def logEvent : Shared → Option Event
  | .log e => some e
  | .heap _ _ => none

/-- What the heap's side is, alone: memory by address, that only its own
stores and the loss of RAM in deep sleep change. -/
def heapStep (b : Build) (m : Word → Word) : Shared → Word → Word
  | .heap a v => fun x => if x = a then v else m x
  | .log (.reboot (.deepSleep words _)) => fun x => words (wordAt b x)
  | .log _ => m

/-- The invariant of the shared runs; `l` is the log alone, `m` the heap. -/
structure Apart (b : Build) (mem : MemInfo) (s : Device)
    (lm : Device × (Word → Word)) : Prop where
  inRange : InRange b s
  log : SameLog b s lm.1
  heap : ∀ a, InHeap mem a → s.ram.word (wordAt b a) = lm.2 a

/-- Both sides, each on its own. -/
def apartStep (b : Build) (lm : Device × (Word → Word)) (e : Shared) :
    Device × (Word → Word) :=
  (match logEvent e with
    | some e => eventStep b lm.1 e
    | none => lm.1, heapStep b lm.2 e)

/-- A store behind the log is none to the log. -/
theorem InRange.heapStore {s : Device} (h : InRange b s) {a : Word}
    (ha : 13 + b.MAX ≤ wordAt b a) (v : Word) :
    InRange b (heapStore b s a v) := by
  have hword : ∀ i, i < 13 →
      (BacktraceLog.heapStore b s a v).ram.word i = s.ram.word i := by
    intro i hi
    exact if_neg (by omega)
  have hmax : (BacktraceLog.heapStore b s a v).ram.max = s.ram.max :=
    hword 1 (by omega)
  have hcount : (BacktraceLog.heapStore b s a v).ram.count = s.ram.count :=
    hword 12 (by omega)
  have hle : (BacktraceLog.heapStore b s a v).ram.count.toNat
      ≤ (BacktraceLog.heapStore b s a v).ram.max.toNat := by
    rw [hmax, hcount]
    exact h.usable.2.2
  exact h.withRam hmax hle h.storeEnd

theorem SameLog.heapStore {s t : Device} (h : SameLog b s t) {a : Word}
    (ha : 13 + b.MAX ≤ wordAt b a) (v : Word) :
    SameLog b (heapStore b s a v) t := by
  refine ⟨h.pBT, fun i hi => ?_, h.rtc, h.rtcStatus, h.resetReason⟩
  rw [← h.ram i hi]
  exact if_neg (by omega)

theorem Apart.step (hb : Behind b mem) {s : Device}
    {lm : Device × (Word → Word)} (h : Apart b mem s lm) {e : Shared}
    (he : KeepsTo b mem s e) :
    Apart b mem (sharedStep b s e) (apartStep b lm e) := by
  cases e with
  | heap a v =>
      have ha := hb.le_wordAt he
      refine ⟨h.inRange.heapStore ha v, h.log.heapStore ha v,
        fun x hx => ?_⟩
      show (if wordAt b x = wordAt b a then v else s.ram.word (wordAt b x))
        = if x = a then v else lm.2 x
      by_cases hxa : x = a
      · rw [if_pos (hxa ▸ rfl), if_pos hxa]
      · rw [if_neg fun hw => hxa (hb.wordAt_inj hx he hw), if_neg hxa]
        exact h.heap x hx
  | log e =>
      refine ⟨h.inRange.step he, h.log.step h.inRange.booted e,
        fun x hx => ?_⟩
      have hi := hb.le_wordAt hx
      cases e with
      | op o => exact (h.inRange.word_behind he hi).trans (h.heap x hx)
      | reboot r =>
          have hword : (eventStep b s (.reboot r)).ram.word (wordAt b x)
              = (reset s r).ram.word (wordAt b x) :=
            word_setPBT_behind _ hi
          cases r with
          | warm reason => exact hword.trans (h.heap x hx)
          | deepSleep words status => exact hword

/-- What is told of the log is in front of the heap. -/
theorem SameLog.report {s l : Device} (h : SameLog b s l)
    (hs : InRange b s) : report b s = report b l := by
  have hl := (h.booted hs.booted).pBT
  have hcount : l.ram.count.toNat ≤ b.MAX := by
    have hsame : s.ram.count = l.ram.count := h.ram 12 (by omega)
    rw [← hsame]
    exact Nat.le_trans hs.usable.2.2 hs.usable.2.1
  exact (report_of_readLog hl hs.booted.pBT hcount h.rtcStatus
    ((readLog_eq_iff hl hs.booted.pBT).mpr h.ram)).1

theorem run_apartStep (es : List Shared) (l : Device) (m : Word → Word) :
    Run.run (apartStep b) (l, m) es
      = (Run.run (eventStep b) l (es.filterMap logEvent),
        Run.run (heapStep b) m es) := by
  induction es generalizing l m with
  | nil => rfl
  | cons e es ih =>
      rw [Run.run_cons, Run.run_cons, apartStep, ih]
      cases e <;> rfl

/-- **The log and the second heap keep apart**: over any interleaving of
the log's operations and resets with stores to heap memory, if the copy
found at power on is no log or one that fits and every `append` has room,
the log is what it is without the heap, in its buffer, its RTC copy and
its report, and a word of the heap holds what was last stored there, or
what it held after a deep sleep since. -/
theorem log_and_heap_apart (h : InIram b textEnd va sz) (hf : Fits b)
    (cb : Option (MemInfo → MemInfo))
    (hcb : ∀ f, cb = some f → ∀ m, PartOf (f m) m)
    (words rtc : Nat → Word) (status : RtcStatus)
    (hcopy : CopyFits b rtc)
    (hmem : (ummInitIram b cb (powerOn words rtc status)).2 = some mem)
    (es : List Shared)
    (hes : Run.Meets (sharedStep b) (KeepsTo b mem)
      (firstBoot b words rtc status) es) :
    let s := Run.run (sharedStep b) (firstBoot b words rtc status) es
    let l := Run.run (eventStep b) (firstBoot b words rtc status)
      (es.filterMap logEvent)
    SameLog b s l ∧ report b s = report b l
      ∧ ∀ a, InHeap mem a → s.ram.word (wordAt b a)
        = Run.run (heapStep b) (fun x => words (wordAt b x)) es a := by
  have haddr : bufferAddr b = iramBuffer textEnd := by
    rw [bufferAddr, h.site]
    rfl
  have hlog := h.logAt hf
  have hbehind : Behind b mem :=
    ⟨haddr ▸ hlog.aligned, hlog.holds_union, h.heap_behind hf hcb hmem⟩
  have hfirst : Apart b mem (firstBoot b words rtc status)
      (firstBoot b words rtc status, fun x => words (wordAt b x)) :=
    ⟨firstBoot_inRange hf words status hcopy, .refl b _, fun a ha =>
      word_setPBT_behind (powerOn words rtc status) (hbehind.le_wordAt ha)⟩
  have hstep : ∀ s lm e, Apart b mem s lm → KeepsTo b mem s e →
      Apart b mem (sharedStep b s e) (apartStep b lm e) :=
    fun s lm e hR he => hR.step hbehind he
  have hrun := Run.Meets.simulates hstep hfirst hes
  rw [run_apartStep] at hrun
  obtain ⟨hrange, hsame, hheap⟩ := hrun
  exact ⟨hsame, hsame.report hrange, hheap⟩

/-- Five entries behind the same text: the log fills what is reserved, and
the heap starts at the word after `pc[4]`. -/
def heapBuild : Build where
  MAX := 5
  RTC_OFFSET := 128
  crcVal := 0x1c0dec0d
  site := .iram 0x4010b400 0x40100000 0xc000
  min_le := by decide
  rtc_range := by decide
  sizeof_lt := by decide

theorem inIram_heapBuild : InIram heapBuild 0x4010b400 0x40100000 0xc000 where
  site := rfl
  end_le := by decide
  size_lt := by decide
  reserve_lt := by decide
  text_ge := by decide
  text_le := by decide

/-- A record, a store to the first word of the heap, an `append`, a reset
and a store to the second word. -/
def sharedRun : List Shared :=
  [.log (.op (.begin none)), .log (.op (.write 0x40201234)),
    .heap 0x4010b468 7, .log (.op .fin), .log (.op .append),
    .log (.reboot (.warm 4)), .heap 0x4010b46c 8]

theorem log_and_heap_apart_heapBuild :
    let s := Run.run (sharedStep heapBuild)
      (firstBoot heapBuild (fun _ => 0) (fun _ => 0) ⟨0, 0⟩) sharedRun
    let l := Run.run (eventStep heapBuild)
      (firstBoot heapBuild (fun _ => 0) (fun _ => 0) ⟨0, 0⟩)
      (sharedRun.filterMap logEvent)
    SameLog heapBuild s l ∧ report heapBuild s = report heapBuild l
      ∧ ∀ a, InHeap ⟨0x4010b468, 0xb98⟩ a →
        s.ram.word (wordAt heapBuild a)
          = Run.run (heapStep heapBuild) (fun _ => 0) sharedRun a := by
  have hroom : Run.Meets (sharedStep heapBuild)
      (KeepsTo heapBuild ⟨0x4010b468, 0xb98⟩)
      (firstBoot heapBuild (fun _ => 0) (fun _ => 0) ⟨0, 0⟩) sharedRun := by
    refine ⟨trivial, trivial, ?_, trivial, fun _ => ?_, trivial, ?_,
      trivial⟩
    · show 4 ∣ _ ∧ _ ∧ _
      decide
    · rw [if_pos (by decide)]
      decide
    · show 4 ∣ _ ∧ _ ∧ _
      decide
  have hfits : Fits heapBuild := inIram_heapBuild.fits_iff.mpr (by decide)
  have hcopy : ¬ CopyGood heapBuild (fun _ => 0) := by
    show ¬ RtcAccepts _ _
    decide
  exact log_and_heap_apart inIram_heapBuild hfits none
    (fun _ h => nomatch h) (fun _ => 0) (fun _ => 0) ⟨0, 0⟩
    (fun _ hgood => absurd hgood hcopy) (by decide) sharedRun hroom

end BacktraceLog
