import BacktraceLog.Lib.Bounded
import BacktraceLog.Log.Boot

/-!
# The record operations

What `begin`, `write`, `append`, `fin` and `clear` do to a booted device,
word by word, and the list of addresses a buffer holds. `begin` and
`append` call `set_pBT` again: on a sealed buffer that call does nothing,
on an open record it boots a second time.
-/

namespace BacktraceLog

variable {b : Build}

/-! ## The addresses held -/

/-- `log.pc[0..count)`. -/
def items (p : Ram) : List Word :=
  (List.range p.count.toNat).map p.pc

@[simp] theorem length_items (p : Ram) :
    (items p).length = p.count.toNat := by
  simp [items]

theorem items_congr {p q : Ram} (hc : q.count = p.count)
    (h : ∀ i, i < p.count.toNat → q.pc i = p.pc i) : items q = items p := by
  unfold items
  rw [hc]
  exact List.map_congr_left fun i hi => h i (List.mem_range.mp hi)

theorem items_of_count_zero {p : Ram} (h : p.count = 0) : items p = [] := by
  simp [items, h]

/-- `read(p, sz)` gives the first `sz` addresses. -/
theorem read_eq {s : Device} (h : s.pBT ≠ none) (sz : Nat) :
    read s sz = (items s.ram).take sz := by
  have hlimit : (if sz < s.ram.count.toNat then sz else s.ram.count.toNat)
      = min sz s.ram.count.toNat := by
    split <;> omega
  simp only [read, if_neg h, hlimit]
  rw [items, ← List.map_take, List.take_range]

theorem available_eq {s : Device} (h : s.pBT ≠ none) :
    available s = (items s.ram).length := by
  rw [available, if_neg h, length_items]

/-! ## `backtraceLog_write` and `backtraceLog_append` -/

/-- `log.pc[log.count++] = v`. -/
def putItem (p : Ram) (v : Word) : Ram :=
  (p.setPc p.count.toNat v).setCount (p.count + 1)

theorem word_putItem (p : Ram) (v : Word) {i : Nat} (hc : i ≠ 12)
    (hi : i ≠ 13 + p.count.toNat) : (putItem p v).word i = p.word i := by
  rw [putItem, Ram.setCount, WordMem.word_store_ne _ _ hc, Ram.setPc,
    WordMem.word_store_ne _ _ hi]

@[simp] theorem count_putItem (p : Ram) (v : Word) :
    (putItem p v).count = p.count + 1 := by
  simp [putItem]

/-- One more address, at the end. -/
theorem items_putItem {p : Ram} (v : Word)
    (h : p.count.toNat + 1 < 2 ^ 32) :
    items (putItem p v) = items p ++ [v] := by
  have hcount : (putItem p v).count.toNat = p.count.toNat + 1 := by
    rw [count_putItem, BitVec.toNat_add]
    exact Nat.mod_eq_of_lt h
  rw [items, hcount, List.range_succ, List.map_append]
  congr 1
  · refine List.map_congr_left fun i hi => ?_
    have := List.mem_range.mp hi
    exact word_putItem p v (by omega) (by omega)
  · have : (putItem p v).pc p.count.toNat = v := by
      rw [putItem, Ram.setCount, Ram.pc, WordMem.word_store_ne _ _ (by omega),
        Ram.setPc, WordMem.word_store_self]
    rw [List.map_singleton, this]

/-- What `backtraceLog_write` does to the buffer. -/
def writeItem (p : Ram) (v : Word) : Ram :=
  if p.count < p.max then putItem p v else p

theorem backtraceLogWrite_eq {s : Device} (h : s.pBT ≠ none) (v : Word) :
    backtraceLogWrite s v = { s with ram := writeItem s.ram v } := by
  unfold backtraceLogWrite writeItem
  rw [if_neg h]
  split <;> rfl

/-- A write touches `count` and one entry below the capacity. -/
theorem word_writeItem (p : Ram) (v : Word) {i : Nat} (hc : i ≠ 12)
    (hi : i < 13 ∨ 13 + p.max.toNat ≤ i) :
    (writeItem p v).word i = p.word i := by
  unfold writeItem
  by_cases hlt : p.count < p.max
  · have : p.count.toNat < p.max.toNat := hlt
    rw [if_pos hlt, word_putItem p v hc (by omega)]
  · rw [if_neg hlt]

/-- **A write is a bounded push.** -/
theorem items_writeItem (p : Ram) (v : Word) :
    items (writeItem p v) = Bounded.push p.max.toNat (items p) v := by
  unfold writeItem Bounded.push
  rw [length_items]
  by_cases hlt : p.count < p.max
  · have hlt' : p.count.toNat < p.max.toNat := hlt
    have hmax := p.max.isLt
    rw [if_pos hlt, if_pos hlt', items_putItem v (by omega)]
  · rw [if_neg hlt, if_neg (show ¬ p.count.toNat < p.max.toNat from hlt)]

/-- A run of `backtraceLog_write`. -/
def writeAll (s : Device) (pcs : List Word) : Device :=
  pcs.foldl backtraceLogWrite s

/-- The buffer after a run of writes. -/
def writeItems (p : Ram) (pcs : List Word) : Ram :=
  pcs.foldl writeItem p

theorem writeAll_eq {s : Device} (h : s.pBT ≠ none) (pcs : List Word) :
    writeAll s pcs = { s with ram := writeItems s.ram pcs } := by
  induction pcs generalizing s with
  | nil => rfl
  | cons v pcs ih =>
      have hstep : writeAll s (v :: pcs)
          = writeAll (backtraceLogWrite s v) pcs := rfl
      rw [hstep, backtraceLogWrite_eq h]
      exact ih h

theorem word_writeItems (p : Ram) (pcs : List Word) {i : Nat} (hc : i ≠ 12)
    (hi : i < 13 ∨ 13 + p.max.toNat ≤ i) :
    (writeItems p pcs).word i = p.word i := by
  induction pcs generalizing p with
  | nil => rfl
  | cons v pcs ih =>
      have hmax : (writeItem p v).max = p.max :=
        word_writeItem p v (by omega) (by omega)
      have hstep := ih (writeItem p v) (by rw [hmax]; exact hi)
      rw [word_writeItem p v hc hi] at hstep
      exact hstep

theorem items_writeItems {p : Ram} (h : p.count ≤ p.max)
    (pcs : List Word) :
    items (writeItems p pcs) = (items p ++ pcs).take p.max.toNat := by
  -- a write keeps the capacity, so every push is bounded by that of `p`
  have hfold : ∀ (q : Ram), q.max = p.max →
      items (writeItems q pcs)
        = pcs.foldl (Bounded.push p.max.toNat) (items q) := by
    induction pcs with
    | nil => intro q _; rfl
    | cons v pcs ih =>
        intro q hq
        have hmax : (writeItem q v).max = q.max :=
          word_writeItem q v (by omega) (by omega)
        have hstep := ih (writeItem q v) (hmax.trans hq)
        rw [items_writeItem, hq] at hstep
        exact hstep
  rw [hfold p rfl, Bounded.foldl_push]
  rw [length_items]
  exact h

/-! ## `backtraceLog_begin` -/

/-- What `backtraceLog_begin` does to the buffer it finds. -/
def openRecord (p : Ram) (resetInfo : Option RstInfo) : Ram :=
  let p : Ram := p.setRstInfo (resetInfo.getD .zero)
  let p : Ram := p.setCrashCount (p.crashCount + 1)
  p.setCount 0

theorem backtraceLogBegin_eq (s : Device) (resetInfo : Option RstInfo) :
    backtraceLogBegin b s resetInfo
      = if (setPBT b s).1.pBT = none then (setPBT b s).1
        else { (setPBT b s).1 with
          ram := openRecord (setPBT b s).1.ram resetInfo } := by
  unfold backtraceLogBegin openRecord
  cases resetInfo <;> rfl

theorem backtraceLogBegin_sealed {s : Device} (hs : Booted b s)
    (h : Sealed b s.ram) (resetInfo : Option RstInfo) :
    backtraceLogBegin b s resetInfo
      = { s with ram := openRecord s.ram resetInfo } := by
  rw [backtraceLogBegin_eq, setPBT_sealed hs.fits hs.pBT h, if_neg hs.pBT]

theorem word_openRecord (p : Ram) (r : Option RstInfo) {i : Nat}
    (h : i < 3 ∨ i = 4 ∨ 12 < i) : (openRecord p r).word i = p.word i := by
  rw [openRecord, Ram.setCount, WordMem.word_store_ne _ _ (by omega),
    Ram.setCrashCount, WordMem.word_store_ne _ _ (by omega),
    Ram.word_setRstInfo _ _ (by omega)]

@[simp] theorem crashCount_openRecord (p : Ram) (r : Option RstInfo) :
    (openRecord p r).crashCount = p.crashCount + 1 := by
  simp [openRecord, Ram.word_setRstInfo]

@[simp] theorem count_openRecord (p : Ram) (r : Option RstInfo) :
    (openRecord p r).count = 0 := by
  simp [openRecord]

@[simp] theorem rstInfo_openRecord (p : Ram) (r : Option RstInfo) :
    (openRecord p r).rstInfo = r.getD .zero := by
  rw [← Ram.rstInfo_setRstInfo p (r.getD .zero)]
  refine Ram.rstInfo_congr fun i h1 h2 => ?_
  rw [openRecord, Ram.setCount, WordMem.word_store_ne _ _ (by omega),
    Ram.setCrashCount, WordMem.word_store_ne _ _ (by omega)]

theorem items_openRecord (p : Ram) (r : Option RstInfo) :
    items (openRecord p r) = [] :=
  items_of_count_zero (count_openRecord p r)

theorem backtraceLogAppend_sealed {s : Device} (hs : Booted b s)
    (h : Sealed b s.ram) :
    backtraceLogAppend b s = { s with ram := putItem s.ram 0 } := by
  unfold backtraceLogAppend
  rw [setPBT_sealed hs.fits hs.pBT h, if_neg hs.pBT]
  rfl

/-! ## `backtraceLog_fin` -/

/-- `log.binCrc = __crc_val; log.chksum = do_checksum(pBT)`. -/
def closeRecord (b : Build) (p : Ram) : Ram :=
  let p : Ram := p.setBinCrc b.crcVal
  p.setChksum (doChecksum b p)

theorem sealed_closeRecord (p : Ram) : Sealed b (closeRecord b p) :=
  sealed_setChksum b _

theorem word_closeRecord (p : Ram) {i : Nat} (h0 : i ≠ 0) (h4 : i ≠ 4) :
    (closeRecord b p).word i = p.word i := by
  simp [closeRecord, h0, h4]

@[simp] theorem binCrc_closeRecord (p : Ram) :
    (closeRecord b p).binCrc = b.crcVal := by
  simp [closeRecord]

theorem rstInfo_closeRecord (p : Ram) :
    (closeRecord b p).rstInfo = p.rstInfo :=
  Ram.rstInfo_congr fun _ _ _ => word_closeRecord p (by omega) (by omega)

theorem items_closeRecord (p : Ram) : items (closeRecord b p) = items p :=
  items_congr (word_closeRecord p (by omega) (by omega))
    fun _ _ => word_closeRecord p (by omega) (by omega)

theorem backtraceLogFin_eq {s : Device} (hs : Booted b s) :
    backtraceLogFin b s = { s with
      ram := closeRecord b s.ram
      rtc := if RtcActive b then rtcStore b s.rtc (closeRecord b s.ram)
        else s.rtc } := by
  unfold backtraceLogFin
  rw [if_neg hs.pBT]
  show rtcSave b { s with ram := closeRecord b s.ram } = _
  rw [rtcSave_eq (s := { s with ram := closeRecord b s.ram }) hs.status]
  split <;> rfl

/-- `fin` leaves a booted, sealed log. -/
theorem fin_sealed {s : Device} (hs : Booted b s) :
    Booted b (backtraceLogFin b s) ∧ Sealed b (backtraceLogFin b s).ram := by
  rw [backtraceLogFin_eq hs]
  exact ⟨⟨hs.fits, hs.pBT, hs.status⟩, sealed_closeRecord s.ram⟩

/-- `begin` opens an empty record, whatever log it finds. -/
theorem begin_booted {s : Device} (hs : Booted b s)
    (resetInfo : Option RstInfo) :
    Booted b (backtraceLogBegin b s resetInfo)
      ∧ (backtraceLogBegin b s resetInfo).ram.count = 0 := by
  have hset := setPBT_booted hs
  rw [backtraceLogBegin_eq, if_neg hset.pBT]
  exact ⟨⟨hset.fits, hset.pBT, hset.status⟩, count_openRecord _ _⟩

theorem write_booted {s : Device} (hs : Booted b s) (v : Word) :
    Booted b (backtraceLogWrite s v) := by
  rw [backtraceLogWrite_eq hs.pBT]
  exact ⟨hs.fits, hs.pBT, hs.status⟩

theorem firstBoot_taken (hf : Fits b) (words rtc : Nat → Word)
    (status : RtcStatus) :
    Taken b (powerOn words rtc status) (firstBoot b words rtc status) :=
  setPBT_boot hf rfl

theorem oneRecord_sealed (hf : Fits b) :
    Booted b (oneRecord b) ∧ Sealed b (oneRecord b).ram := by
  have h := firstBoot_taken hf (fun _ => 0) (fun _ => 0) ⟨0, 0⟩
  exact fin_sealed (write_booted (begin_booted (h.booted hf) none).1 _)

/-! ## `backtraceLog_clear` -/

/-- What `backtraceLog_clear` does to the buffer. -/
def clearRecord (p : Ram) : Ram :=
  WordMem.blitRound p (2 ^ 30) 3 (clearSize32 p) fun _ => 0

theorem clearSize32_eq (p : Ram) :
    clearSize32 p = (10 + p.max.toNat) % 2 ^ 30 := by
  simp only [clearSize32, Ram.offPc, Ram.offCrashCount]
  omega

/-- The erased words end before the memory does. -/
def ClearEnds (p : Ram) : Prop := 3 + clearSize32 p ≤ 2 ^ 30

theorem clearRecord_of_ends {p : Ram} (h : ClearEnds p) :
    clearRecord p = WordMem.blit p 3 (clearSize32 p) fun _ => 0 :=
  WordMem.blitRound_of_le p _ h

theorem word_clearRecord {p : Ram} (h : ClearEnds p) {i : Nat}
    (hi : i < 3 ∨ 3 + clearSize32 p ≤ i) :
    (clearRecord p).word i = p.word i := by
  rw [clearRecord_of_ends h]
  exact WordMem.word_blit_out _ _ hi

theorem word_clearRecord_erased {p : Ram} (h : ClearEnds p) {i : Nat}
    (h1 : 3 ≤ i) (h2 : i < 3 + clearSize32 p) :
    (clearRecord p).word i = 0 := by
  rw [clearRecord_of_ends h]
  exact WordMem.word_blit_in _ _ h1 h2

/-- Of a capacity inside the array all entries are erased, and no more. -/
theorem clearSize32_of_le {p : Ram} (h : p.max.toNat ≤ b.MAX) :
    clearSize32 p = 10 + p.max.toNat := by
  have hsz := b.sizeof_lt
  rw [clearSize32_eq, Nat.mod_eq_of_lt (by omega)]

theorem clearEnds_of_le {p : Ram} (h : p.max.toNat ≤ b.MAX) :
    ClearEnds p := by
  have hsz := b.sizeof_lt
  rw [ClearEnds, clearSize32_of_le h]
  omega

theorem count_clearRecord {p : Ram} (h : p.max.toNat ≤ b.MAX) :
    (clearRecord p).count = 0 := by
  have hsize := clearSize32_of_le h
  exact word_clearRecord_erased (clearEnds_of_le h) (by omega) (by omega)

theorem backtraceLogClear_eq {s : Device} (hs : Booted b s) :
    backtraceLogClear b s = { s with
      ram := clearRecord s.ram
      rtc := if RtcActive b then rtcStore b s.rtc (clearRecord s.ram)
        else s.rtc } := by
  unfold backtraceLogClear
  rw [if_neg hs.pBT]
  show rtcSave b { s with ram := clearRecord s.ram } = _
  rw [rtcSave_eq (s := { s with ram := clearRecord s.ram }) hs.status]
  split <;> rfl

/-! ## How far the stores reach -/

section StoreEnd

variable {p : Ram} {n : Nat}

theorem storeEnd_putItem_le (v : Word) (h : p.storeEnd ≤ 13 + n)
    (hc : p.count.toNat < n) : (putItem p v).storeEnd ≤ 13 + n := by
  unfold putItem
  exact WordMem.storeEnd_store_le _
    (WordMem.storeEnd_store_le _ h (by omega)) (by omega)

theorem storeEnd_openRecord_le (r : Option RstInfo)
    (h : p.storeEnd ≤ 13 + n) : (openRecord p r).storeEnd ≤ 13 + n := by
  unfold openRecord
  refine WordMem.storeEnd_store_le _
    (WordMem.storeEnd_store_le _ ?_ (by omega)) (by omega)
  exact WordMem.storeEnd_blit_le _ h (by simp only [RstInfo.size32]; omega)

theorem storeEnd_closeRecord_le (h : p.storeEnd ≤ 13 + n) :
    (closeRecord b p).storeEnd ≤ 13 + n := by
  unfold closeRecord
  exact WordMem.storeEnd_store_le _
    (WordMem.storeEnd_store_le _ h (by omega)) (by omega)

theorem storeEnd_clearRecord_le (hmax : p.max.toNat ≤ b.MAX)
    (hn : b.MAX ≤ n) (h : p.storeEnd ≤ 13 + n) :
    (clearRecord p).storeEnd ≤ 13 + n := by
  rw [clearRecord_of_ends (clearEnds_of_le hmax), clearSize32_of_le hmax]
  exact WordMem.storeEnd_blit_le _ h (by omega)

end StoreEnd

end BacktraceLog
