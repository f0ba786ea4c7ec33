import Mathlib.Algebra.Group.Int.Defs
import BacktraceLog.Lib.Words
import BacktraceLog.Log.Boot

/-!
# The carve-out in IRAM

What `set_pBT` makes of the memory between the end of the text segment and
the end of IRAM: the log in front, 8-aligned and clear of the text, and
the block behind it for the second heap. The code computes with `size_t`
and `ssize_t` words; here its results are compared with the addresses as
numbers.
-/

namespace BacktraceLog

variable {b : Build} {textEnd va sz : Word}

/-- The build puts the log into IRAM, which is the `sz` bytes from `va`,
with the end of the text segment in it; the sizes are below `2 ^ 31`. -/
structure InIram (b : Build) (textEnd va sz : Word) : Prop where
  site : b.site = .iram textEnd va sz
  end_le : va.toNat + sz.toNat ≤ 2 ^ 32
  size_lt : sz.toNat < 2 ^ 31
  reserve_lt : (iramReserveSz b).toNat < 2 ^ 31
  text_ge : va.toNat ≤ textEnd.toNat
  text_le : textEnd.toNat ≤ va.toNat + sz.toNat

/-- The last 8-aligned address at most 32 bytes past the text segment. -/
def freeStart (textEnd : Word) : Nat := (textEnd.toNat + 32) / 8 * 8

/-- The bytes from `start` up to `stop`, as a block; `{NULL, 0}` if there
are none. -/
def BlockUpTo (start stop : Nat) (mem : MemInfo) : Prop :=
  if start < stop then
    mem.addr.toNat = start ∧ mem.addr.toNat + mem.sz.toNat = stop
  else mem = ⟨0, 0⟩

/-! ## Sizes -/

theorem toNat_iramReserveSz (b : Build) :
    (iramReserveSz b).toNat = (4 * (13 + b.MAX) + 7) / 8 * 8 := by
  have hsize := b.sizeof_lt
  rw [iramReserveSz, BitVec.toNat_ofNat, Nat.mod_eq_of_lt (by omega)]

theorem toInt_of_lt {x : Word} (h : x.toNat < 2 ^ 31) :
    x.toInt = x.toNat :=
  BitVec.toInt_eq_toNat_of_lt (by omega)

theorem toInt_of_le {x : Word} (h : 2 ^ 31 ≤ x.toNat) :
    x.toInt = x.toNat - 2 ^ 32 := by
  rw [BitVec.toInt_eq_toNat_cond, if_neg (by omega)]
  rfl

/-- `iram_buffer` -/
def iramBuffer (textEnd : Word) : Word := (textEnd + 32) &&& ~~~7

theorem toNat_iramBuffer (textEnd : Word) :
    (iramBuffer textEnd).toNat = freeStart textEnd % 2 ^ 32 := by
  have hdown : (iramBuffer textEnd).toNat
      = 2 ^ 3 * ((textEnd + 32).toNat / 2 ^ 3) :=
    Align.toNat_and_not_lowMask (textEnd + 32) (k := 3) (by decide)
  have hadd : (textEnd + 32 : Word).toNat = (textEnd.toNat + 32) % 2 ^ 32 :=
    BitVec.toNat_add textEnd 32
  rw [hdown, hadd, freeStart]
  omega

/-- `iram_buffer_sz`, the bytes left from `iram_buffer` on. -/
def iramRoom (textEnd va sz : Word) : Word :=
  if (iramBuffer textEnd - va).toInt < sz.toInt then
    sz - (iramBuffer textEnd - va)
  else 0

theorem InIram.toNat_offset (h : InIram b textEnd va sz) :
    (iramBuffer textEnd - va).toNat = freeStart textEnd - va.toNat := by
  have h1 := h.text_ge
  have h2 := h.text_le
  have h3 := h.size_lt
  have hva := va.isLt
  rw [BitVec.toNat_sub, toNat_iramBuffer, freeStart]
  omega

/-- **What is left**, where there is anything. -/
theorem InIram.toInt_room (h : InIram b textEnd va sz)
    (hlt : freeStart textEnd < va.toNat + sz.toNat) :
    (iramRoom textEnd va sz).toInt
      = (va.toNat + sz.toNat - freeStart textEnd : Nat) := by
  have hoff := h.toNat_offset
  have h1 := h.text_ge
  have h2 := h.size_lt
  have hstart : va.toNat ≤ freeStart textEnd := by
    unfold freeStart
    omega
  have hlt' : (iramBuffer textEnd - va).toInt < sz.toInt := by
    rw [toInt_of_lt (by omega), toInt_of_lt h2]
    omega
  have hroom : (sz - (iramBuffer textEnd - va)).toNat
      = va.toNat + sz.toNat - freeStart textEnd := by
    rw [BitVec.toNat_sub_of_le (show _ ≤ _ by
      show (iramBuffer textEnd - va).toNat ≤ sz.toNat
      omega)]
    omega
  rw [iramRoom, if_pos hlt', toInt_of_lt (by omega), hroom]

/-- Past the end of IRAM nothing is left, also where the offset does not
fit into an `ssize_t`. -/
theorem InIram.toInt_room_le (h : InIram b textEnd va sz)
    (hle : va.toNat + sz.toNat ≤ freeStart textEnd) :
    (iramRoom textEnd va sz).toInt ≤ 0 := by
  have hoff := h.toNat_offset
  have h2 := h.size_lt
  have h3 := h.text_le
  have hstart : freeStart textEnd ≤ textEnd.toNat + 32 := by
    unfold freeStart
    omega
  unfold iramRoom
  by_cases hsmall : (iramBuffer textEnd - va).toNat < 2 ^ 31
  · rw [if_neg]
    · exact Int.le_refl 0
    · rw [toInt_of_lt hsmall, toInt_of_lt h2]
      omega
  · have hneg : (iramBuffer textEnd - va).toInt < sz.toInt := by
      rw [toInt_of_le (by omega), toInt_of_lt h2]
      omega
    have hover : (sz - (iramBuffer textEnd - va)).toNat
        = 2 ^ 32 - (iramBuffer textEnd - va).toNat + sz.toNat := by
      rw [BitVec.toNat_sub, Nat.mod_eq_of_lt (by omega)]
    rw [if_pos hneg, toInt_of_le (by omega), hover]
    omega

/-- **The log fits** exactly if its reserved size does. -/
theorem InIram.fits_iff (h : InIram b textEnd va sz) :
    Fits b ↔ freeStart textEnd + (iramReserveSz b).toNat
      ≤ va.toNat + sz.toNat := by
  have hfits : Fits b
      ↔ (iramReserveSz b).toInt ≤ (iramRoom textEnd va sz).toInt := by
    unfold Fits
    rw [h.site]
    exact Iff.rfl
  have hres := toNat_iramReserveSz b
  rw [hfits, toInt_of_lt h.reserve_lt]
  by_cases hlt : freeStart textEnd < va.toNat + sz.toNat
  · rw [h.toInt_room hlt]
    omega
  · have hroom := h.toInt_room_le (Nat.le_of_not_lt hlt)
    omega

/-! ## The block that is returned -/

/-- What `set_pBT` returns, whatever the log holds. -/
def iramBlock (b : Build) (textEnd va sz : Word) : MemInfo :=
  if (iramReserveSz b).toInt ≤ (iramRoom textEnd va sz).toInt then
    if 0 < (iramRoom textEnd va sz - iramReserveSz b).toInt then
      ⟨iramBuffer textEnd + iramReserveSz b,
        iramRoom textEnd va sz - iramReserveSz b⟩
    else ⟨0, 0⟩
  else if 0 < (iramRoom textEnd va sz).toInt then
    ⟨iramBuffer textEnd, iramRoom textEnd va sz⟩
  else ⟨0, 0⟩

theorem setPBT_block (hsite : b.site = .iram textEnd va sz) (s : Device) :
    (setPBT b s).2 = iramBlock b textEnd va sz := by
  by_cases hfits :
      (iramReserveSz b).toInt ≤ (iramRoom textEnd va sz).toInt
  · rw [iramBlock, if_pos hfits]
    unfold iramRoom iramBuffer at hfits ⊢
    simp only [setPBT, hsite, if_pos hfits]
  · rw [iramBlock, if_neg hfits]
    unfold iramRoom iramBuffer at hfits ⊢
    simp only [setPBT, hsite, if_neg hfits]

/-- A block handed out where its size is positive. -/
theorem blockUpTo_ite {addr size : Word} {start stop : Nat}
    (hlt : start < stop →
      addr.toNat = start ∧ size.toInt = (stop - start : Nat))
    (hle : stop ≤ start → size.toInt ≤ 0) :
    BlockUpTo start stop
      (if 0 < size.toInt then ⟨addr, size⟩ else ⟨0, 0⟩) := by
  unfold BlockUpTo
  by_cases h : start < stop
  · obtain ⟨haddr, hsize⟩ := hlt h
    have hnat : size.toNat = stop - start := by
      rw [BitVec.toInt_eq_toNat_cond] at hsize
      split at hsize
      · omega
      · have hlt := size.isLt
        omega
    rw [if_pos h, if_pos (by omega)]
    exact ⟨haddr, by show addr.toNat + size.toNat = stop; omega⟩
  · have hsize := hle (Nat.le_of_not_lt h)
    rw [if_neg h, if_neg (by omega)]

theorem InIram.fits_iff_toInt (h : InIram b textEnd va sz) :
    Fits b ↔ (iramReserveSz b).toInt ≤ (iramRoom textEnd va sz).toInt := by
  unfold Fits
  rw [h.site]
  exact Iff.rfl

theorem InIram.block_behind (h : InIram b textEnd va sz) (hf : Fits b) :
    BlockUpTo (freeStart textEnd + (iramReserveSz b).toNat)
      (va.toNat + sz.toNat) (iramBlock b textEnd va sz) := by
  have hle := h.fits_iff.mp hf
  have hend := h.end_le
  have hsz := h.size_lt
  have hge := h.text_ge
  have hres := toNat_iramReserveSz b
  have hstart : va.toNat ≤ freeStart textEnd := by
    unfold freeStart
    omega
  have hroom : (iramRoom textEnd va sz).toNat
      = va.toNat + sz.toNat - freeStart textEnd := by
    have hint := h.toInt_room (by omega)
    have hlt := (iramRoom textEnd va sz).isLt
    rw [BitVec.toInt_eq_toNat_cond] at hint
    split at hint <;> omega
  have hleft : (iramRoom textEnd va sz - iramReserveSz b).toNat
      = va.toNat + sz.toNat
        - (freeStart textEnd + (iramReserveSz b).toNat) := by
    rw [BitVec.toNat_sub_of_le (show _ ≤ _ by
      show (iramReserveSz b).toNat ≤ (iramRoom textEnd va sz).toNat
      omega)]
    omega
  rw [iramBlock, if_pos (h.fits_iff_toInt.mp hf)]
  refine blockUpTo_ite (fun hlt => ⟨?_, ?_⟩) fun hge => ?_
  · rw [BitVec.toNat_add, toNat_iramBuffer]
    omega
  · rw [toInt_of_lt (by omega), hleft]
  · rw [toInt_of_lt (by omega), hleft]
    omega

theorem InIram.block_whole (h : InIram b textEnd va sz) (hf : ¬ Fits b) :
    BlockUpTo (freeStart textEnd) (va.toNat + sz.toNat)
      (iramBlock b textEnd va sz) := by
  have hend := h.end_le
  rw [iramBlock, if_neg fun hint => hf (h.fits_iff_toInt.mpr hint)]
  refine blockUpTo_ite (fun hlt => ⟨?_, h.toInt_room hlt⟩) h.toInt_room_le
  rw [toNat_iramBuffer]
  omega

/-! ## The partition -/

/-- Where the log lies: 8-aligned, clear of the text, its reserved bytes
in IRAM and enough for the union, their end 8-aligned. -/
structure LogAt (b : Build) (textEnd va sz p : Word) : Prop where
  start : p.toNat = freeStart textEnd
  non_null : p ≠ 0
  aligned : 8 ∣ p.toNat
  clear_of_text : textEnd.toNat + 25 ≤ p.toNat
  holds_union : 4 * (13 + b.MAX) ≤ (iramReserveSz b).toNat
  above_start : va.toNat ≤ p.toNat
  below_end : p.toNat + (iramReserveSz b).toNat ≤ va.toNat + sz.toNat
  end_aligned : 8 ∣ p.toNat + (iramReserveSz b).toNat

theorem InIram.logAt (h : InIram b textEnd va sz) (hf : Fits b) :
    LogAt b textEnd va sz (iramBuffer textEnd) := by
  have hle := h.fits_iff.mp hf
  have hend := h.end_le
  have hge := h.text_ge
  have hres := toNat_iramReserveSz b
  have hstart : textEnd.toNat + 25 ≤ freeStart textEnd := by
    unfold freeStart
    omega
  have haligned : 8 ∣ freeStart textEnd := ⟨_, Nat.mul_comm _ 8⟩
  have hp : (iramBuffer textEnd).toNat = freeStart textEnd := by
    rw [toNat_iramBuffer, Nat.mod_eq_of_lt (by omega)]
  exact {
    start := hp
    non_null := by
      intro h0
      rw [h0] at hp
      have hzero : (0 : Word).toNat = 0 := rfl
      omega
    aligned := by rw [hp]; exact haligned
    clear_of_text := by rw [hp]; exact hstart
    holds_union := by rw [hres]; omega
    above_start := by rw [hp]; omega
    below_end := by rw [hp]; exact hle
    end_aligned := by rw [hp, hres]; omega }

/-- **The carve-out partitions the free space.** At boot the log is put in
front, where it fits, with the returned block behind it up to the end of
IRAM; where it does not, there is no log and the block is all there is.
Further calls, whatever the log holds by then, find the same. -/
theorem carve_out_partitions (h : InIram b textEnd va sz) {s : Device}
    (hs : s.pBT = none) :
    (freeStart textEnd + (iramReserveSz b).toNat ≤ va.toNat + sz.toNat →
        ∃ p, (setPBT b s).1.pBT = some p ∧ LogAt b textEnd va sz p
          ∧ BlockUpTo (p.toNat + (iramReserveSz b).toNat)
            (va.toNat + sz.toNat) (setPBT b s).2)
      ∧ (va.toNat + sz.toNat < freeStart textEnd + (iramReserveSz b).toNat →
        (setPBT b s).1.pBT = none
          ∧ BlockUpTo (freeStart textEnd) (va.toNat + sz.toNat)
            (setPBT b s).2)
      ∧ ∀ t : Device, t.pBT = (setPBT b s).1.pBT →
        (setPBT b t).1.pBT = (setPBT b s).1.pBT
          ∧ (setPBT b t).2 = (setPBT b s).2 := by
  have hblock := setPBT_block h.site
  have haddr : bufferAddr b = iramBuffer textEnd := by
    rw [bufferAddr, h.site]
    rfl
  refine ⟨fun hle => ?_, fun hlt => ?_, fun t ht => ⟨?_, ?_⟩⟩
  · have hf := h.fits_iff.mpr hle
    have hlog := h.logAt hf
    refine ⟨iramBuffer textEnd, ?_, hlog, ?_⟩
    · rw [(setPBT_boot hf hs).pBT, haddr]
    · rw [hblock, hlog.start]
      exact h.block_behind hf
  · have hf : ¬ Fits b := by
      rw [h.fits_iff]
      omega
    rw [hblock, setPBT_no_room hf]
    exact ⟨rfl, h.block_whole hf⟩
  · by_cases hf : Fits b
    · have hp := (setPBT_boot hf hs).pBT
      by_cases hseal : Sealed b t.ram
      · have hnull : t.pBT ≠ none := by
          rw [ht, hp]
          exact Option.some_ne_none _
        rw [setPBT_sealed hf hnull hseal]
        exact ht
      · rw [setPBT_take hf (.inr hseal), (takeBuffer_taken t).pBT, hp]
    · rw [setPBT_no_room hf, setPBT_no_room hf]
  · rw [hblock, hblock]

/-- The example sketch in the 48 KiB of the 16 KiB ICACHE option: 32
entries, and a text segment that leaves 3 KiB. -/
def iramBuild : Build where
  MAX := 32
  RTC_OFFSET := 96
  crcVal := 0x1c0dec0d
  site := .iram 0x4010b400 0x40100000 0xc000
  min_le := by decide
  rtc_range := by decide
  sizeof_lt := by decide

theorem inIram_iramBuild : InIram iramBuild 0x4010b400 0x40100000 0xc000 where
  site := rfl
  end_le := by decide
  size_lt := by decide
  reserve_lt := by decide
  text_ge := by decide
  text_le := by decide

theorem carve_out_partitions_iramBuild :
    ∃ p, (setPBT iramBuild (blank 0)).1.pBT = some p
      ∧ LogAt iramBuild 0x4010b400 0x40100000 0xc000 p
      ∧ BlockUpTo (p.toNat + (iramReserveSz iramBuild).toNat) 0x4010c000
        (setPBT iramBuild (blank 0)).2 :=
  (carve_out_partitions inIram_iramBuild rfl).1 (by decide)

/-! ## The second heap -/

/-- `umm_init_iram()`, with `DEBUG_ESP_BACKTRACELOG_IRAM_RESERVE_CB` if it
is defined: the block `umm_init_iram_ex` gets, if it is called. -/
def ummInitIram (b : Build) (reserveCb : Option (MemInfo → MemInfo))
    (s : Device) : Device × Option MemInfo :=
  let (s, secHeap) := setPBT b s
  let secHeap := match reserveCb with
    | some cb => cb secHeap
    | none => secHeap
  (s, if secHeap.sz ≠ 0 then some secHeap else none)

theorem BlockUpTo.of_sz {start stop : Nat} {mem : MemInfo}
    (h : BlockUpTo start stop mem) (hsz : mem.sz ≠ 0) :
    mem.addr.toNat = start ∧ mem.addr.toNat + mem.sz.toNat = stop := by
  unfold BlockUpTo at h
  by_cases hlt : start < stop
  · rwa [if_pos hlt] at h
  · rw [if_neg hlt] at h
    exact absurd (congrArg MemInfo.sz h) hsz

end BacktraceLog
