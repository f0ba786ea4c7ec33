import BacktraceLog.Lib.Run
import BacktraceLog.Lib.Words
import BacktraceLog.Unwind.Code

/-!
# Reading code bytes

How `_idx` comes by a byte. Code in RAM and ROM, and flash while its cache
is on, takes 32-bit loads only, so a byte is shifted out of the word around
it. With `BACKTRACE_IN_IRAM` the flash cache may be off; then the word is
read by the ROM's `SPIRead`, and the last one read is kept. What comes out
is the byte at the address in all cases, which is why the unwinder is
modelled over plain bytes of code.
-/

namespace BacktraceLog

open WordCache

/-- The memory and the flash chip as the code can reach them. -/
structure Bus where
  /-- the byte at an address, that of flash while its cache is on -/
  byte : Word → BitVec 8
  /-- the four bytes ROM `SPIRead` stores, by the address in flash -/
  spiRead : Word → Fin 4 → BitVec 8

/-- `(uintptr_t)p8 & ~(uintptr_t)3u` -/
def wordAddr (p8 : Word) : Word := p8 &&& ~~~3

/-- `(uintptr_t)p8 & 3u` -/
def lane (p8 : Word) : Fin 4 :=
  ⟨(p8 &&& 3).toNat, by
    have h := Align.toNat_and_lowMask p8 (k := 2) (by decide)
    exact h ▸ Nat.mod_lt _ (by decide)⟩

/-- A 32-bit load. -/
def load32 (bus : Bus) (v32 : Word) : Word :=
  ofBytes fun i => bus.byte (v32 + .ofNat 32 i)

/-- `_get_uint8(p8)` -/
def getUint8 (bus : Bus) (p8 : Word) : BitVec 8 :=
  let val := load32 bus (wordAddr p8)
  let pos := (lane p8).val * 8
  (val >>> pos).setWidth 8

/-- The end of what the flash cache maps, `FLASH_BASE + 1024*1024`. -/
def flashMapEnd : Word := 0x40300000

/-- The statics `addr` and `data` of `_idx`. -/
abbrev IdxStatics := Line Word (Fin 4 → BitVec 8)

/-- `_idx(c)` with `BACKTRACE_IN_IRAM`; `cacheReadEn` is
`SPIRDY & CACHE_READ_EN_BIT`. -/
def idxInIram (bus : Bus) (cacheReadEn : Bool) (s : IdxStatics) (c : Word) :
    BitVec 8 × IdxStatics :=
  if flashBase > c ∨ cacheReadEn then (getUint8 bus c, s)
  else if flashMapEnd > c then
    -- directly from flash
    let s : IdxStatics :=
      if wordAddr c ≠ s.addr then
        ⟨wordAddr c, bus.spiRead (wordAddr c - flashBase)⟩
      else s
    (s.data (lane c), s)
  else (0, s)

/-- The statics before the first call. -/
def idxStart : IdxStatics := ⟨0, fun _ => 0⟩

/-! ## The byte in the word -/

theorem lane_val (c : Word) : (lane c).val = c.toNat % 4 :=
  Align.toNat_and_lowMask c (k := 2) (by decide)

theorem toNat_wordAddr (c : Word) :
    (wordAddr c).toNat = 4 * (c.toNat / 4) :=
  Align.toNat_and_not_lowMask c (k := 2) (by decide)

/-- An address is its word and its lane. -/
theorem wordAddr_add_lane (c : Word) :
    wordAddr c + .ofNat 32 (lane c) = c := by
  have hword := toNat_wordAddr c
  have hlane := lane_val c
  have hlt := c.isLt
  refine BitVec.eq_of_toNat_eq ?_
  rw [BitVec.toNat_add, BitVec.toNat_ofNat]
  omega

/-- **The byte shifted out of its word is the byte.** -/
theorem getUint8_eq (bus : Bus) (p8 : Word) :
    getUint8 bus p8 = bus.byte p8 := by
  rw [getUint8, load32, byte_ofBytes, wordAddr_add_lane]

/-! ## The word kept -/

/-- Flash as the ROM and the cache show it. -/
structure ShowsFlash (bus : Bus) (flash : Nat → BitVec 8) : Prop where
  /-- `SPIRead` succeeds and fills the four bytes. -/
  spiRead : ∀ off : Word, 4 ∣ off.toNat → off.toNat < 0x100000 → ∀ i : Fin 4,
    bus.spiRead off i = flash (off.toNat + i)
  /-- Flash is mapped at `FLASH_BASE`. -/
  mapped : ∀ x, x < 0x100000 →
    bus.byte (flashBase + .ofNat 32 x) = flash x

variable {bus : Bus} {flash : Nat → BitVec 8} {s : IdxStatics} {c : Word}
  {cacheReadEn : Bool}

/-- What a refill reads for the word at `addr`. -/
def spiWord (bus : Bus) (addr : Word) : Fin 4 → BitVec 8 :=
  bus.spiRead (addr - flashBase)

/-- An address in flash; that of the statics before the first call is
not. -/
def InFlash (addr : Word) : Prop := flashBase ≤ addr

/-- The word kept is the one at its address. -/
abbrev Kept (bus : Bus) (s : IdxStatics) : Prop :=
  s.Coherent (spiWord bus) InFlash

theorem kept_idxStart (bus : Bus) : Kept bus idxStart := by
  intro h
  have hout : ¬ flashBase ≤ 0 := by decide
  exact absurd h hout

/-- Past the loads a call is a lookup. -/
theorem idxInIram_lookup (hflash : ¬ (flashBase > c ∨ cacheReadEn))
    (hc : c < flashMapEnd) :
    idxInIram bus cacheReadEn s c
      = ((s.lookup (spiWord bus) (wordAddr c)).data (lane c),
        s.lookup (spiWord bus) (wordAddr c)) := by
  rw [idxInIram, if_neg hflash, if_pos hc]
  rfl

theorem kept_idxInIram (h : Kept bus s) (cacheReadEn : Bool) (c : Word) :
    Kept bus (idxInIram bus cacheReadEn s c).2 := by
  by_cases hload : flashBase > c ∨ cacheReadEn
  · rw [idxInIram, if_pos hload]
    exact h
  · by_cases hc : c < flashMapEnd
    · rw [idxInIram_lookup hload hc]
      exact h.lookup _
    · rw [idxInIram, if_neg hload, if_neg hc]
      exact h

/-- The byte of a word refilled is the byte. -/
theorem spiWord_lane (hf : ShowsFlash bus flash) (hbase : flashBase ≤ c)
    (hc : c < flashMapEnd) :
    InFlash (wordAddr c) ∧ spiWord bus (wordAddr c) (lane c) = bus.byte c := by
  have hlow : 0x40200000 ≤ c.toNat := hbase
  have hhigh : c.toNat < 0x40300000 := hc
  have hword := toNat_wordAddr c
  have hlane := lane_val c
  have hin : flashBase ≤ wordAddr c := by
    show 0x40200000 ≤ (wordAddr c).toNat
    omega
  have hoff : (wordAddr c - flashBase).toNat
      = 4 * (c.toNat / 4) - 0x40200000 := by
    rw [BitVec.toNat_sub_of_le hin, hword]
    rfl
  have haddr : flashBase + .ofNat 32 (c.toNat - 0x40200000) = c := by
    refine BitVec.eq_of_toNat_eq ?_
    have hbaseNat : flashBase.toNat = 0x40200000 := rfl
    rw [BitVec.toNat_add, BitVec.toNat_ofNat, hbaseNat]
    omega
  have hdvd : 4 ∣ (wordAddr c - flashBase).toNat := by
    rw [hoff]
    omega
  have hlt : (wordAddr c - flashBase).toNat < 0x100000 := by
    rw [hoff]
    omega
  refine ⟨hin, ?_⟩
  calc spiWord bus (wordAddr c) (lane c)
      = flash ((wordAddr c - flashBase).toNat + (lane c).val) :=
        hf.spiRead _ hdvd hlt _
    _ = flash (c.toNat - 0x40200000) := by
        have hsum : (wordAddr c - flashBase).toNat + (lane c).val
            = c.toNat - 0x40200000 := by
          rw [hoff, hlane]
          omega
        rw [hsum]
    _ = bus.byte c := by
        rw [← hf.mapped _ (by omega), haddr]

/-- What a call returns while the word kept is good. -/
theorem idxInIram_eq (hf : ShowsFlash bus flash) (h : Kept bus s)
    (hc : c < flashMapEnd) :
    (idxInIram bus cacheReadEn s c).1 = bus.byte c := by
  by_cases hload : flashBase > c ∨ cacheReadEn
  · rw [idxInIram, if_pos hload]
    exact getUint8_eq bus c
  · have hbase : flashBase ≤ c := BitVec.not_lt.mp fun hlt => hload (.inl hlt)
    obtain ⟨hin, hbyte⟩ := spiWord_lane hf hbase hc
    rw [idxInIram_lookup hload hc, h.lookup_data hin]
    exact hbyte

/-- Calls of `_idx`, each with the flash cache on or off. -/
def idxCalls (bus : Bus) (calls : List (Bool × Word)) : IdxStatics :=
  Run.run (fun s call => (idxInIram bus call.1 s call.2).2) idxStart calls

theorem kept_idxCalls (bus : Bus) (calls : List (Bool × Word)) :
    Kept bus (idxCalls bus calls) :=
  Run.run_invariant (I := Kept bus)
    (fun _ call h => kept_idxInIram h call.1 call.2) (kept_idxStart bus) calls

/-- **Cached reads are plain reads**: `_get_uint8` loads the byte at any
address, and so does `_idx` for addresses up to the end of mapped flash,
whatever calls came before and whether or not the flash cache is on. -/
theorem cached_reads_eq_plain (hf : ShowsFlash bus flash)
    (calls : List (Bool × Word)) :
    (∀ p8, getUint8 bus p8 = bus.byte p8)
      ∧ ∀ cacheReadEn c, c < flashMapEnd →
        (idxInIram bus cacheReadEn (idxCalls bus calls) c).1 = bus.byte c :=
  ⟨getUint8_eq bus,
    fun _ _ hc => idxInIram_eq hf (kept_idxCalls bus calls) hc⟩

/-- Flash with the address as its content. -/
def addressBus : Bus where
  byte a := .ofNat 8 (a - flashBase).toNat
  spiRead off i := .ofNat 8 (off.toNat + i)

theorem showsFlash_addressBus : ShowsFlash addressBus (.ofNat 8) where
  spiRead _ _ _ _ := rfl
  mapped x hx := by
    have hsub : flashBase + .ofNat 32 x - flashBase = .ofNat 32 x := by
      rw [BitVec.add_comm, BitVec.add_sub_cancel]
    show BitVec.ofNat 8 (flashBase + .ofNat 32 x - flashBase).toNat = _
    rw [hsub, BitVec.toNat_ofNat, Nat.mod_eq_of_lt (by omega)]

theorem cached_reads_eq_plain_addressBus :
    getUint8 addressBus 0x40200007 = addressBus.byte 0x40200007
      ∧ (idxInIram addressBus false (idxCalls addressBus
          [(false, 0x40200001), (true, 0x40200103), (false, 0x40200102)])
        0x40200003).1 = addressBus.byte 0x40200003 :=
  have h := cached_reads_eq_plain showsFlash_addressBus
    [(false, 0x40200001), (true, 0x40200103), (false, 0x40200102)]
  ⟨h.1 _, h.2 _ _ (by decide)⟩

end BacktraceLog
