import Mathlib.Algebra.Group.Nat.Defs
import BacktraceLog.Lib.WordMem
import BacktraceLog.Lib.XorSum

/-!
# The log buffer

`struct BACKTRACE_LOG` and `union BacktraceLogUnion`, as the words they
occupy, with the checksum over them. A build fixes the number of entries
and the options; everything below is stated for an arbitrary build.

The struct is thirteen words and the `pc` array: `chksum`, `max`,
`bootCounter`, `crashCount`, `binCrc`, the seven words of the SDK's
`struct rst_info`, `count`, `pc[MAX]`. Both views of the union are used
by the code (fields, and `word32[]` for the block operations), so the
words are the model and the fields are names for them.
-/

namespace BacktraceLog

/-- `uint32_t`, `size_t` and pointers of the 32-bit target. -/
abbrev Word := BitVec 32

/-- `struct rst_info` of the SDK. -/
structure RstInfo where
  reason : Word
  exccause : Word
  epc1 : Word
  epc2 : Word
  epc3 : Word
  excvaddr : Word
  depc : Word
deriving DecidableEq, Repr

namespace RstInfo

/-- `sizeof(struct rst_info) / sizeof(uint32_t)`. -/
def size32 : Nat := 7

/-- The struct as the words a `memcpy` moves. -/
def word32 (r : RstInfo) : Nat → Word
  | 0 => r.reason
  | 1 => r.exccause
  | 2 => r.epc1
  | 3 => r.epc2
  | 4 => r.epc3
  | 5 => r.excvaddr
  | 6 => r.depc
  | _ => 0

def zero : RstInfo := ⟨0, 0, 0, 0, 0, 0, 0⟩

end RstInfo

/-- Where the buffer lives: the `noinit` DRAM object `_pBT`, or the IRAM
left over after the text segment. -/
inductive BufferSite where
  | dram (addr : Word)
  | iram (textEnd instramVaddr mmuIramSize : Word)

/-- The compile-time options of a build, after the header's own fix-ups
(`MAX` raised to `DEBUG_ESP_BACKTRACELOG_MIN`, offset `1` read as `64`)
and `#error` tests. `RTC_OFFSET = 0` is the option left out. -/
structure Build where
  /-- `DEBUG_ESP_BACKTRACELOG_MAX` -/
  MAX : Nat
  /-- `DEBUG_ESP_BACKTRACELOG_USE_RTC_BUFFER_OFFSET` -/
  RTC_OFFSET : Nat
  /-- `__crc_val`, written into the image by the linker step -/
  crcVal : Word
  site : BufferSite
  min_le : 4 ≤ MAX
  rtc_range : RTC_OFFSET = 0 ∨ 64 ≤ RTC_OFFSET ∧ RTC_OFFSET < 192
  /-- The union is an object: its size is a positive `ptrdiff_t`. -/
  sizeof_lt : 4 * (13 + MAX) < 2 ^ 31

/-- The smallest build: four entries in DRAM, no RTC copy. -/
def minimalBuild : Build where
  MAX := 4
  RTC_OFFSET := 0
  crcVal := 0x1c0dec0d
  site := .dram 0x3ffe8000
  min_le := by decide
  rtc_range := by decide
  sizeof_lt := by decide

/-- The same with a copy at the start of the user RTC memory. -/
def minimalRtcBuild : Build where
  MAX := 4
  RTC_OFFSET := 64
  crcVal := 0x1c0dec0d
  site := .dram 0x3ffe8000
  min_le := by decide
  rtc_range := by decide
  sizeof_lt := by decide

/-- `DEBUG_ESP_BACKTRACELOG_MIN` -/
def logMin : Nat := 4

/-- The words of the buffer, and of the memory after it. -/
abbrev Ram := WordMem 32

namespace Ram

/-- `offsetof(union BacktraceLogUnion, log.max)` -/
def offMax : Nat := 4

/-- `offsetof(union BacktraceLogUnion, log.crashCount)` -/
def offCrashCount : Nat := 12

/-- `offsetof(union BacktraceLogUnion, log.pc)` -/
def offPc : Nat := 52

/-! ## Fields -/

abbrev chksum (p : Ram) : Word := WordMem.word p 0
abbrev max (p : Ram) : Word := WordMem.word p 1
abbrev bootCounter (p : Ram) : Word := WordMem.word p 2
abbrev crashCount (p : Ram) : Word := WordMem.word p 3
abbrev binCrc (p : Ram) : Word := WordMem.word p 4
abbrev count (p : Ram) : Word := WordMem.word p 12

/-- `log.pc[i]`. The address `&pc[i]` is that of word `13 + i` as long as
`13 + i < 2 ^ 30`; what is said of entries beyond, which a log of the build
never has, does not take into account that it comes round. -/
abbrev pc (p : Ram) (i : Nat) : Word := WordMem.word p (13 + i)

def rstInfo (p : Ram) : RstInfo :=
  ⟨WordMem.word p 5, WordMem.word p 6, WordMem.word p 7, WordMem.word p 8,
    WordMem.word p 9, WordMem.word p 10, WordMem.word p 11⟩

abbrev setChksum (p : Ram) (v : Word) : Ram := WordMem.store p 0 v
abbrev setMax (p : Ram) (v : Word) : Ram := WordMem.store p 1 v
abbrev setBootCounter (p : Ram) (v : Word) : Ram := WordMem.store p 2 v
abbrev setCrashCount (p : Ram) (v : Word) : Ram := WordMem.store p 3 v
abbrev setBinCrc (p : Ram) (v : Word) : Ram := WordMem.store p 4 v
abbrev setCount (p : Ram) (v : Word) : Ram := WordMem.store p 12 v

/-- `log.pc[i] = v`, with `13 + i < 2 ^ 30` as in `pc`. -/
abbrev setPc (p : Ram) (i : Nat) (v : Word) : Ram :=
  WordMem.store p (13 + i) v

/-- `memcpy(&p->log.rst_info, r, sizeof(struct rst_info))` -/
def setRstInfo (p : Ram) (r : RstInfo) : Ram :=
  WordMem.blit p 5 RstInfo.size32 (fun i => r.word32 (i - 5))

theorem word_setRstInfo (p : Ram) (r : RstInfo) {i : Nat}
    (h : i < 5 ∨ 12 ≤ i) : (p.setRstInfo r).word i = p.word i :=
  WordMem.word_blit_out _ _ (by simp only [RstInfo.size32]; omega)

@[simp] theorem rstInfo_setRstInfo (p : Ram) (r : RstInfo) :
    (p.setRstInfo r).rstInfo = r := by
  simp [rstInfo, setRstInfo, WordMem.word_blit, RstInfo.size32,
    RstInfo.word32]

/-- Buffers that agree on words `5..11` hold the same `rst_info`. -/
theorem rstInfo_congr {p q : Ram}
    (h : ∀ i, 5 ≤ i → i < 12 → p.word i = q.word i) :
    p.rstInfo = q.rstInfo := by
  simp [rstInfo, h]

end Ram

/-! ## The checksum -/

/-- `xorChecksum16(p, len16, xsum16)` over the words at `x`. -/
def xorChecksum16 (x : Nat → Word) (len16 : Nat) (xsum16 : BitVec 16) :
    BitVec 16 :=
  let len32 := len16 / 2
  let xsum := XorSum.loop x (xsum16.setWidth 32) len32
  let xsum := (xsum >>> 16) ^^^ (xsum.setWidth 16).setWidth 32
  -- an odd half-word is the low half of the next word
  let xsum := if len16 % 2 = 1 then
      xsum ^^^ ((x len32).setWidth 16).setWidth 32
    else xsum
  xsum.setWidth 16

/-- `do_checksum(p)`, for a non-NULL `p`. -/
def doChecksum (b : Build) (p : Ram) : Word :=
  (xorChecksum16 (fun i => WordMem.word p (1 + i))
    (Ram.offPc / 2 - Ram.offMax / 2 + b.MAX * 2) 0).setWidth 32

/-- `p->log.chksum == do_checksum(p)` -/
def Sealed (b : Build) (p : Ram) : Prop := p.chksum = doChecksum b p

instance (b : Build) (p : Ram) : Decidable (Sealed b p) :=
  inferInstanceAs (Decidable (_ = _))

/-- Of an even number of half-words from a zero seed, the checksum is the
folded XOR of the words. -/
theorem xorChecksum16_even (x : Nat → Word) (n : Nat) :
    xorChecksum16 x (2 * n) 0 = XorSum.fold16 (XorSum.range x 0 n) := by
  have h1 : 2 * n / 2 = n := by omega
  have h2 : ¬ 2 * n % 2 = 1 := by omega
  simp only [xorChecksum16, h1, if_neg h2, XorSum.loop_eq, XorSum.fold16]
  simp [BitVec.setWidth_xor]

/-- The checksum covers exactly the words `max` to `pc[MAX - 1]`. -/
theorem doChecksum_eq (b : Build) (p : Ram) :
    doChecksum b p
      = (XorSum.fold16 (XorSum.range p.word 1 (12 + b.MAX))).setWidth 32 := by
  have hlen : Ram.offPc / 2 - Ram.offMax / 2 + b.MAX * 2
      = 2 * (12 + b.MAX) := by
    simp only [Ram.offPc, Ram.offMax]
    omega
  rw [doChecksum, hlen, xorChecksum16_even, XorSum.range_shift]

/-- Buffers that agree on the covered words have the same checksum. -/
theorem doChecksum_congr {b : Build} {p q : Ram}
    (h : ∀ i, 1 ≤ i → i < 13 + b.MAX → p.word i = q.word i) :
    doChecksum b p = doChecksum b q := by
  rw [doChecksum_eq, doChecksum_eq,
    XorSum.range_congr (fun i h1 h2 => h i h1 (by omega))]

/-- Storing the checksum does not change it. -/
@[simp] theorem doChecksum_setChksum (b : Build) (p : Ram) (v : Word) :
    doChecksum b (p.setChksum v) = doChecksum b p :=
  doChecksum_congr fun i h _ => WordMem.word_store_ne _ _ (by omega)

/-- **Sealing seals**: the buffer whose checksum was just stored passes the
test. -/
theorem sealed_setChksum (b : Build) (p : Ram) :
    Sealed b (p.setChksum (doChecksum b p)) := by
  simp [Sealed]

theorem Sealed.congr {b : Build} {p q : Ram} (h : Sealed b p)
    (hpq : ∀ i, i < 13 + b.MAX → q.word i = p.word i) : Sealed b q := by
  have hc : doChecksum b q = doChecksum b p :=
    doChecksum_congr fun i _ hi => hpq i hi
  have h0 : q.chksum = p.chksum := hpq 0 (by omega)
  rw [Sealed, h0, hc]
  exact h

end BacktraceLog
