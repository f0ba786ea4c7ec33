import BacktraceLog.Log.Buffer

/-!
# The log's operations

The device as the log's code sees it (the pointer `pBT`, the buffer, the
RTC user memory, the reset reason) and every function of
`BacktraceLog.cpp` that touches the log: boot-time initialisation, the
record operations, clear and the readers. Resets are not code of the
library; they are what the hardware does to this state between two boots.
-/

namespace BacktraceLog

/-- `struct BACKTRACELOG_MEM_INFO` -/
structure MemInfo where
  addr : Word
  sz : Word
deriving DecidableEq, Repr

/-- `struct RTC_STATUS`; `size` is in bytes, zero when not available. -/
structure RtcStatus where
  size : Nat
  maxDepth : Nat
deriving DecidableEq, Repr

structure Device where
  /-- `pBT`; `none` is NULL -/
  pBT : Option Word
  /-- the union `pBT` points to, and what follows it -/
  ram : Ram
  /-- the 192 words of RTC memory -/
  rtc : Nat → Word
  rtcStatus : RtcStatus
  /-- `resetInfo.reason` -/
  resetReason : Word

/-! ## Initialisation -/

/-- `is_mem_valid()`: `REASON_DEFAULT_RST` is 0, `REASON_DEEP_SLEEP_AWAKE`
5 and `REASON_EXT_SYS_RST` 6. -/
def isMemValid (reason : Word) : Bool :=
  reason ≠ 0 && reason ≠ 5 && reason ≤ 6

/-- `backtraceLog_init(p, max, force)` -/
def backtraceLogInit (b : Build) (p : Ram) (max : Nat) (force : Bool) : Ram :=
  let p : Ram :=
    -- `max` and `count` are not looked at
    if force ∨ p.chksum ≠ doChecksum b p then
      Ram.setMax (WordMem.blit p 0 (13 + b.MAX) fun _ => 0) (.ofNat 32 max)
    else p
  let p : Ram := p.setBootCounter (p.bootCounter + 1)
  p.setChksum (doChecksum b p)

/-- `baseSize32BacktraceLog` -/
def baseSize32 : Nat := Ram.offPc / 4

/-- `system_rtc_mem_read(des_block, p, size)` of the SDK, whose code is not
in the repository: the words of the blocks from `des_block` on are taken to
arrive unaltered, and all of them. -/
def systemRtcMemRead (rtc : Nat → Word) (desBlock : Nat) (p : Ram)
    (size : Nat) : Ram :=
  WordMem.blit p 0 (size / 4) fun i => rtc (desBlock + i)

/-- `system_rtc_mem_write(des_block, p, size)`, likewise taken to copy
exactly, and to leave the other blocks alone. -/
def systemRtcMemWrite (rtc : Nat → Word) (desBlock : Nat) (p : Ram)
    (size : Nat) : Nat → Word :=
  fun j => if desBlock ≤ j ∧ j < desBlock + size / 4 then
    p.word (j - desBlock) else rtc j

/-- `rtc_check_init(pBT)`; nothing when the option is left out. -/
def rtcCheckInit (b : Build) (s : Device) : Device :=
  if b.RTC_OFFSET = 0 then s
  else
    let freeRtc : Int := (192 - b.RTC_OFFSET : Int) - baseSize32
    if (logMin : Int) ≤ freeRtc then
      let maxDepth := if freeRtc < b.MAX then freeRtc.toNat else b.MAX
      let size := 4 * (baseSize32 + maxDepth)
      -- from here on the buffer holds the copy, good or not
      let p : Ram := systemRtcMemRead s.rtc b.RTC_OFFSET s.ram size
      let p : Ram :=
        if p.max = .ofNat 32 maxDepth ∧ p.chksum = doChecksum b p then
          let p : Ram := p.setBootCounter (p.bootCounter + 1)
          p.setChksum (doChecksum b p)
        else backtraceLogInit b p maxDepth true
      { s with
        ram := p
        rtc := systemRtcMemWrite s.rtc b.RTC_OFFSET p size
        rtcStatus := ⟨size, maxDepth⟩ }
    else { s with rtcStatus := ⟨0, 0⟩ }

/-- `IRAM_RESERVE_SZ` -/
def iramReserveSz (b : Build) : Word :=
  .ofNat 32 ((4 * (13 + b.MAX) + 7) / 8 * 8)

/-- The common branch of both `set_pBT`: take the buffer at `addr`, then
initialise it and its RTC copy. -/
def takeBuffer (b : Build) (addr : Word) (s : Device) : Device :=
  let zero := !isMemValid s.resetReason
  let s := { s with
    pBT := some addr
    ram := backtraceLogInit b s.ram b.MAX zero }
  rtcCheckInit b s

/-- `set_pBT()`. In IRAM the buffer starts 25 to 32 bytes past the text
segment, on an 8-byte boundary; the block after it is returned. -/
def setPBT (b : Build) (s : Device) : Device × MemInfo :=
  match b.site with
  | .dram addr =>
      if s.pBT.isSome ∧ s.ram.chksum = doChecksum b s.ram then (s, ⟨0, 0⟩)
      else (takeBuffer b addr s, ⟨0, 0⟩)
  | .iram textEnd instramVaddr mmuIramSize =>
      let iramBuffer := (textEnd + 32) &&& ~~~7
      -- `ssize_t`, compared as signed
      let iramBufferSz : Word := iramBuffer - instramVaddr
      let iramBufferSz : Word :=
        if iramBufferSz.toInt < mmuIramSize.toInt then
          mmuIramSize - iramBufferSz
        else 0
      let (s, iramBuffer, iramBufferSz) :=
        if (iramReserveSz b).toInt ≤ iramBufferSz.toInt then
          (if s.pBT.isSome ∧ s.ram.chksum = doChecksum b s.ram then s
            else takeBuffer b iramBuffer s,
            iramBuffer + iramReserveSz b,
            iramBufferSz - iramReserveSz b)
        -- no room for the log: the caller gets all there is
        else ({ s with pBT := none }, iramBuffer, iramBufferSz)
      (s, if 0 < iramBufferSz.toInt then ⟨iramBuffer, iramBufferSz⟩
        else ⟨0, 0⟩)

/-! ## Records -/

/-- `backtraceLog_begin(reset_info)`; `none` is a NULL argument. -/
def backtraceLogBegin (b : Build) (s : Device) (resetInfo : Option RstInfo) :
    Device :=
  let s := (setPBT b s).1
  if s.pBT = none then s
  else
    let p : Ram := match resetInfo with
      | some r => s.ram.setRstInfo r
      | none => s.ram.setRstInfo .zero
    let p : Ram := p.setCrashCount (p.crashCount + 1)
    { s with ram := p.setCount 0 }

/-- `backtraceLog_append()` -/
def backtraceLogAppend (b : Build) (s : Device) : Device :=
  let s := (setPBT b s).1
  if s.pBT = none then s
  else
    -- stored at `count`, whatever `max` is
    { s with
      ram := (s.ram.setPc s.ram.count.toNat 0).setCount (s.ram.count + 1) }

/-- `backtraceLog_write(pc)` -/
def backtraceLogWrite (s : Device) (pc : Word) : Device :=
  if s.pBT = none then s
  else if s.ram.count < s.ram.max then
    { s with
      ram := (s.ram.setPc s.ram.count.toNat pc).setCount (s.ram.count + 1) }
  else s

/-- The RTC half of `backtraceLog_fin` and `backtraceLog_clear`: the copy
is rewritten when there is one. -/
def rtcSave (b : Build) (s : Device) : Device :=
  if b.RTC_OFFSET ≠ 0 ∧ s.rtcStatus.size ≠ 0 then
    { s with
      rtc := systemRtcMemWrite s.rtc b.RTC_OFFSET s.ram s.rtcStatus.size }
  else s

/-- `backtraceLog_fin()` -/
def backtraceLogFin (b : Build) (s : Device) : Device :=
  if s.pBT = none then s
  else
    let p : Ram := s.ram.setBinCrc b.crcVal
    rtcSave b { s with ram := p.setChksum (doChecksum b p) }

/-- The `sz` of `backtraceLog_clear`, in words. -/
def clearSize32 (p : Ram) : Nat :=
  (Ram.offPc - Ram.offCrashCount + 4 * p.max.toNat) % 2 ^ 32 / 4

/-- `backtraceLog_clear()` -/
def backtraceLogClear (b : Build) (s : Device) : Device :=
  if s.pBT = none then s
  else
    -- `chksum` is before the erased words and keeps its value, unless they
    -- are all but the whole memory and come round to it
    rtcSave b { s with
      ram := WordMem.blitRound s.ram (2 ^ 30) (Ram.offCrashCount / 4)
        (clearSize32 s.ram) fun _ => 0 }

/-! ## Readers -/

/-- `BacktraceLog::available()` -/
def available (s : Device) : Nat :=
  if s.pBT = none then 0 else s.ram.count.toNat

/-- What `BacktraceLog::read(p, sz)` stores at `p`; it returns the
length. -/
def read (s : Device) (sz : Nat) : List Word :=
  if s.pBT = none then []
  else
    let limit := if sz < s.ram.count.toNat then sz else s.ram.count.toNat
    (List.range limit).map s.ram.pc

/-- What `BacktraceLog::read(p)` copies to a `p` that is not NULL: the
whole struct, in words. -/
def readLog (b : Build) (s : Device) : List Word :=
  if s.pBT = none then [] else (List.range (13 + b.MAX)).map s.ram.word

/-! ## Resets and boots -/

/-- How a boot comes about. A warm reset keeps the RAM and has a reason the
SDK reports; out of deep sleep the RAM holds anything. -/
inductive Reset where
  | warm (reason : Word)
  | deepSleep (words : Nat → Word) (status : RtcStatus)

/-- The state a reset leaves to the next boot: `.data` is reloaded (`pBT`
is NULL again), RTC memory stays. -/
def reset (s : Device) : Reset → Device
  | .warm reason => { s with pBT := none, resetReason := reason }
  | .deepSleep words status =>
      { s with
        pBT := none
        ram := { s.ram with word := words }
        rtcStatus := status
        resetReason := 5 }

/-- A boot: the reset and the `set_pBT` of `preinit()`. -/
def reboot (b : Build) (s : Device) (r : Reset) : Device :=
  (setPBT b (reset s r)).1

/-- Power on: RAM and RTC hold anything, the reason is
`REASON_DEFAULT_RST`. -/
def powerOn (words rtc : Nat → Word) (status : RtcStatus) : Device :=
  { pBT := none
    ram := { word := words, storeEnd := 0 }
    rtc := rtc
    rtcStatus := status
    resetReason := 0 }

/-- The first boot after power on. -/
def firstBoot (b : Build) (words rtc : Nat → Word) (status : RtcStatus) :
    Device :=
  (setPBT b (powerOn words rtc status)).1

/-- A device about to boot, its RAM and RTC memory all zero. -/
def blank (reason : Word) : Device :=
  { powerOn (fun _ => 0) (fun _ => 0) ⟨0, 0⟩ with resetReason := reason }

/-- A log with one finished record of one address. -/
def oneRecord (b : Build) : Device :=
  backtraceLogFin b (backtraceLogWrite
    (backtraceLogBegin b (firstBoot b (fun _ => 0) (fun _ => 0) ⟨0, 0⟩) none)
    0x40201234)

end BacktraceLog
