import Zcu102.Sim.Stream
import Zcu102.Boot.Kprintf

/-!
# The SD loader of the boot ROM (`sd.c`)

Each function of `sd.c` is a program over the bytes the card returns on SPI.
Its log holds every store to memory and to a device register in program order,
every byte popped from the receive FIFO, and every character sent to the
console; memory and the chip-select mode are read off the log. `spi_xfer` polls
the receive FIFO until a byte is there, so a transfer is one store and one
received byte. The stack of `main` is not modelled. `fClk` is `F_CLK`, which
the Makefile sets.
-/

namespace Zcu102.Boot
set_option autoImplicit false
open Sim Sim.Prog

abbrev Byte := BitVec 8

/-! ## Addresses and constants of `platform.h`, `spi.h`, `uart.h`, `common.h` -/

def spiCtrlAddr : ℕ := 0x64001000
def uartCtrlAddr : ℕ := 0x64000000
def memoryMemAddr : ℕ := 0x80000000
def payloadDest : ℕ := memoryMemAddr

def spiRegSckdiv : ℕ := 0x00
def spiRegCsmode : ℕ := 0x18
def spiRegTxfifo : ℕ := 0x48
def uartRegTxctrl : ℕ := 0x08
def uartRegTxfifo : ℕ := 0x00

def spiCsmodeAuto : BitVec 32 := 0
def spiCsmodeHold : BitVec 32 := 2
def spiCsmodeOff : BitVec 32 := 3
def uartTxen : BitVec 32 := 1

def payloadSizeB : ℕ := 128 <<< 20
def sectorSizeB : ℕ := 512
def payloadSize : ℕ := payloadSizeB / sectorSizeB
def bblPartitionStartSector : BitVec 32 := 34

/-- `REG32(p, i)`: the word at index `i >> 2` of `p`. -/
def reg32 (p i : ℕ) : ℕ := p + 4 * (i >>> 2)

/-! ## Effects -/

/-- An effect of the loader outside its stack. -/
inductive Event where
  | store32 (addr : ℕ) (v : BitVec 32)
  | store8 (addr : ℕ) (v : Byte)
  | rx (b : Byte)
  | putc (c : Char)
  | fenceI
  deriving DecidableEq, Repr

/-- A program of the loader. -/
abbrev Sd := Prog Byte Event

def storeReg32 (p i : ℕ) (v : BitVec 32) : Sd Unit := emit (.store32 (reg32 p i) v)

def kputc (c : Char) : Sd Unit := emit (.putc c)

def putChars : List Char → Sd Unit
  | [] => pure ()
  | c :: cs => do kputc c; putChars cs

def kputs (s : String) : Sd Unit := putChars (kputsChars s)

def kprintf (fmt : String) (vl : List VaArg) : Sd Unit := putChars (kprintfChars fmt vl)

/-- `dputs` with `DEBUG` defined. -/
def dputs (s : String) : Sd Unit := kputs s

/-- A C comparison as an `int`. -/
def cInt (b : Bool) : BitVec 32 := if b then 1 else 0

/-! ## Transfers and commands -/

def spiXfer (d : Byte) : Sd Byte := do
  storeReg32 spiCtrlAddr spiRegTxfifo (d.setWidth 32)
  read Event.rx

def sdDummy : Sd Byte := spiXfer 0xFF

/-- The poll of `sd_cmd`, with `n` polls left after this one. -/
def sdPoll : ℕ → Sd Byte
  | 0 => do
    let r ← sdDummy
    if r &&& 0x80 = 0 then pure r
    else do
      kputs "sd_cmd: timeout"
      pure r
  | n + 1 => do
    let r ← sdDummy
    if r &&& 0x80 = 0 then pure r else sdPoll n

/-- The leading dummy and the six bytes of a command frame. -/
def sdSend (cmd : Byte) (arg : BitVec 32) (crc : Byte) : Sd Unit := do
  let _ ← sdDummy
  let _ ← spiXfer cmd
  let _ ← spiXfer ((arg >>> 24).setWidth 8)
  let _ ← spiXfer ((arg >>> 16).setWidth 8)
  let _ ← spiXfer ((arg >>> 8).setWidth 8)
  let _ ← spiXfer (arg.setWidth 8)
  let _ ← spiXfer crc
  pure ()

/-- The select and the frame. -/
def sdFrame (cmd : Byte) (arg : BitVec 32) (crc : Byte) : Sd Unit := do
  storeReg32 spiCtrlAddr spiRegCsmode spiCsmodeHold
  sdSend cmd arg crc

def sdCmd (cmd : Byte) (arg : BitVec 32) (crc : Byte) : Sd Byte := do
  sdFrame cmd arg crc
  sdPoll 999

def sdCmdEnd : Sd Unit := do
  let _ ← sdDummy
  storeReg32 spiCtrlAddr spiRegCsmode spiCsmodeAuto

def sdDummies : ℕ → Sd Unit
  | 0 => pure ()
  | i + 1 => do
    let _ ← sdDummy
    sdDummies i

def sdPoweron (fClk : ℕ) : Sd Unit := do
  storeReg32 spiCtrlAddr spiRegSckdiv (BitVec.ofNat 32 (fClk / 300000))
  storeReg32 spiCtrlAddr spiRegCsmode spiCsmodeOff
  sdDummies 10
  storeReg32 spiCtrlAddr spiRegCsmode spiCsmodeAuto

def sdCmd0 : Sd (BitVec 32) := do
  dputs "CMD0"
  let r ← sdCmd 0x40 0 0x95
  sdCmdEnd
  pure (cInt (r != 0x01))

def sdCmd8 : Sd (BitVec 32) := do
  dputs "CMD8"
  let r ← sdCmd 0x48 0x000001AA 0x87
  let _ ← sdDummy -- command version; reserved
  let _ ← sdDummy -- reserved
  let voltage ← sdDummy
  let pattern ← sdDummy
  sdCmdEnd
  pure (cInt (r != 0x01) ||| cInt (voltage &&& 0xF != 0x1) ||| cInt (pattern != 0xAA))

def sdCmd55 : Sd Unit := do
  let _ ← sdCmd 0x77 0 0x65
  sdCmdEnd

/-- One round of the ACMD41 loop. -/
def sdAcmd41Round : Sd Byte := do
  sdCmd55
  sdCmd 0x69 0x40000000 0x77 -- HCS = 1

theorem productive_spiXfer (d : Byte) : Productive (spiXfer d) :=
  Productive.bind_right _ fun _ => productive_read _

theorem productive_sdCmd (cmd : Byte) (arg : BitVec 32) (crc : Byte) : Productive (sdCmd cmd arg crc) :=
  Productive.bind_left (Productive.bind_right _ fun _ => (productive_spiXfer _).bind_left _) _

theorem productive_sdAcmd41Round : Productive sdAcmd41Round :=
  Productive.bind_right _ fun _ => productive_sdCmd _ _ _

def sdAcmd41 : Sd (BitVec 32) := do
  dputs "ACMD41"
  let r ← doWhile sdAcmd41Round productive_sdAcmd41Round (fun r => r == 0x01)
  pure (cInt (r != 0x00))

def sdCmd58 : Sd (BitVec 32) := do
  dputs "CMD58"
  let r ← sdCmd 0x7A 0 0xFD
  let status ← sdDummy -- Power up status
  let _ ← sdDummy
  let _ ← sdDummy
  let _ ← sdDummy
  sdCmdEnd
  pure (cInt (r != 0x00) ||| cInt (status &&& 0x80 != 0x80))

def sdCmd16 : Sd (BitVec 32) := do
  dputs "CMD16"
  let r ← sdCmd 0x50 0x200 0x15
  sdCmdEnd
  pure (cInt (r != 0x00))

/-! ## The payload -/

/-- One byte of the CRC. The operands are promoted to `int`; each assignment
truncates to `uint16_t`. -/
def crc16Round (crc : BitVec 16) (data : Byte) : BitVec 16 :=
  let crc := (((crc.setWidth 32 >>> 8).setWidth 8).setWidth 32 ||| (crc.setWidth 32 <<< 8)).setWidth 16
  let crc := crc ^^^ (data.setWidth 32).setWidth 16
  let crc := crc ^^^ (((crc.setWidth 32 >>> 4).setWidth 8).setWidth 32 &&& 0xf).setWidth 16
  let crc := crc ^^^ (crc.setWidth 32 <<< 12).setWidth 16
  crc ^^^ ((crc.setWidth 32 &&& 0xff) <<< 5).setWidth 16

def spinUpdate (i : ℕ) : Bool := i &&& ((1 <<< 6) - 1) == 0

def spinner (i : ℕ) : Char := ['-', '/', '|', '\\'].getD ((i >>> 6) &&& 0x3) '-'

/-- The spinner, turned on every 64th sector. -/
def spin (i : ℕ) : Sd Unit :=
  if spinUpdate i then do
    kputc '\x08'
    kputc (spinner i)
  else pure ()

/-- `while (sd_dummy() != 0xFE);` -/
def waitToken : Sd Byte := doWhile sdDummy (productive_spiXfer 0xFF) (fun b => b != 0xFE)

/-- `n` rounds of the inner loop: store a byte at `p`, advance, fold the CRC. -/
def copyBytes : ℕ → ℕ → BitVec 16 → Sd (ℕ × BitVec 16)
  | 0, p, crc => pure (p, crc)
  | n + 1, p, crc => do
    let x ← sdDummy
    emit (.store8 p x)
    copyBytes n (p + 1) (crc16Round crc x)

/-- The body of one sector: token, data at `p`, CRC; `p` after it and whether
the CRC differs. -/
def copySector (p : ℕ) : Sd (ℕ × Bool) := do
  let _ ← waitToken
  let (p', crc) ← copyBytes sectorSizeB p 0
  let hi ← sdDummy
  let lo ← sdDummy
  let crcExp : BitVec 16 := (hi.setWidth 16 <<< 8) ||| lo.setWidth 16
  pure (p', crc != crcExp)

/-- The sector loop with `i` sectors left; its `rc`. -/
def copySectors : ℕ → ℕ → Sd (BitVec 32)
  | 0, _ => pure 0
  | i + 1, p => do
    let (p', mismatch) ← copySector p
    if mismatch then do
      kputs "\x08- CRC mismatch "
      pure 1
    else do
      spin (i + 1)
      copySectors i p'

/-- The console lines and the clock rate `copy` starts with. -/
def copyStart (fClk : ℕ) : Sd Unit := do
  dputs "CMD18"
  kprintf "LOADING 0x%xB PAYLOAD\r\n" [.uint (BitVec.ofNat 32 payloadSizeB)]
  kprintf "LOADING  " []
  storeReg32 spiCtrlAddr spiRegSckdiv (BitVec.ofNat 32 (fClk / 5000000))

def copy (fClk : ℕ) : Sd (BitVec 32) := do
  copyStart fClk
  let r ← sdCmd 0x52 bblPartitionStartSector 0xE1
  if r ≠ 0x00 then do
    sdCmdEnd
    pure 1
  else do
    let rc ← copySectors payloadSize payloadDest
    sdCmdEnd
    let _ ← sdCmd 0x4C 0 0x01
    sdCmdEnd
    kputs "\x08 "
    pure rc

/-! ## `main` -/

/-- C's `a || b` on `int`s. -/
def cOr (a b : Sd (BitVec 32)) : Sd (BitVec 32) := do
  let x ← a
  if x ≠ 0 then pure 1
  else do
    let y ← b
    pure (cInt (y != 0))

/-- The commands before the copy, stopping at a failure. -/
def handshake : Sd (BitVec 32) := cOr (cOr (cOr (cOr sdCmd0 sdCmd8) sdAcmd41) sdCmd58) sdCmd16

/-- The condition of `main`. -/
def bootCondition (fClk : ℕ) : Sd (BitVec 32) := cOr handshake (copy fClk)

/-- `main` up to the first command. -/
def mainStart (fClk : ℕ) : Sd Unit := do
  storeReg32 uartCtrlAddr uartRegTxctrl uartTxen
  kputs "INIT"
  sdPoweron fClk

def main (fClk : ℕ) : Sd (BitVec 32) := do
  mainStart fClk
  let failed ← bootCondition fClk
  if failed ≠ 0 then do
    kputs "ERROR"
    pure 1
  else do
    kputs "BOOT"
    emit .fenceI
    pure 0

end Zcu102.Boot
