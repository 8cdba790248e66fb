import Zcu102.Boot.Crc16

/-!
# What the card has to answer

The language of the bytes received over a boot, stated without the loader: the
reply to a command, the handshake stage by stage, and the data blocks. A word
is what is received from the first byte of a stage to its last. `Accepted` and
`Rejected` are the two ways a stream can settle the boot; a stream may do
neither, when ACMD41 answers busy or a data token is awaited for ever.
-/

namespace Zcu102.Boot
set_option autoImplicit false
open Sim

/-- The bytes received over one command: seven while its dummy and frame are
sent, then the polled ones. The R1 is the first with bit 7 clear among at most
1000; there is none if all have it set. -/
inductive Reply : List Byte → Option Byte → Prop
  | answer {frame busy : List Byte} {r : Byte} : frame.length = 7 → busy.length < 1000 →
      (∀ b ∈ busy, b.msb = true) → r.msb = false → Reply (frame ++ (busy ++ [r])) (some r)
  | silent {frame busy : List Byte} : frame.length = 7 → busy.length = 1000 →
      (∀ b ∈ busy, b.msb = true) → Reply (frame ++ busy) none

/-- A command and the byte received while its trailing dummy is sent. -/
def Closed (w : List Byte) (a : Option Byte) : Prop := ∃ u x, w = u ++ [x] ∧ Reply u a

/-- CMD8: four trailing bytes, the third with the voltage and the fourth with
the check pattern. -/
def Cmd8 (w : List Byte) (a : Option Byte) (voltage pattern : Byte) : Prop :=
  ∃ u y z x, w = u ++ [y, z, voltage, pattern, x] ∧ Reply u a

/-- CMD58: the power-up status heads four trailing bytes. -/
def Cmd58 (w : List Byte) (a : Option Byte) (status : Byte) : Prop :=
  ∃ u x y z t, w = u ++ [status, x, y, z, t] ∧ Reply u a

/-- Rounds of CMD55 and ACMD41 up to the first ACMD41 answer that is not busy.
The reply to CMD55 does not matter. -/
inductive Acmd41 : List Byte → Option Byte → Prop
  | last {w₅₅ w₄₁ : List Byte} {c a : Option Byte} :
      Closed w₅₅ c → Reply w₄₁ a → a ≠ some 0x01 → Acmd41 (w₅₅ ++ w₄₁) a
  | again {w₅₅ w₄₁ w : List Byte} {c a : Option Byte} :
      Closed w₅₅ c → Reply w₄₁ (some 0x01) → Acmd41 w a → Acmd41 (w₅₅ ++ w₄₁ ++ w) a

/-- A data block: filler up to the first `0xFE`, 512 bytes, and a CRC sent high
byte first. -/
def Sector (w data : List Byte) (crc : BitVec 16) : Prop :=
  ∃ filler hi lo, w = filler ++ 0xFE :: (data ++ [hi, lo]) ∧ 0xFE ∉ filler ∧
    data.length = sectorSizeB ∧ crc = hi ++ lo

/-- Consecutive blocks, each followed by its own CRC16. -/
inductive Sectors : List Byte → List (List Byte) → Prop
  | nil : Sectors [] []
  | cons {w data w' : List Byte} {blocks : List (List Byte)} :
      Sector w data (crc16 data) → Sectors w' blocks → Sectors (w ++ w') (data :: blocks)

/-! ## The stages passed -/

def Passed0 (w : List Byte) : Prop := Closed w (some 0x01)

def Passed8 (w : List Byte) : Prop :=
  ∃ u v voltage pattern, w = u ++ v ∧ Passed0 u ∧ Cmd8 v (some 0x01) voltage pattern ∧
    voltage &&& 0xF = 0x1 ∧ pattern = 0xAA

def Passed41 (w : List Byte) : Prop := ∃ u v, w = u ++ v ∧ Passed8 u ∧ Acmd41 v (some 0x00)

def Passed58 (w : List Byte) : Prop :=
  ∃ u v status, w = u ++ v ∧ Passed41 u ∧ Cmd58 v (some 0x00) status ∧ status.msb = true

def Passed16 (w : List Byte) : Prop := ∃ u v, w = u ++ v ∧ Passed58 u ∧ Closed v (some 0x00)

def Passed18 (w : List Byte) : Prop := ∃ u v, w = u ++ v ∧ Passed16 u ∧ Reply v (some 0x00)

/-- The first failure of a boot. -/
inductive Failure : List Byte → Prop
  | cmd0 {w : List Byte} {a : Option Byte} : Closed w a → a ≠ some 0x01 → Failure w
  | cmd8 {u v : List Byte} {a : Option Byte} {voltage pattern : Byte} :
      Passed0 u → Cmd8 v a voltage pattern →
      ¬(a = some 0x01 ∧ voltage &&& 0xF = 0x1 ∧ pattern = 0xAA) → Failure (u ++ v)
  | acmd41 {u v : List Byte} {a : Option Byte} : Passed8 u → Acmd41 v a → a ≠ some 0x00 → Failure (u ++ v)
  | cmd58 {u v : List Byte} {a : Option Byte} {status : Byte} :
      Passed41 u → Cmd58 v a status → ¬(a = some 0x00 ∧ status.msb = true) → Failure (u ++ v)
  | cmd16 {u v : List Byte} {a : Option Byte} : Passed58 u → Closed v a → a ≠ some 0x00 → Failure (u ++ v)
  | cmd18 {u v : List Byte} {a : Option Byte} : Passed16 u → Reply v a → a ≠ some 0x00 → Failure (u ++ v)
  | sector {u v w data : List Byte} {blocks : List (List Byte)} {crc : BitVec 16} :
      Passed18 u → Sectors v blocks → blocks.length < payloadSize → Sector w data crc →
      crc ≠ crc16 data → Failure (u ++ v ++ w)

/-- Bytes received while the card is powered on, before the first command. -/
def powerOnBytes : ℕ := 10

/-- The stream passes the handshake and delivers `blocks`. -/
def Accepted (σ : ℕ → Byte) (blocks : List (List Byte)) : Prop :=
  blocks.length = payloadSize ∧
    ∃ n u v, received (after σ powerOnBytes) n = u ++ v ∧ Passed18 u ∧ Sectors v blocks

/-- The stream fails the handshake or a sector. -/
def Rejected (σ : ℕ → Byte) : Prop := ∃ n, Failure (received (after σ powerOnBytes) n)

/-! ## A card that boots

It answers every command at the first poll and delivers a payload of zeros. -/

/-- A reply at the first poll. -/
def promptReply (r : Byte) : List Byte := List.replicate 7 0 ++ ([] ++ [r])

theorem reply_prompt {r : Byte} (h : r.msb = false) : Reply (promptReply r) (some r) :=
  Reply.answer rfl (by decide) (fun _ => nofun) h

def blankBlock : List Byte := List.replicate sectorSizeB 0

def blankSector : List Byte := [] ++ 0xFE :: (blankBlock ++ [0, 0])

theorem crc16_blank (n : ℕ) : crc16 (List.replicate n 0) = 0 := by
  induction n with
  | zero => rfl
  | succ n ih =>
    have zero : crcByte 0 0 = 0 := by decide
    show (List.replicate n 0).foldl crcByte (crcByte 0 0) = 0
    rw [zero]
    exact ih

theorem sector_blank : Sector blankSector blankBlock (crc16 blankBlock) :=
  ⟨[], 0, 0, rfl, nofun, List.length_replicate, crc16_blank _⟩

theorem sectors_blank (n : ℕ) :
    Sectors (List.replicate n blankSector).flatten (List.replicate n blankBlock) := by
  induction n with
  | zero => exact Sectors.nil
  | succ n ih => exact Sectors.cons sector_blank ih

def blankCmd0 : List Byte := promptReply 0x01 ++ [0]
def blankCmd8 : List Byte := promptReply 0x01 ++ [0, 0, 0x01, 0xAA, 0]
def blankAcmd41 : List Byte := promptReply 0x00 ++ [0] ++ promptReply 0x00
def blankCmd58 : List Byte := promptReply 0x00 ++ [0x80, 0, 0, 0, 0]
def blankCmd16 : List Byte := promptReply 0x00 ++ [0]

theorem passed8_blank : Passed8 (blankCmd0 ++ blankCmd8) :=
  ⟨_, _, 0x01, 0xAA, rfl, ⟨_, 0, rfl, reply_prompt rfl⟩, ⟨_, 0, 0, 0, rfl, reply_prompt rfl⟩, rfl, rfl⟩

theorem passed41_blank : Passed41 (blankCmd0 ++ blankCmd8 ++ blankAcmd41) :=
  ⟨_, _, rfl, passed8_blank, Acmd41.last ⟨_, 0, rfl, reply_prompt rfl⟩ (reply_prompt rfl) (by decide)⟩

theorem passed16_blank : Passed16 (blankCmd0 ++ blankCmd8 ++ blankAcmd41 ++ blankCmd58 ++ blankCmd16) :=
  ⟨_, _, rfl, ⟨_, _, 0x80, rfl, passed41_blank, ⟨_, 0, 0, 0, 0, rfl, reply_prompt rfl⟩, rfl⟩, _, 0, rfl,
    reply_prompt rfl⟩

/-- The whole of the handshake, up to the answer to CMD18. -/
def blankHandshake : List Byte :=
  blankCmd0 ++ blankCmd8 ++ blankAcmd41 ++ blankCmd58 ++ blankCmd16 ++ promptReply 0x00

def blankPayload : List Byte := (List.replicate payloadSize blankSector).flatten

def blankCard : ℕ → Byte :=
  streamOf (List.replicate powerOnBytes 0 ++ (blankHandshake ++ blankPayload)) 0

theorem received_blank : blankHandshake ++ blankPayload =
    received (after blankCard powerOnBytes) (blankHandshake ++ blankPayload).length := by
  have split : received blankCard _ = List.replicate powerOnBytes 0 ++ (blankHandshake ++ blankPayload) :=
    received_streamOf _ 0
  have rest := (received_split split).2
  rwa [List.length_replicate] at rest

theorem accepted_blank : Accepted blankCard (List.replicate payloadSize blankBlock) := by
  refine ⟨List.length_replicate, _, blankHandshake, blankPayload, received_blank.symm, ?_, sectors_blank payloadSize⟩
  exact ⟨_, _, rfl, passed16_blank, reply_prompt rfl⟩

theorem passed8_blankCard : ∃ n, Passed8 (received (after blankCard powerOnBytes) n) := by
  have split := received_blank.symm
  rw [show blankHandshake ++ blankPayload = (blankCmd0 ++ blankCmd8) ++ (blankAcmd41 ++ blankCmd58 ++ blankCmd16 ++
    promptReply 0x00 ++ blankPayload) by simp only [blankHandshake, List.append_assoc]] at split
  exact ⟨_, (received_split split).1 ▸ passed8_blank⟩

end Zcu102.Boot
