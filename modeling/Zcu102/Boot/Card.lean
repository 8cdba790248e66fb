import Zcu102.Boot.CrcPoly
import Zcu102.Boot.Verdict

/-!
# The card's side

What a healthy card sends over a boot, as a function of an image and of its timing: how
long it lets each command wait, how often it is busy, what it fills the pauses with.
The CRC of a sector is taken from its definition, as the remainder of a polynomial.
The loader undoes the card: it boots with the image in memory, whatever the timing.
-/

namespace Zcu102.Boot
set_option autoImplicit false
open Sim Sim.Prog Polynomial

/-! ## The CRC by its definition -/

theorem existsUnique_crc (data : List Byte) : ∃! crc : BitVec 16,
    poly crc = (ofBits (messageBits data) * X ^ 16) %ₘ (X ^ 16 + X ^ 12 + X ^ 5 + 1) :=
  ⟨crc16 data, poly_crc16 data, fun _ same => poly_inj (same.trans (poly_crc16 data).symm)⟩

/-- The CRC whose bits are the coefficients of the remainder. -/
noncomputable def polyCrc (data : List Byte) : BitVec 16 := (existsUnique_crc data).choose

theorem polyCrc_eq (data : List Byte) : polyCrc data = crc16 data :=
  (existsUnique_crc data).unique (existsUnique_crc data).choose_spec.1 (poly_crc16 data)

/-! ## Images -/

/-- What is to be loaded. -/
structure Image where
  sectors : List (List Byte)
  whole : sectors.length = payloadSize
  sized : ∀ data ∈ sectors, data.length = sectorSizeB

instance : Inhabited Image where
  default := ⟨List.replicate payloadSize blankBlock, List.length_replicate, fun data mem => by
    rw [List.eq_of_mem_replicate mem]
    exact List.length_replicate⟩

/-! ## Timing -/

/-- How the card lets a command wait: what it sends during the frame, and polled bytes before the R1. -/
structure Delay where
  frame : List Byte
  busy : List Byte
  seven : frame.length = 7
  patient : busy.length < 1000
  high : ∀ b ∈ busy, b.msb = true

/-- No delay. -/
instance : Inhabited Delay where
  default := ⟨List.replicate 7 0, [], List.length_replicate, by decide, fun b mem => absurd mem List.not_mem_nil⟩

/-- The answer `r1`, after a delay. -/
def Delay.answer (delay : Delay) (r1 : Byte) : List Byte := delay.frame ++ (delay.busy ++ [r1])

/-- A round of CMD55, whose R1 is not looked at, and ACMD41. -/
structure Round where
  cmd55 : Delay
  r1 : Byte
  isR1 : r1.msb = false
  dummy : Byte
  cmd41 : Delay

instance : Inhabited Round where
  default := ⟨default, 0, rfl, 0, default⟩

def Round.answer (round : Round) (r1 : Byte) : List Byte :=
  (round.cmd55.answer round.r1 ++ [round.dummy]) ++ round.cmd41.answer r1

/-- The timing of a whole boot, with every byte the loader does not look at. -/
structure Card where
  powerOn : List Byte
  ten : powerOn.length = powerOnBytes
  cmd0 : Delay
  dummy0 : Byte
  cmd8 : Delay
  version : Byte
  reserved : Byte
  voltage : Byte
  accepted : voltage &&& 0xF = 0x1
  dummy8 : Byte
  busy : List Round
  ready : Round
  cmd58 : Delay
  status : Byte
  poweredUp : status.msb = true
  ocr : Byte × Byte × Byte
  dummy58 : Byte
  cmd16 : Delay
  dummy16 : Byte
  cmd18 : Delay
  filler : ℕ → List Byte
  untokened : ∀ k, 0xFE ∉ filler k
  /-- What comes after the last sector. -/
  rest : ℕ → Byte

instance : Inhabited Card where
  default := {
    powerOn := List.replicate powerOnBytes 0, ten := List.length_replicate
    cmd0 := default, dummy0 := 0
    cmd8 := default, version := 0, reserved := 0, voltage := 1, accepted := rfl, dummy8 := 0
    busy := [], ready := default
    cmd58 := default, status := 0x80, poweredUp := rfl, ocr := (0, 0, 0), dummy58 := 0
    cmd16 := default, dummy16 := 0
    cmd18 := default
    filler := fun _ => [], untokened := fun _ => List.not_mem_nil, rest := fun _ => 0 }

namespace Card

/-! ## The stream -/

def handshake (card : Card) : List Byte :=
  (card.cmd0.answer 0x01 ++ [card.dummy0]) ++
  (card.cmd8.answer 0x01 ++ [card.version, card.reserved, card.voltage, 0xAA, card.dummy8]) ++
  (card.busy.flatMap (Round.answer · 0x01) ++ card.ready.answer 0x00) ++
  (card.cmd58.answer 0x00 ++ [card.status, card.ocr.1, card.ocr.2.1, card.ocr.2.2, card.dummy58]) ++
  (card.cmd16.answer 0x00 ++ [card.dummy16]) ++ card.cmd18.answer 0x00

/-- The sectors from the `k`-th on: filler, token, data, CRC high byte first. -/
noncomputable def payload (card : Card) : ℕ → List (List Byte) → List Byte
  | _, [] => []
  | k, data :: sectors =>
    (card.filler k ++ 0xFE :: (data ++ [highByte (polyCrc data), lowByte (polyCrc data)])) ++
      payload card (k + 1) sectors

noncomputable def stream (card : Card) (image : Image) : ℕ → Byte :=
  follow (card.powerOn ++ (card.handshake ++ card.payload 0 image.sectors)) card.rest

end Card

/-! ## What it makes of the protocol -/

theorem Delay.reply (delay : Delay) {r1 : Byte} (isR1 : r1.msb = false) : Reply (delay.answer r1) (some r1) :=
  Reply.answer delay.seven delay.patient delay.high isR1

theorem Round.closed (round : Round) : Closed (round.cmd55.answer round.r1 ++ [round.dummy]) (some round.r1) :=
  ⟨_, round.dummy, rfl, round.cmd55.reply round.isR1⟩

theorem acmd41_rounds (busy : List Round) (ready : Round) :
    Acmd41 (busy.flatMap (Round.answer · 0x01) ++ ready.answer 0x00) (some 0x00) := by
  induction busy with
  | nil =>
    rw [List.flatMap_nil, List.nil_append]
    exact Acmd41.last ready.closed (ready.cmd41.reply rfl) (by decide)
  | cons round busy ih =>
    rw [List.flatMap_cons, List.append_assoc]
    exact Acmd41.again round.closed (round.cmd41.reply rfl) ih

theorem Card.passed (card : Card) : Passed18 card.handshake := by
  have passed8 : Passed8 _ := ⟨_, _, card.voltage, 0xAA, rfl, ⟨_, card.dummy0, rfl, card.cmd0.reply rfl⟩,
    ⟨_, card.version, card.reserved, card.dummy8, rfl, card.cmd8.reply rfl⟩, card.accepted, rfl⟩
  have passed41 : Passed41 _ := ⟨_, _, rfl, passed8, acmd41_rounds card.busy card.ready⟩
  have passed58 : Passed58 _ := ⟨_, _, card.status, rfl, passed41,
    ⟨_, card.ocr.1, card.ocr.2.1, card.ocr.2.2, card.dummy58, rfl, card.cmd58.reply rfl⟩, card.poweredUp⟩
  have passed16 : Passed16 _ := ⟨_, _, rfl, passed58, _, card.dummy16, rfl, card.cmd16.reply rfl⟩
  exact ⟨_, _, rfl, passed16, card.cmd18.reply rfl⟩

theorem Card.sectors (card : Card) (k : ℕ) {blocks : List (List Byte)}
    (sized : ∀ data ∈ blocks, data.length = sectorSizeB) : Sectors (card.payload k blocks) blocks := by
  induction blocks generalizing k with
  | nil => exact Sectors.nil
  | cons data blocks ih =>
    obtain ⟨size, rest⟩ := List.forall_mem_cons.mp sized
    have sector : Sector _ data (crc16 data) :=
      ⟨card.filler k, _, _, rfl, card.untokened k, size, (high_low (crc16 data)).symm⟩
    rw [payload, polyCrc_eq]
    exact Sectors.cons sector (ih (k + 1) rest)

theorem Card.accepted_stream (card : Card) (image : Image) : Accepted (card.stream image) image.sectors := by
  have all := received_follow (card.powerOn ++ (card.handshake ++ card.payload 0 image.sectors)) card.rest
  have later := (received_split all).2
  rw [card.ten] at later
  exact ⟨image.whole, _, _, _, later.symm, card.passed, card.sectors 0 image.sized⟩

/-- **The loader inverts the card**: with any timing it boots, and memory holds the image. -/
theorem loader_inverts (fClk : ℕ) (card : Card) (image : Image) :
    ∃ l, Returns (main fClk) (card.stream image) 0 l ∧ image.sectors.flatten.length = payloadSizeB ∧
      ∀ mem i, i < payloadSizeB → some (memAfter mem l (payloadDest + i)) = image.sectors.flatten[i]? := by
  have accepted := card.accepted_stream image
  have length := accepted.flatten_length
  obtain ⟨l, returned⟩ := accepted.answers fClk
  refine ⟨l, returned, length, fun mem i inside => ?_⟩
  obtain ⟨-, blocks, accepted', stored⟩ | ⟨one, -⟩ := returns_main returned
  · rw [accepted'.unique accepted] at stored
    rw [memAfter_storesAt mem stored (length ▸ inside), List.getElem?_eq_getElem]
  · cases one

end Zcu102.Boot
