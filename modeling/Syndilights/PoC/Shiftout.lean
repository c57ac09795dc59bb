import Syndilights.ShiftChain

/-!
# Displays on shift registers

`display4.ino` counts on four 7 segment displays, `shiftout2.ino` and `shiftout3.ino` light two
rows of LEDs. The sketches write to the pins; each has one 74HC595 for a display or a row.
-/

namespace Syndilights.PoC.Shiftout
open ShiftChain

/-- Pin connected to ST_CP of the 74HC595. -/
def latchPin : Line := .latch

/-- Pin connected to SH_CP. -/
def clockPin : Line := .clock

/-- Pin connected to DS. -/
def dataPin : Line := .data

/-- `digitalWrite`. -/
def digitalWrite (pin : Line) (value : ℕ) : List Write := [(pin, value ≠ 0)]

/-- `shiftOut`, the same in the three sketches: 8 bits, MSB first, on the rising edge. -/
def shiftOut (myDataPin myClockPin : Line) (myDataOut : UInt8) : List Write :=
  digitalWrite myDataPin 0 ++ digitalWrite myClockPin 0 ++
  [7, 6, 5, 4, 3, 2, 1, 0].flatMap (fun i =>
    let pinState := if myDataOut.toNat &&& 1 <<< i ≠ 0 then 1 else 0
    digitalWrite myClockPin 0 ++ digitalWrite myDataPin pinState ++ digitalWrite myClockPin 1 ++
      -- zero the data pin after shift to prevent bleed through
      digitalWrite myDataPin 0) ++
  digitalWrite myClockPin 0

/-! ## Four displays -/

namespace Display4

/-- `steve_converter`: the line of each segment. -/
def steve_converter (inval : UInt8) : UInt8 :=
  let outval : UInt8 := 0
  let outval := outval ||| (inval &&& 0x1) <<< 1
  let outval := outval ||| (inval &&& 0x2) <<< 1
  let outval := outval ||| (inval &&& 0x4) >>> 2
  let outval := outval ||| (inval &&& 0x8) <<< 2
  let outval := outval ||| (inval &&& 0x10) <<< 2
  let outval := outval ||| (inval &&& 0x20) >>> 2
  let outval := outval ||| (inval &&& 0x40) >>> 2
  outval ||| (inval &&& 0x80)

/-- The segments of the characters from the blank on. -/
def ascii2segments : List UInt8 :=
  [0x00, 0x80, 0x80, 0x80, 0x80, 0x80, 0x80, 0x02,
   0x80, 0x0f, 0x80, 0x80, 0x04, 0x40, 0x80, 0x80,
   0x3F, 0x06, 0x5B, 0x4F, 0x66, 0x6D, 0x7D, 0x07,
   0x7F, 0x6F, 0x80, 0x80, 0x80, 0x48, 0x80, 0x27,
   0x80, 0x77, 0x7c, 0x39, 0x5e, 0x79, 0x71, 0x3d,
   0x76, 0x30, 0x1E, 0x76, 0x38, 0x15, 0x37, 0x3f,
   0x73, 0x67, 0x31, 0x6d, 0x78, 0x3e, 0x1C, 0x2A,
   0x76, 0x6e, 0x5b, 0x39, 0x80, 0x0F, 0x80, 0x08,
   0x80, 0x5f, 0x7c, 0x58, 0x5e, 0x7b, 0x71, 0x6F,
   0x74, 0x30, 0x0E, 0x76, 0x06, 0x15, 0x54, 0x5c,
   0x73, 0x67, 0x50, 0x6d, 0x78, 0x1c, 0x1c, 0x2A,
   0x76, 0x6e, 0x5b, 0x39, 0x80, 0x0F, 0x80, 0x08]

/-- What `sprintf` writes for `%04d`, of a number that is not negative. -/
def sprintf (j : ℕ) : List Char :=
  List.replicate (4 - (Nat.toDigits 10 j).length) '0' ++ Nat.toDigits 10 j

/-- `ascii2segments[c-32]`. -/
def segments (c : Char) : Option UInt8 :=
  if 32 ≤ c.toNat then ascii2segments[c.toNat - 32]? else none

/-- One round of the loop in `loop`: the pins, unless the table is read outside. -/
def round (j : ℕ) : Option (List Write) := do
  -- send data, left char first
  let bytes ← (sprintf j).mapM fun c => (segments c).map steve_converter
  return digitalWrite latchPin 0 ++ bytes.flatMap (shiftOut dataPin clockPin) ++
    digitalWrite latchPin 1

/-- `loop`: count up. -/
def loop : Option (List Write) := do
  let rounds ← (List.range 9999).mapM round
  return rounds.flatten

end Display4

/-! ## Two rows of LEDs -/

/-- One change of the two rows. -/
def show₂ (first second : UInt8) : List Write :=
  digitalWrite latchPin 0 ++ shiftOut dataPin clockPin first ++
    shiftOut dataPin clockPin second ++ digitalWrite latchPin 1

/-- `blinkAll_2Bytes`, the same in both sketches. -/
def blinkAll_2Bytes (n : ℕ) : List Write :=
  show₂ 0 0 ++ (List.range n).flatMap fun _ => show₂ 255 255 ++ show₂ 0 0

namespace Shiftout2

/-- `lightShiftPinA` sends this byte. -/
def lightShiftPinA (p : ℕ) : UInt8 := UInt8.ofNat (1 <<< p)

/-- `lightShiftPinB` sends this one. -/
def lightShiftPinB (p : ℕ) : UInt8 := UInt8.ofNat ((List.range p).foldl (fun pin _ => pin * 2) 1)

/-- `loop`: the red LEDs are sent first, then the green ones. -/
def loop : List Write :=
  blinkAll_2Bytes 1 ++
  (List.range 8).flatMap (fun j => show₂ (lightShiftPinA (7 - j)) (lightShiftPinA j)) ++
  (List.range 8).flatMap fun j => show₂ (lightShiftPinB j) (lightShiftPinB (7 - j))

end Shiftout2

end Syndilights.PoC.Shiftout
