import Syndilights.V2.OlderEncoders
import Syndilights.V2.Receiver

/-!
# The frame sync delay

The header of a frame: `prepare_data` of `PixelControl.pyde` and `draw` of `pic2serialpy.pyde`
write it, `loop` of `VideoDisplay.ino` reads it. Quotients of floating point numbers are exact
here.
-/

namespace Syndilights.V2

/-! ## The sender -/

/-- `int(…)` of a number with a fraction, towards zero. -/
def int (q : ℚ) : ℤ := if q < 0 then ⌈q⌉ else ⌊q⌋

/-- `int((1000000.0 / framerate) * 0.75)`. -/
def usec (framerate : ℚ) : ℤ := int (1000000 / framerate * (3 / 4))

/-- `data[offset] = value` for a `jarray` of signed bytes, which takes no other value. -/
def store (data : List Int8) (offset : ℕ) (value : ℤ) : Option (List Int8) :=
  if offset < data.length ∧ -128 ≤ value ∧ value ≤ 127 then
    some (data.set offset (Int8.ofInt value))
  else none

/-- The header, as both sketches write it. -/
def header (framerate : ℚ) (data : List Int8) : Option (List Int8) := do
  let data ← store data 0 42
  if framerate = 0 then none
  let data ← store data 1 (usec framerate % 256 - 2 ^ 8)
  store data 2 (usec framerate >>> (8 : ℕ))

/-- `prepare_data` of `PixelControl.pyde`. -/
def PixelControl.prepare_data (framerate : ℚ) (dimension : ℕ) : Option (List Int8) :=
  header framerate (List.replicate (dimension * 24 + 3) 0)

/-- `draw` of `pic2serialpy.pyde`, behind `image2data`. -/
def Pic2serialpy.draw (data : List Int8) : Option (List Int8) := header 30 data

/-! ## The controller -/

namespace VideoDisplay

/-- What one iteration of `loop` does. -/
inductive Command
  /-- `*`: the frame is shown, and a sync sent, so long after the first byte. -/
  | master (usecUntilFrameSync : ℕ) (drawingMemory : List UInt8)
  /-- `$`: so long after the last sync. -/
  | paced (usecUntilFrameSync : ℕ) (drawingMemory : List UInt8)
  /-- `%`: the frame is shown with the sync of another board. -/
  | slave (drawingMemory : List UInt8)
  /-- `@`: the elapsed time is reset. -/
  | reset
  /-- `?`: the parameters are printed. -/
  | query
  /-- Nothing was read, or an unknown character, or a frame that is cut. -/
  | nothing
deriving DecidableEq

/-- The two calls of `readBytes` for a frame: the number, of which a little-endian board fills
the lower half, and the drawing memory. `serial` is what arrives in time. -/
def readFrame (sizeof : ℕ) (serial : List UInt8) : Option (ℕ × List UInt8) × List UInt8 :=
  let field := serial.take 2
  if field.length ≠ 2 then (none, serial.drop 2)
  else
    let image := (serial.drop 2).take sizeof
    (if image.length ≥ sizeof then some (from_bytes field, image) else none,
      (serial.drop 2).drop sizeof)

/-- `loop`, with a drawing memory of so many bytes. -/
def loop (sizeof : ℕ) : List UInt8 → Command × List UInt8
  | [] => (.nothing, [])
  | startChar :: serial =>
    let (frame, rest) := readFrame sizeof serial
    if startChar = 42 then
      (frame.elim .nothing fun (usec, memory) => .master usec memory, rest)
    else if startChar = 36 then
      (frame.elim .nothing fun (usec, memory) => .paced usec memory, rest)
    else if startChar = 37 then (frame.elim .nothing fun (_, memory) => .slave memory, rest)
    else if startChar = 64 then (.reset, serial)
    else if startChar = 63 then (.query, serial)
    else (.nothing, serial)

end VideoDisplay

end Syndilights.V2
