import Mathlib.Tactic

/-!
# The LED controller

`loop` of `VideoDisplayTeensy31.ino`, one byte from the serial port at a time.
`readBytesUntil` stores bytes until it has read the terminator, or stored as many as it
may, or waited for a byte for too long.
-/

namespace Syndilights.V2

/-- Where the program is when it waits for a byte. -/
inductive Mode
  /-- `Serial.read()` in `loop`. -/
  | loop
  /-- `readBytesUntil`, after this many bytes have been stored. -/
  | reading (count : ℕ)
  /-- `WRITE_RESTART` was executed. -/
  | restarted
deriving DecidableEq

/-- The controller. `shows` is the content of the drawing memory at each `leds.show()` of
`loop`, in order. -/
structure Teensy where
  ledsPerStrip : ℕ
  drawingMemory : ℕ → UInt8
  mode : Mode
  shows : List (ℕ → UInt8)

namespace Teensy

/-- The length that `loop` gives to `readBytesUntil`, `sizeof(int) * ledsPerStrip*6 + 1`. It is a
`size_t`, which does not wrap for a strip whose memory the board has (below 4 GiB). -/
def readLength (t : Teensy) : ℕ := 4 * t.ledsPerStrip * 6 + 1

/-- `readBytesUntil` returns, and `leds.show()` is called. -/
def show_leds (t : Teensy) : Teensy :=
  { t with mode := .loop, shows := t.shows ++ [t.drawingMemory] }

/-- The controller after one byte. -/
def byte (t : Teensy) (b : UInt8) : Teensy :=
  match t.mode with
  | .loop =>
    if b = 42 then { t with mode := .reading 0 }
    else if b = 33 then { t with mode := .restarted }
    -- discard unknown characters
    else t
  | .reading count =>
    if b = 35 then t.show_leds
    else
      let t := { t with
        drawingMemory := Function.update t.drawingMemory count b
        mode := .reading (count + 1) }
      if count + 1 < t.readLength then t else t.show_leds
  | .restarted => t

/-- The index at which `readBytesUntil` stores the byte, if it does. -/
def storeIndex (t : Teensy) (b : UInt8) : Option ℕ :=
  match t.mode with
  | .reading count => if b = 35 then none else some count
  | _ => none

/-- No byte arrives for 50 ms: `readBytesUntil` gives up. -/
def timeout (t : Teensy) : Teensy :=
  match t.mode with
  | .reading _ => t.show_leds
  | _ => t

/-- What happens on the serial port. -/
inductive Arrival
  | byte (b : UInt8)
  | stall
deriving DecidableEq

/-- The controller after one arrival. -/
def arrive (t : Teensy) : Arrival → Teensy
  | .byte b => t.byte b
  | .stall => t.timeout

/-- The controller after a sequence of arrivals. -/
def arrivals (t : Teensy) (as : List Arrival) : Teensy := as.foldl arrive t

end Teensy

end Syndilights.V2
