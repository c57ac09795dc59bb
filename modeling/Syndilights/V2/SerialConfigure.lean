import Syndilights.V2.Pipeline

/-!
# Configuring the controller

`reboot` and `serialConfigure` of `forward.py`, for the device `auto`, against `setup` and `loop`
of `VideoDisplayTeensy31.ino`. The two serial lines keep the order of the bytes. A restart takes
the port away from the host until the board is on the bus again.
-/

namespace Syndilights.V2

namespace SerialConfigure

/-! ## The constants of `forward.py` -/

def max_height : ℕ := 25

def max_width : ℕ := 20

/-- What `serialConfigure` writes. -/
def ledsPerStrip : ℕ := max_height * max_width

/-- What `reboot` writes: `ord('!').to_bytes(4, byteorder='little')`. -/
def rebootCommand : List UInt8 := pack 33

/-! ## The two programs -/

/-- Where the host is. -/
inductive Host
  /-- `serialConfigure` has been called. -/
  | start
  /-- `time.sleep(3)`, at the end of `reboot`. -/
  | sleeping
  /-- After `reboot`. -/
  | awake
  /-- After `ser.open()`. -/
  | opened
  /-- `ser.read(4)`. -/
  | waiting
  /-- The open port was returned. -/
  | returned
  /-- `None` was returned, or an exception was raised. -/
  | failed
deriving DecidableEq

/-- Where the board is. -/
inductive Board
  /-- After `WRITE_RESTART`, until `setup` begins. -/
  | booting
  /-- `Serial.readBytes` in `setup`, with these bytes so far. -/
  | setup (received : List UInt8)
  /-- `loop`. -/
  | running (teensy : Teensy)

/-- The host, the board, and the serial lines between them. -/
structure Rig where
  host : Host
  board : Board
  toBoard : List UInt8
  toHost : List UInt8

namespace Rig

/-- `serialConfigure` is called while the board does anything at all. -/
def start (board : Board) (toBoard toHost : List UInt8) : Rig := ⟨.start, board, toBoard, toHost⟩

/-- The rest of `setup` after `readBytes`: the length is echoed, and the strips are attached. The
global is zero where nothing was received. -/
def attach (r : Rig) (received : List UInt8) (memory : ℕ → UInt8) : Rig :=
  { r with
    board := .running ⟨from_bytes received, memory, .loop, []⟩
    toHost := r.toHost ++ pack (from_bytes received) }

/-- `WRITE_RESTART`: what is on the lines is lost, and an open port raises when it is used. -/
def restart (r : Rig) : Rig where
  host := if r.host = .opened ∨ r.host = .waiting then .failed else r.host
  board := .booting
  toBoard := []
  toHost := []

/-- The board reads a byte. The memory is what `new` finds if this ends `setup`. -/
def receive (r : Rig) (b : UInt8) (memory : ℕ → UInt8) : Rig :=
  match r.board with
  | .booting => r
  | .setup received =>
    if received.length + 1 < 4 then { r with board := .setup (received ++ [b]) }
    else r.attach (received ++ [b]) memory
  | .running teensy =>
    if (teensy.byte b).mode = .restarted then r.restart
    else { r with board := .running (teensy.byte b) }

end Rig

/-! ## The transition system -/

/-- One operation of the host or the board. -/
inductive Action
  /-- `reboot` opens the port, writes the command and closes the port. -/
  | reboot
  /-- The three seconds are over. -/
  | wake
  /-- `ser.open()`, which discards what has arrived. -/
  | open (arrived : ℕ)
  /-- The port cannot be found or opened. -/
  | openFails
  /-- `ser.write(ledsPerStrip.to_bytes(4, byteorder='little'))`. -/
  | write
  /-- `ser.read(4)` returns four bytes. -/
  | read
  /-- Fewer than four bytes have arrived within five seconds: `ser.read(4)` returns them. -/
  | readTimeout
  /-- The board is on the bus, and `setup` begins. -/
  | boot
  /-- The next byte is read by the board. -/
  | receive (memory : ℕ → UInt8)
  /-- No byte for five seconds: `readBytes` in `setup` gives up. -/
  | setupTimeout (memory : ℕ → UInt8)
  /-- No byte for 50 milliseconds: `readBytesUntil` in `loop` gives up. -/
  | loopTimeout

namespace Rig

/-- The port of the board is there. -/
def onBus (r : Rig) : Bool :=
  match r.board with
  | .booting => false
  | _ => true

/-- The state after an operation, if it is its turn. -/
def step (r : Rig) : Action → Option Rig
  | .reboot =>
    if r.host = .start ∧ r.onBus then
      some { r with host := .sleeping, toBoard := r.toBoard ++ rebootCommand }
    else none
  | .wake => if r.host = .sleeping then some { r with host := .awake } else none
  | .open arrived =>
    if r.host = .awake ∧ r.onBus then
      some { r with host := .opened, toHost := r.toHost.drop arrived }
    else none
  | .openFails => if r.host = .awake then some { r with host := .failed } else none
  | .write =>
    if r.host = .opened then
      some { r with host := .waiting, toBoard := r.toBoard ++ pack ledsPerStrip }
    else none
  | .read =>
    -- the four bytes are printed, not compared
    if r.host = .waiting ∧ 4 ≤ r.toHost.length then
      some { r with host := .returned, toHost := r.toHost.drop 4 }
    else none
  | .readTimeout => if r.host = .waiting then some { r with host := .returned } else none
  | .boot =>
    match r.board with
    | .booting => some { r with board := .setup [] }
    | _ => none
  | .receive memory =>
    match r.toBoard with
    | b :: bytes =>
      if r.onBus then some (Rig.receive { r with toBoard := bytes } b memory) else none
    | [] => none
  | .setupTimeout memory =>
    match r.board with
    | .setup received => some (r.attach received memory)
    | _ => none
  | .loopTimeout =>
    match r.board with
    | .running teensy => some { r with board := .running teensy.timeout }
    | _ => none

end Rig

end SerialConfigure

end Syndilights.V2
