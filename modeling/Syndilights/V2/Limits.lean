import Syndilights.V2.Handshake

/-!
# The limits of both sides

The checks of `prepare.py` and `receiver.py` on integers of either sign. The client packs its
values with a sign, and the server decodes them without one.
-/

namespace Syndilights.V2.Limits

/-! ## The client -/

/-- What the client asks for, in values that `struct.pack('<i', …)` takes. -/
structure Request where
  height : Int32
  width : Int32
  framerate : Int32

/-- `struct.pack('<i', n)`: two's complement, the lowest byte first. -/
def pack_int (n : Int32) : List UInt8 := pack (n.toInt % 2 ^ 32).toNat

/-- `send_config`. -/
def Request.send_config (request : Request) : List UInt8 :=
  pack_int request.height ++ pack_int request.width ++ pack_int request.framerate

/-- The reason for which the client gives up. -/
def cannot (name : String) (max current : ℤ) : String :=
  name ++ " cannot be higher than " ++ toString max ++ ". Current: " ++ toString current ++ "."

/-- `check_config` of `prepare.py`. -/
def check_config (max_height max_width max_framerate height width framerate : ℤ) :
    Option String :=
  if height ≤ 0 ∨ height > max_height then some (cannot "height" max_height height)
  else if width ≤ 0 ∨ width > max_width then some (cannot "width" max_width width)
  else if framerate ≤ 0 ∨ framerate > max_framerate then
    some (cannot "framerate" max_framerate framerate)
  else none

/-! ## The server -/

/-- What `_get_config` has read, and what `_set_config` writes: `cur_framerate` of the hash
`config`, and `imgsize`. -/
structure MyTCPHandler where
  max_height : ℤ
  max_width : ℤ
  max_framerate : ℤ
  cur_framerate : ℤ
  imgsize : ℤ
deriving DecidableEq

/-- The reason for which a value is refused. -/
def reason (name : String) (max current : ℤ) : String :=
  name ++ " has to be between 0 and " ++ toString max ++ ". Current: " ++ toString current

/-- The three values that `_receive_client_config` decodes, when each `recv` returns four
bytes. -/
def decode (stream : List UInt8) : ℤ × ℤ × ℤ :=
  (from_bytes (stream.take 4), from_bytes ((stream.drop 4).take 4),
    from_bytes ((stream.drop 8).take 4))

namespace MyTCPHandler

/-- `_check_config`. -/
def check_config (handler : MyTCPHandler) (height width framerate : ℤ) : Option String :=
  if height > 0 ∧ height > handler.max_height then
    some (reason "height" handler.max_height height)
  else if width > 0 ∧ width > handler.max_width then
    some (reason "width" handler.max_width width)
  else if framerate > 0 ∧ framerate > handler.max_framerate then
    some (reason "framerate" handler.max_framerate framerate)
  else none

/-- `_set_config`. -/
def set_config (handler : MyTCPHandler) (framerate height width : ℤ) : MyTCPHandler :=
  { handler with
    cur_framerate := framerate
    imgsize := height * width * 24 }

/-- `_receive_client_config`. -/
def receive_client_config (handler : MyTCPHandler) (stream : List UInt8) :
    Option String × MyTCPHandler :=
  let (height, width, framerate) := decode stream
  match handler.check_config height width framerate with
  | none => (none, handler.set_config framerate height width)
  | some reason => (some reason, handler)

end MyTCPHandler

end Syndilights.V2.Limits
