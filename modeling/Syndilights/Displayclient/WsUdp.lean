import Syndilights.Utf8

/-!
# The websocket relay

`sendUTF` of the bundled `WebSocketConnection`, and the handler with which `ws_udp.js`
passes every datagram on to the connected viewers. A JavaScript string that comes out of a
decoder is a list of code points.
-/

namespace Syndilights.Displayclient

/-! ## `WebSocketConnection` -/

/-- `WebSocketFrame`, as far as `fragmentAndSend` sets it. -/
structure WebSocketFrame where
  opcode : ℕ
  fin : Bool
  binaryPayload : List UInt8
deriving DecidableEq

/-- `TEXT_FRAME`. -/
abbrev TEXT_FRAME : ℕ := 0x01

/-- The default `fragmentationThreshold` of a `WebSocketServer`, whose default is to
fragment outgoing messages. -/
def fragmentationThreshold : ℕ := 0x4000

/-- One frame of the loop in `fragmentAndSend`, the `i`-th of `numFragments`, from 1 on. -/
def fragment (frame : WebSocketFrame) (numFragments i : ℕ) : WebSocketFrame :=
  let threshold := fragmentationThreshold
  let currentLength :=
    if i = numFragments then frame.binaryPayload.length - threshold * (i - 1) else threshold
  let sliceStart := threshold * (i - 1)
  { -- continuation opcode except for first frame
    opcode := if i = 1 then frame.opcode else 0x00
    -- fin set on last frame only
    fin := i = numFragments
    binaryPayload := (frame.binaryPayload.drop sliceStart).take currentLength }

/-- `fragmentAndSend`: the frames in the order in which they are sent, or an exception. -/
def fragmentAndSend (frame : WebSocketFrame) : Option (List WebSocketFrame) :=
  if frame.opcode > 0x07 then none
  else
    let length := frame.binaryPayload.length
    if length > fragmentationThreshold then
      -- `Math.ceil(length / threshold)`
      let numFragments := (length + (fragmentationThreshold - 1)) / fragmentationThreshold
      some ((List.range numFragments).map fun i => fragment frame numFragments (i + 1))
    else some [{ frame with fin := true }]

/-- What `sendUTF` may be called with. -/
inductive Data
  | buffer (bytes : List UInt8)
  | string (text : List Char)
  | null
deriving DecidableEq

/-- `data.toString()`; a `Buffer` is decoded as UTF-8. -/
def Data.toString (skip : Utf8.Policy) : Data → Option (List Char)
  | buffer bytes => some (Utf8.decode skip bytes)
  | string text => some text
  | null => none

/-- `sendUTF`. -/
def sendUTF (skip : Utf8.Policy) (data : Data) : Option (List WebSocketFrame) := do
  let text ← data.toString skip
  fragmentAndSend { opcode := TEXT_FRAME, fin := false, binaryPayload := Utf8.encode text }

/-! ## `ws_udp.js` -/

/-- `server.on("message", …)`: the frames that are sent to every client, or an exception. -/
def onDatagram (skip : Utf8.Policy) (clients : List ℕ) (msg : List UInt8) :
    Option (List (ℕ × List WebSocketFrame)) :=
  clients.mapM fun i => do return (i, ← sendUTF skip (.buffer msg))

/-! ## The browser -/

/-- The payload of a message: the first frame has the opcode of text, the others continue
it, and the last one is marked. -/
def message (frames : List WebSocketFrame) : Option (List UInt8) :=
  if frames.map WebSocketFrame.opcode = TEXT_FRAME :: List.replicate (frames.length - 1) 0x00 ∧
      frames.map WebSocketFrame.fin = List.replicate (frames.length - 1) false ++ [true] then
    some (frames.flatMap WebSocketFrame.binaryPayload)
  else none

/-- `e.data` of the message event. -/
def eventData (skip : Utf8.Policy) (frames : List WebSocketFrame) : Option (List Char) :=
  (message frames).map (Utf8.decode skip)

end Syndilights.Displayclient
