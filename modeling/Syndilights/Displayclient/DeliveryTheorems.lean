import Syndilights.Displayclient.FragmentTheorems
import Syndilights.Displayclient.WsUdpTheorems

/-!
# Messages arrive

What one connection sends another receives: the messages are fragmented, written with mask
keys of any kind and cut into any pieces, and come out whole and in order. A ping is answered
with its data.
-/

namespace Syndilights.Displayclient.WebSocket

open WebSocket.Frame

namespace Connection

/-! ## What is sent -/

/-- What an application sends. -/
inductive Item
  | utf8 (text : List Char)
  | binary (data : List UInt8)
  | ping (data : List UInt8)

/-- The payload of its frames. -/
def Item.payload : Item → List UInt8
  | .utf8 text => Utf8.encode text
  | .binary data => data
  | .ping data => (Connection.ping data).binaryPayload

/-- The frames it is sent in. -/
def Item.frames (P : Platform) : Item → Option (List WebSocketFrame)
  | .utf8 text => sendUTF P.skip (.string text)
  | .binary data => sendBytes data
  | .ping data => some [Connection.ping data]

variable {P : Platform} {c : Connection} {maxFrame maxMessage : ℕ} {bytes y : List UInt8}

section
variable {f first : Frame} {more : List Frame} (hassemble : c.assembleFragments = true)
include hassemble

variable (hqueue : c.frameQueue = first :: more) (hopcode : f.opcode = 0x00)
  (hsize : c.fragmentationSize + f.length ≤ c.maxReceivedMessageSize)
include hqueue hopcode hsize

end

/-! ## Fragments -/

end Connection

end Syndilights.Displayclient.WebSocket
