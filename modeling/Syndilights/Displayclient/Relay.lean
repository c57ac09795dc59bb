import Syndilights.Displayclient.WsUdp

/-!
# The viewers of the websocket relay

The handlers of `ws_udp.js` and the registry `clients` they share. A connection object is
known by its number in the order of acceptance; it is open from then on until its `close`
event. An exception of a handler, which ends the program, is `none`.
-/

namespace Syndilights.Displayclient

/-- A message from a viewer, as `processFrame` emits it. -/
inductive Message
  | utf8 (utf8Data : List Char)
  | binary (binaryData : List UInt8)

/-- `message.utf8Data`, which a binary message does not have. -/
def Message.utf8Data : Message → Data
  | utf8 utf8Data => .string utf8Data
  | binary _ => .null

/-- What the handlers are called for. -/
inductive Event
  | request (requestedProtocols : List String)
  | close (connection : ℕ)
  | message (connection : ℕ) (message : Message)
  | datagram (msg : List UInt8)

/-- The state of the program. `clients` has its integer keys in ascending order; `ids` has
for every connection the `id` that its listeners have captured. -/
structure Relay where
  count : ℕ
  clients : List (ℕ × ℕ)
  ids : List ℕ
deriving DecidableEq

namespace Relay

/-- The program when it starts. -/
def start : Relay := ⟨0, [], []⟩

/-- `clients[id] = connection`. -/
def setClient (clients : List (ℕ × ℕ)) (id connection : ℕ) : List (ℕ × ℕ) :=
  (clients.filter fun c => c.1 ≠ id).orderedInsert (fun c c' => c.1 ≤ c'.1) (id, connection)

/-- `delete clients[id]`. -/
def deleteClient (clients : List (ℕ × ℕ)) (id : ℕ) : List (ℕ × ℕ) :=
  clients.filter fun c => c.1 ≠ id

/-- A call of `sendUTF`: the connection and the data. -/
abbrev Call := ℕ × Data

/-- `for(i in clients) clients[i].sendUTF(data)`. -/
def broadcast (skip : Utf8.Policy) (clients : List (ℕ × ℕ)) (data : Data) : Option (List Call) :=
  clients.mapM fun c => do
    let _ ← sendUTF skip data
    return (c.2, data)

/-- `r.accept`, which throws if the client has not asked for the protocol; the names are in
lower case. -/
def accept (requestedProtocols : List String) (acceptedProtocol : String) : Option Unit :=
  if acceptedProtocol ∈ requestedProtocols then some () else none

/-- The handler of an event: the state and the calls of `sendUTF`. A connection that has not
been accepted has no listeners. -/
def handle (skip : Utf8.Policy) (r : Relay) : Event → Option (Relay × List Call)
  | .request requestedProtocols => do
    accept requestedProtocols "echo-protocol"
    let connection := r.ids.length
    let id := r.count
    return ({
      count := r.count + 1
      clients := setClient r.clients id connection
      ids := r.ids ++ [id] }, [])
  | .close connection =>
    match r.ids[connection]? with
    | some id => some ({ r with clients := deleteClient r.clients id }, [])
    | none => some (r, [])
  | .message connection message =>
    match r.ids[connection]? with
    | some _ => do
      let calls ← broadcast skip r.clients message.utf8Data
      return (r, calls)
    | none => some (r, [])
  | .datagram msg => do
    let calls ← broadcast skip r.clients (.buffer msg)
    return (r, calls)

/-- The state after an event. -/
def step (skip : Utf8.Policy) (r : Relay) (e : Event) : Option Relay :=
  (handle skip r e).map Prod.fst

end Relay

end Syndilights.Displayclient
