import Syndilights.V2.DataGenerator
import Syndilights.V2.Receiver
import Syndilights.V2.Teensy

/-!
# The v2 pipeline

Clients, receiver, Redis, forwarder and LED controller as one transition system. TCP and
the serial line are reliable streams of bytes; the receiver handles one client after
another, and each of its operations on Redis interleaves with those of the forwarder.
-/

namespace Syndilights.V2

/-! ## Clients -/

/-- `struct.pack('<i', n)` of a number that fits. -/
def pack (n : ℕ) : List UInt8 := (List.range 4).map fun i => (n / 256 ^ i).toUInt8

/-- The session of one client: what it asks for, and the images it sends. -/
structure Session where
  width : ℕ
  height : ℕ
  framerate : ℕ
  type : ℕ
  long_line : Bool
  scale : UInt8 → UInt8
  images : List (Image width height)

namespace Session

/-- The data of each `send_TCP`; `data` is written again and again. -/
def send_TCP (s : Session) (data : List Int8) :
    List (Image s.width s.height) → Option (List (List Int8))
  | [] => some []
  | pixels :: images => do
    let data ← image2data s.scale pixels data s.type s.long_line
    return data :: (← s.send_TCP data images)

/-- The data of all images, from the `data` of `prepare` on. -/
def sent (s : Session) : Option (List (List Int8)) :=
  s.send_TCP (prepare_data (s.width * s.height)) s.images

/-- Everything that the client writes to its socket. -/
def stream (s : Session) : List UInt8 :=
  pack s.height ++ pack s.width ++ pack s.framerate ++
    (s.sent.getD []).flatMap fun data => data.map Int8.toUInt8

end Session

/-! ## The forwarder -/

/-- What `send` of `forward.py` writes for an entry of the list. -/
def message (data : List UInt8) : List UInt8 := [42] ++ data ++ [35]

/-! ## The transition system -/

/-- A state of the pipeline: the clients that have not been accepted yet, what the
receiver has not read of the current one, the Redis list `new` from left to right, and
the bytes on their way to the controller. -/
structure Pipeline where
  config : Config
  sessions : List (List UInt8)
  current : Option (List UInt8)
  new : List (List UInt8)
  serial : List UInt8
  teensy : Teensy

/-- One step. -/
inductive Step : Pipeline → Pipeline → Prop
  /-- The receiver accepts a client and checks what it asks for. -/
  | accept {p : Pipeline} {stream rest : List UInt8} {sessions : List (List UInt8)}
      {config : Config} (hcurrent : p.current = none) (hsessions : p.sessions = stream :: sessions)
      (hconfig : p.config.receive_client_config stream = (none, config, rest)) :
      Step p { p with sessions := sessions, current := some rest, config := config }
  /-- The receiver turns a client away. -/
  | refuse {p : Pipeline} {stream rest : List UInt8} {sessions : List (List UInt8)}
      {reason : String} {config : Config} (hcurrent : p.current = none)
      (hsessions : p.sessions = stream :: sessions)
      (hconfig : p.config.receive_client_config stream = (some reason, config, rest)) :
      Step p { p with sessions := sessions, config := config }
  /-- The receiver reads a line and pushes it, `lpush`. -/
  | push {p : Pipeline} {stream rest data : List UInt8} (hcurrent : p.current = some stream)
      (hhandle : handle stream = (some data, rest)) :
      Step p { p with current := some rest, new := data :: p.new }
  /-- The receiver is done with the client. -/
  | done {p : Pipeline} {stream rest : List UInt8} (hcurrent : p.current = some stream)
      (hhandle : handle stream = (none, rest)) : Step p { p with current := none }
  /-- The forwarder pops an entry, `rpop`, and writes it to the serial line. -/
  | forward {p : Pipeline} {new : List (List UInt8)} {data : List UInt8}
      (hnew : p.new = new ++ [data]) :
      Step p { p with
        new := new
        serial := p.serial ++ if data.length > 0 then message data else [] }
  /-- The controller reads a byte. -/
  | read {p : Pipeline} {b : UInt8} {serial : List UInt8} (hserial : p.serial = b :: serial) :
      Step p { p with serial := serial, teensy := p.teensy.byte b }

/-- The start: nothing has been received, and the controller is in `loop`. -/
def Pipeline.start (config : Config) (sessions : List Session) (ledsPerStrip : ℕ)
    (drawingMemory : ℕ → UInt8) : Pipeline where
  config := config
  sessions := sessions.map Session.stream
  current := none
  new := []
  serial := []
  teensy := ⟨ledsPerStrip, drawingMemory, .loop, []⟩

end Syndilights.V2
