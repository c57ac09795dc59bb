import Syndilights.Displayclient.Relay
import Syndilights.Displayclient.WebSocketFrame

/-!
# A websocket connection

`WebSocketConnection.js`: what a connection does with the bytes it receives, and how it is
closed. What it sends and emits is recorded as a list of effects; the queue in front of the
socket is modelled by itself. The connection is one of the server, which does not mask.
-/

namespace Syndilights.Displayclient.WebSocket

/-- What Node and the native modules do: the memory of new buffers, the decoder of UTF-8, and
`Validation.isValidUTF8`, which without its native module accepts everything. -/
structure Platform where
  memory : ℕ → UInt8
  skip : Utf8.Policy
  isValidUTF8 : List UInt8 → Bool

/-- New buffers are empty, and there is no native module. -/
def Platform.plain : Platform := ⟨fun _ => 0, Utf8.maximalSubpart, fun _ => true⟩

/-- `buffer.toString('utf8')`. -/
def Platform.decode (P : Platform) (bytes : List UInt8) : List Char := Utf8.decode P.skip bytes

/-- `STATE_OPEN`, `STATE_CLOSING` and `STATE_CLOSED`. -/
inductive State
  | open
  | closing
  | closed
deriving DecidableEq

/-- What a connection does to its socket, its queue and its listeners. -/
inductive Effect
  | message (message : Message)
  | frame (frame : Frame)
  | close (reasonCode : ℤ) (description : Option String)
  | sendFrame (frame : Frame) (force : Bool)
  /-- `outgoingFrameQueue = []`. -/
  | discardQueue
  /-- `socket.end()`. -/
  | endSocket
  /-- `socket.destroy()`. -/
  | destroySocket

/-- `WebSocketConnection`. The list of received buffers is kept beside it. -/
structure Connection where
  maxReceivedFrameSize : ℕ
  maxReceivedMessageSize : ℕ
  assembleFragments : Bool
  currentFrame : Frame
  fragmentationSize : ℕ
  frameQueue : List Frame
  connected : Bool
  state : State
  waitingForCloseResponse : Bool
  /-- The close timer is running. -/
  closeTimer : Bool
  closeReasonCode : ℤ
  closeDescription : Option String
  closeEventEmitted : Bool

/-! ## Close reasons -/

def CLOSE_REASON_NORMAL : ℤ := 1000
def CLOSE_REASON_PROTOCOL_ERROR : ℤ := 1002
def CLOSE_REASON_ABNORMAL : ℤ := 1006
def CLOSE_REASON_INVALID_DATA : ℤ := 1007
def CLOSE_REASON_MESSAGE_TOO_BIG : ℤ := 1009

/-- `CLOSE_DESCRIPTIONS`. -/
def CLOSE_DESCRIPTIONS (code : ℤ) : Option String :=
  if code = 1000 then some "Normal connection closure"
  else if code = 1001 then some "Remote peer is going away"
  else if code = 1002 then some "Protocol error"
  else if code = 1003 then some "Unprocessable input"
  else if code = 1004 then some "Reserved"
  else if code = 1005 then some "Reason not provided"
  else if code = 1006 then some "Abnormal closure, no further detail available"
  else if code = 1007 then some "Invalid data received"
  else if code = 1008 then some "Policy violation"
  else if code = 1009 then some "Message too big"
  else if code = 1010 then some "Extension requested by client is required"
  else if code = 1011 then some "Internal Server Error"
  else if code = 1015 then some "TLS Handshake Failed"
  else none

/-- `validateReceivedCloseReason`. -/
def validateReceivedCloseReason (code : ℤ) : Bool :=
  if code < 1000 then false
  else if code ≤ 2999 then
    code ∈ ([1000, 1001, 1002, 1003, 1007, 1008, 1009, 1010, 1011] : List ℤ)
  else code < 5000

namespace Connection

/-- The constructor, for a server's connection. -/
def new (maxReceivedFrameSize maxReceivedMessageSize : ℕ) (assembleFragments : Bool)
    (maskBytes : Buffer 4) (frameHeader : Buffer 10) : Connection where
  maxReceivedFrameSize := maxReceivedFrameSize
  maxReceivedMessageSize := maxReceivedMessageSize
  assembleFragments := assembleFragments
  currentFrame := Frame.new maskBytes frameHeader maxReceivedFrameSize
  fragmentationSize := 0
  frameQueue := []
  connected := true
  state := .open
  waitingForCloseResponse := false
  closeTimer := false
  closeReasonCode := -1
  closeDescription := none
  closeEventEmitted := false

variable (P : Platform) (c : Connection)

/-- `new WebSocketFrame(this.maskBytes, this.frameHeader, this.config)`. -/
def newFrame : Frame :=
  Frame.new c.currentFrame.maskBytes c.currentFrame.frameHeader c.maxReceivedFrameSize

/-- `sendCloseFrame`. -/
def sendCloseFrame (reasonCode : ℤ) (reasonText : Option String) (force : Bool) : Effect :=
  .sendFrame { c.newFrame with
    fin := true
    opcode := 0x08
    closeStatus := reasonCode
    binaryPayload := reasonText.elim [] fun text => Utf8.encode text.toList } force

/-- `pong`. -/
def pong (binaryPayload : List UInt8) : Effect :=
  .sendFrame { c.newFrame with
    opcode := 0x0A
    fin := true
    binaryPayload :=
      if binaryPayload.length > 125 then binaryPayload.take 124 else binaryPayload } false

/-- `drop`. -/
def drop (reasonCode : ℤ) (description : Option String) (skipCloseFrame : Bool) :
    Connection × List Effect :=
  let description := description.or (CLOSE_DESCRIPTIONS reasonCode)
  ({ c with
      closeReasonCode := reasonCode
      closeDescription := description
      frameQueue := []
      fragmentationSize := 0
      connected := false
      state := .closed
      closeEventEmitted := true },
    .discardQueue ::
      ((if skipCloseFrame then [] else [c.sendCloseFrame reasonCode description true]) ++
        [.close reasonCode description, .destroySocket]))

/-- `setCloseTimer`. -/
def setCloseTimer : Connection := { c with waitingForCloseResponse := true, closeTimer := true }

/-- `clearCloseTimer`. -/
def clearCloseTimer : Connection :=
  if c.closeTimer then { c with waitingForCloseResponse := false, closeTimer := false } else c

/-! ## Frames -/

/-- `opcode.toString(16)`, behind the `0x` of the messages. -/
def hex (opcode : ℕ) : String := "0x" ++ String.ofList (Nat.toDigits 16 opcode)

/-- A binary or text message that came in one frame. -/
def emitMessage (opcode : ℕ) (payload : List UInt8) : Connection × List Effect :=
  if opcode = 0x02 then (c, [.message (.binary payload)])
  else if P.isValidUTF8 payload then (c, [.message (.utf8 (P.decode payload))])
  else c.drop CLOSE_REASON_INVALID_DATA (some "Invalid UTF-8 Data Received") false

/-- The cases of `processFrame` for a binary and for a text frame. -/
def processData (frame : Frame) : Connection × List Effect :=
  if c.assembleFragments then
    if frame.fin then c.emitMessage P frame.opcode frame.binaryPayload
    else
      -- beginning of a fragmented message
      ({ c with frameQueue := c.frameQueue ++ [frame], fragmentationSize := frame.length }, [])
  else (c, [])

/-- The frames are copied one behind the other into a new buffer. -/
def assemble (size : ℕ) (frames : List Frame) : List UInt8 :=
  List.ofFn (frames.foldl (fun (binaryPayload, bytesCopied) currentFrame =>
    (copy currentFrame.binaryPayload binaryPayload bytesCopied 0 currentFrame.binaryPayload.length,
      bytesCopied + currentFrame.binaryPayload.length)) (newBuffer P.memory size, 0)).1

/-- The case of `processFrame` for a continuation frame. -/
def processContinuation (frame : Frame) : Connection × List Effect :=
  if c.assembleFragments then
    match c.frameQueue with
    | [] => c.drop CLOSE_REASON_PROTOCOL_ERROR (some "Unexpected Continuation Frame") false
    | first :: _ =>
      let c := { c with fragmentationSize := c.fragmentationSize + frame.length }
      if c.fragmentationSize > c.maxReceivedMessageSize then
        c.drop CLOSE_REASON_MESSAGE_TOO_BIG (some "Maximum message size exceeded.") false
      else
        let c := { c with frameQueue := c.frameQueue ++ [frame] }
        if frame.fin then
          -- end of fragmented message
          let binaryPayload := assemble P c.fragmentationSize c.frameQueue
          if first.opcode = 0x02 then
            ({ c with frameQueue := [], fragmentationSize := 0 }, [.message (.binary binaryPayload)])
          else if first.opcode = 0x01 then
            if P.isValidUTF8 binaryPayload then
              ({ c with frameQueue := [], fragmentationSize := 0 },
                [.message (.utf8 (P.decode binaryPayload))])
            else c.drop CLOSE_REASON_INVALID_DATA (some "Invalid UTF-8 Data Received") false
          else
            c.drop CLOSE_REASON_PROTOCOL_ERROR
              (some ("Unexpected first opcode in fragmentation sequence: " ++ hex first.opcode)) false
        else (c, [])
  else (c, [])

/-- The case of `processFrame` for a close frame. -/
def processClose (frame : Frame) : Connection × List Effect :=
  if c.waitingForCloseResponse then
    -- got response to our request to close the connection
    ({ c.clearCloseTimer with waitingForCloseResponse := false, state := .closed }, [.endSocket])
  else
    let c := { c with
      state := .closing
      closeReasonCode := if frame.invalidCloseFrameLength then 1005 else frame.closeStatus }
    let respondCloseReasonCode :=
      if frame.invalidCloseFrameLength then CLOSE_REASON_PROTOCOL_ERROR
      else if frame.closeStatus = -1 ∨ validateReceivedCloseReason frame.closeStatus then
        CLOSE_REASON_NORMAL
      else CLOSE_REASON_PROTOCOL_ERROR
    if frame.binaryPayload.length > 1 ∧ ¬ P.isValidUTF8 frame.binaryPayload then
      c.drop CLOSE_REASON_INVALID_DATA (some "Invalid UTF-8 Data Received") false
    else
      ({ c with
          closeDescription :=
            if frame.binaryPayload.length > 1 then
              some (String.ofList (P.decode frame.binaryPayload))
            else CLOSE_DESCRIPTIONS c.closeReasonCode
          connected := false },
        [c.sendCloseFrame respondCloseReasonCode none false, .endSocket])

/-- `processFrame`. -/
def processFrame (frame : Frame) : Connection × List Effect :=
  if c.frameQueue ≠ [] ∧ 0x00 < frame.opcode ∧ frame.opcode < 0x08 then
    c.drop CLOSE_REASON_PROTOCOL_ERROR (some ("Illegal frame opcode " ++ hex frame.opcode ++
      " received in middle of fragmented message.")) false
  else if frame.opcode = 0x02 ∨ frame.opcode = 0x01 then c.processData P frame
  else if frame.opcode = 0x00 then c.processContinuation P frame
  else if frame.opcode = 0x09 then (c, [c.pong frame.binaryPayload])
  else if frame.opcode = 0x0A then (c, [])
  else if frame.opcode = 0x08 then c.processClose P frame
  else
    c.drop CLOSE_REASON_PROTOCOL_ERROR (some ("Unrecognized Opcode: " ++ hex frame.opcode)) false

/-! ## Received bytes -/

/-- The frame has a bit that only an extension could use. -/
def hasRsv (frame : Frame) : Bool := frame.rsv1 || frame.rsv2 || frame.rsv3

/-- The loop of `handleSocketData`, for a frame on which `addData` returned `true`. -/
def handleFrame : Connection × List Effect :=
  let frame := c.currentFrame
  if frame.protocolError then c.drop CLOSE_REASON_PROTOCOL_ERROR frame.dropReason false
  else if frame.frameTooLarge then c.drop CLOSE_REASON_MESSAGE_TOO_BIG frame.dropReason false
  else
    -- a frame with such a bit is dropped, and processed nevertheless
    let (c, dropped) :=
      if hasRsv frame then c.drop CLOSE_REASON_PROTOCOL_ERROR
        (some "Unsupported usage of rsv bits without negotiated extension.") false
      else (c, [])
    let emitted := if c.assembleFragments then [] else [Effect.frame frame]
    let (c, processed) := c.processFrame P frame
    ({ c with currentFrame := c.newFrame }, dropped ++ emitted ++ processed)

/-- A frame without an error makes room for a new one. -/
lemma rank_handleFrame (hprotocol : c.currentFrame.protocolError = false)
    (hlarge : c.currentFrame.frameTooLarge = false) :
    Frame.rank (c.handleFrame P).1.currentFrame.parseState = 0 := by
  simp only [handleFrame, hprotocol, hlarge, Bool.false_eq_true, if_false]
  rfl

/-- The loop of `handleSocketData`. -/
def handleFrames (c : Connection) (l : BufferList) :
    Option (Connection × BufferList × List Effect) :=
  if c.connected then
    match _hadd : c.currentFrame.addData P.memory l with
    | none => none
    | some (false, frame, l) => some ({ c with currentFrame := frame }, l, [])
    | some (true, frame, l') =>
      let handled := handleFrame P { c with currentFrame := frame }
      if _hfailed : frame.protocolError ∨ frame.frameTooLarge then some (handled.1, l', handled.2)
      else do
        let (c, l, effects) ← handleFrames handled.1 l'
        return (c, l, handled.2 ++ effects)
  else some (c, l, [])
termination_by 4 * l.length.toNat + Frame.rank c.currentFrame.parseState
decreasing_by
  have hprotocol : frame.protocolError = false := by simpa using (not_or.mp _hfailed).1
  have hlarge : frame.frameTooLarge = false := by simpa using (not_or.mp _hfailed).2
  rw [rank_handleFrame P { c with currentFrame := frame } hprotocol hlarge]
  exact Frame.addData_lt _hadd

/-- `handleSocketData`. -/
def handleSocketData (l : BufferList) (data : List UInt8) :
    Option (Connection × BufferList × List Effect) :=
  handleFrames P c (l.write data)

/-! ## Sending -/

/-- `sendBytes`. -/
def sendBytes (data : List UInt8) : Option (List WebSocketFrame) :=
  fragmentAndSend { opcode := 0x02, fin := false, binaryPayload := data }

/-- `ping`. -/
def ping (data : List UInt8) : WebSocketFrame where
  opcode := 0x09
  fin := true
  binaryPayload := if data.length > 125 then data.take 124 else data

/-- `close`. -/
def close : Connection × List Effect :=
  if c.connected then
    ({ c.setCloseTimer with
        closeReasonCode := CLOSE_REASON_NORMAL
        closeDescription := CLOSE_DESCRIPTIONS CLOSE_REASON_NORMAL
        state := .closing
        connected := false },
      [c.sendCloseFrame CLOSE_REASON_NORMAL none false])
  else (c, [])

/-- `handleCloseTimer`. -/
def handleCloseTimer : Connection × List Effect :=
  if c.waitingForCloseResponse then
    ({ c with closeTimer := false, waitingForCloseResponse := false }, [.endSocket])
  else ({ c with closeTimer := false }, [])

/-- `handleGracePeriodTimer`. -/
def handleGracePeriodTimer : Connection × List Effect :=
  c.drop CLOSE_REASON_ABNORMAL (some "Peer not responding.") true

/-- `handleSocketClose`. -/
def handleSocketClose : Connection × List Effect :=
  let c := { c with connected := false, state := .closed }
  let c :=
    if c.closeReasonCode = -1 then
      { c with
        closeReasonCode := CLOSE_REASON_ABNORMAL
        closeDescription := some "Connection dropped by remote peer." }
    else c
  (Connection.clearCloseTimer { c with closeEventEmitted := true },
    if c.closeEventEmitted then [] else [.close c.closeReasonCode c.closeDescription])

/-! ## Events -/

/-- What happens to a connection: the socket has data or is closed, the application calls
`close`, or a timer fires. -/
inductive Event
  | data (data : List UInt8)
  | close
  | closeTimer
  | gracePeriodTimer
  | socketClose
deriving DecidableEq

/-- One event. -/
def handle (l : BufferList) : Event → Option (Connection × BufferList × List Effect)
  | .data data => handleSocketData P c l data
  | .close => some (c.close.1, l, c.close.2)
  | .closeTimer => some (c.handleCloseTimer.1, l, c.handleCloseTimer.2)
  | .gracePeriodTimer => some (c.handleGracePeriodTimer.1, l, c.handleGracePeriodTimer.2)
  | .socketClose => some (c.handleSocketClose.1, l, c.handleSocketClose.2)

/-- One event after the other. -/
def run (P : Platform) (c : Connection) (l : BufferList) :
    List Event → Option (Connection × BufferList × List Effect)
  | [] => some (c, l, [])
  | event :: more => do
    let (c, l, effects) ← handle P c l event
    let (c, l, effects') ← run P c l more
    return (c, l, effects ++ effects')

end Connection

end Syndilights.Displayclient.WebSocket
