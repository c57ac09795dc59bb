import Syndilights.ForLoop
import Syndilights.Frameserver.Blend

/-!
# The frameserver

`Server.cpp` and `Buffer.cpp`: one iteration of each thread as a function on the server's
state. Every iteration does its work under `mutex_`, so a run of the server is a sequence
of such iterations.

Memory that the source reads or keeps without initialising it (`recv_buf`, the frame of
a fresh `Buffer`, the members the constructor does not set) is an explicit argument.
-/

namespace Syndilights.Frameserver

open ForLoop

/-! ## Data -/

/-- `udp::endpoint` of an IPv4 socket; the default one is `0.0.0.0:0`. -/
structure Endpoint where
  address : UInt32 := 0
  port : UInt16 := 0
deriving DecidableEq, Inhabited

/-- `endpointstring << remote_endpoint`. -/
def Endpoint.toStr (e : Endpoint) : String :=
  toString (e.address >>> 24 &&& 255) ++ "." ++ toString (e.address >>> 16 &&& 255) ++ "." ++
    toString (e.address >>> 8 &&& 255) ++ "." ++ toString (e.address &&& 255) ++ ":" ++
    toString e.port

/-- `Buffer`: the stored frame of one source. -/
structure Buffer where
  id : String
  frame : Frame

/-- `Buffer::set`. -/
def Buffer.set (b : Buffer) (data : Frame) : Buffer := { b with frame := data }

/-- `Buffer::get`. -/
def Buffer.get (b : Buffer) : Frame := b.frame

/-- `const int length` of `Server::send`. -/
abbrev send.length : ℕ :=
  HEADEROFFSET + HEIGHT * (WIDTH * CHANNELS + 1) + SEGWIDTH * (SEGNUM * SEGCHANNELS + 1)

/-- The state of the server. `listen_frame` is the local `frame` of `Server::listen`,
which lives as long as the thread, and `data` the static buffer of `Server::send`. -/
structure Server where
  displaycounter : ℕ
  packetcounter : ℕ
  buffers : List Buffer
  endpoints : List Endpoint
  times : List ℤ
  currenttime : ℤ
  frame : Frame
  listen_frame : Frame
  data : Fin send.length → UInt8

/-- The members that are not initialised when the threads start. -/
structure Uninit where
  currenttime : ℤ
  frame : Frame
  listen_frame : Frame
deriving Inhabited

/-- `Server::Server`. The static `data` starts zeroed. -/
def Server.init (raw : Uninit) : Server where
  displaycounter := 0
  packetcounter := 0
  buffers := []
  endpoints := []
  times := []
  currenttime := raw.currenttime
  frame := raw.frame
  listen_frame := raw.listen_frame
  data := fun _ => 0

namespace Server

/-! ## `Server::listen` -/

/-- The outcome of `receive_from`: a datagram, a datagram that is reported as longer
than the buffer, or another error. -/
inductive Recv
  | datagram (remote_endpoint : Endpoint) (bytes : List UInt8)
  | message_size (remote_endpoint : Endpoint) (bytes : List UInt8) (h : BUFLEN < bytes.length)
  | error (code : ℕ)

namespace Recv

/-- `remote_endpoint` after the call; an error leaves the default endpoint. -/
def remote_endpoint : Recv → Endpoint
  | datagram e _ => e
  | message_size e _ _ => e
  | error _ => default

/-- The bytes that arrived. -/
def bytes : Recv → List UInt8
  | datagram _ bytes => bytes
  | message_size _ bytes _ => bytes
  | error _ => []

/-- `error && error != message_size`. -/
def throws : Recv → Bool
  | error _ => true
  | _ => false

/-- `recv_buf` after the call: the bytes that arrived, as far as they fit, over what
the memory held before. -/
def fill (recv : Recv) (recv_buf : Fin BUFLEN → UInt8) : Fin BUFLEN → UInt8 :=
  fun k => recv.bytes.getD k (recv_buf k)

end Recv

/-- Uninitialised memory of one iteration: `recv_buf` before the call, and the frame of
the `Buffer` that the iteration may allocate. -/
structure Stale where
  recv_buf : Fin BUFLEN → UInt8
  frame : Frame
deriving Inhabited

/-- `std::string((char*)recv_buf.data(), 10)`. -/
def header (recv_buf : Fin BUFLEN → UInt8) : List UInt8 :=
  List.ofFn fun k : Fin 10 => recv_buf (k.castLE (by decide))

/-- The search for the slot of a sender, `left` slots before the end: `(bufnum, known)`. -/
def find (endpoints : List Endpoint) (remote_endpoint : Endpoint) (bufnum : ℕ) :
    (left : ℕ) → ℕ × Bool
  | 0 => (bufnum, false)
  | left + 1 =>
    if endpoints[bufnum]? = some remote_endpoint then (bufnum, true)
    else find endpoints remote_endpoint (bufnum + 1) left

lemma recv_window_lt (i : Fin HEIGHT) (j : Fin WIDTH) (a : Fin CHANNELS) :
    HEADEROFFSET + i * (CHANNELS * WIDTH + 1) + j * CHANNELS + a < BUFLEN := by
  have hi : i.val < 8 := i.isLt
  have hj : j.val < 12 := j.isLt
  have ha : a.val < 4 := a.isLt
  change 12 + i.val * 49 + j.val * 4 + a.val < 800
  omega

lemma recv_segment_lt (w : Fin SEGWIDTH) (n : Fin SEGNUM) (a : Fin SEGCHANNELS) :
    HEADEROFFSET + WINDOWOFFSET + w * (SEGCHANNELS * SEGNUM + 1) + n * SEGCHANNELS + a
      < BUFLEN := by
  have hw : w.val < 12 := w.isLt
  have hn : n.val < 8 := n.isLt
  have ha : a.val < 4 := a.isLt
  change 404 + w.val * 33 + n.val * 4 + a.val < 800
  omega

/-- Offset of `z` in the packet. -/
abbrev recvZ : Fin BUFLEN := ⟨10, by decide⟩

/-- Copy frame information out of the packet into `frame`. -/
def copyFrame (recv_buf : Fin BUFLEN → UInt8) (frame : Frame) : Frame :=
  let frame := { frame with z := recv_buf recvZ }
  let frame := run₃ HEIGHT WIDTH CHANNELS (fun i j a frame =>
    frame.setWindow i j a (recv_buf
      ⟨HEADEROFFSET + i * (CHANNELS * WIDTH + 1) + j * CHANNELS + a, recv_window_lt i j a⟩)) frame
  run₃ SEGWIDTH SEGNUM SEGCHANNELS (fun w n a frame =>
    frame.setSegment w n a (recv_buf
      ⟨HEADEROFFSET + WINDOWOFFSET + w * (SEGCHANNELS * SEGNUM + 1) + n * SEGCHANNELS + a,
        recv_segment_lt w n a⟩)) frame

/-- Create a new buffer and make a note of the endpoint. -/
def register (stale : Stale) (remote_endpoint : Endpoint) (s : Server) : Server :=
  { s with
    buffers := s.buffers ++ [⟨remote_endpoint.toStr, stale.frame⟩]
    endpoints := s.endpoints ++ [remote_endpoint]
    times := s.times ++ [s.currenttime] }

/-- The rest of the critical section, for the slot `bufnum`. -/
def store (recv_buf : Fin BUFLEN → UInt8) (bufnum : ℕ) (s : Server) : Server :=
  let s := { s with packetcounter := s.packetcounter + 1 }
  let s := { s with listen_frame := copyFrame recv_buf s.listen_frame }
  if bufnum < s.buffers.length then
    { s with
      buffers := s.buffers.modify bufnum (·.set s.listen_frame)
      times := s.times.set bufnum s.currenttime }
  else s

/-- One iteration of `Server::listen`; the flag tells whether it ends the thread by an
exception. -/
def listen (stale : Stale) (recv : Recv) (now : ℤ) (s : Server) : Server × Bool :=
  let recv_buf := recv.fill stale.recv_buf
  if header recv_buf ≠ HASH then (s, false)
  else
    let size := s.buffers.length
    let s := { s with currenttime := now }
    let (bufnum, known) := find s.endpoints recv.remote_endpoint 0 size
    if !known ∧ size < NUMBUFS then
      (store recv_buf bufnum (register stale recv.remote_endpoint s), recv.throws)
    else if !known ∧ size ≥ NUMBUFS then
      -- discard packet, no more sources: `continue` skips the error check as well
      (s, false)
    else
      (store recv_buf bufnum s, recv.throws)

/-! ## `Server::send` -/

lemma send_window_lt (i : Fin HEIGHT) (j : Fin WIDTH) (k : Fin CHANNELS) :
    HEADEROFFSET + i * (WIDTH * CHANNELS + 1) + j * CHANNELS + k < send.length := by
  have hi : i.val < 8 := i.isLt
  have hj : j.val < 12 := j.isLt
  have hk : k.val < 4 := k.isLt
  change 12 + i.val * 49 + j.val * 4 + k.val < 800
  omega

lemma send_window_newline_lt (i : Fin HEIGHT) :
    HEADEROFFSET + i * (WIDTH * CHANNELS + 1) + WIDTH * CHANNELS < send.length := by
  have hi : i.val < 8 := i.isLt
  change 12 + i.val * 49 + 48 < 800
  omega

lemma send_segment_lt (i : Fin SEGWIDTH) (j : Fin SEGNUM) (k : Fin SEGCHANNELS) :
    HEADEROFFSET + HEIGHT * (WIDTH * CHANNELS + 1) + i * (SEGNUM * SEGCHANNELS + 1)
      + j * SEGCHANNELS + k < send.length := by
  have hi : i.val < 12 := i.isLt
  have hj : j.val < 8 := j.isLt
  have hk : k.val < 4 := k.isLt
  change 404 + i.val * 33 + j.val * 4 + k.val < 800
  omega

lemma send_segment_newline_lt (i : Fin SEGWIDTH) :
    HEADEROFFSET + HEIGHT * (WIDTH * CHANNELS + 1) + i * (SEGNUM * SEGCHANNELS + 1)
      + SEGNUM * SEGCHANNELS < send.length := by
  have hi : i.val < 12 := i.isLt
  change 404 + i.val * 33 + 32 < 800
  omega

/-- Write the frame into the char buffer of `Server::send`. -/
def serialise (frame : Frame) (data : Fin send.length → UInt8) : Fin send.length → UInt8 :=
  let data := run HEIGHT (fun i data =>
    let data := run WIDTH (fun j => run CHANNELS fun k data =>
      Function.update data ⟨HEADEROFFSET + i * (WIDTH * CHANNELS + 1) + j * CHANNELS + k,
        send_window_lt i j k⟩ (frame.windows (i, j, k))) data
    Function.update data ⟨HEADEROFFSET + i * (WIDTH * CHANNELS + 1) + WIDTH * CHANNELS,
      send_window_newline_lt i⟩ 10) data
  run SEGWIDTH (fun i data =>
    let data := run SEGNUM (fun j => run SEGCHANNELS fun k data =>
      Function.update data ⟨HEADEROFFSET + HEIGHT * (WIDTH * CHANNELS + 1)
        + i * (SEGNUM * SEGCHANNELS + 1) + j * SEGCHANNELS + k,
        send_segment_lt i j k⟩ (frame.segments (i, j, k))) data
    Function.update data ⟨HEADEROFFSET + HEIGHT * (WIDTH * CHANNELS + 1)
      + i * (SEGNUM * SEGCHANNELS + 1) + SEGNUM * SEGCHANNELS,
      send_segment_newline_lt i⟩ 10) data

/-- One iteration of `Server::send`. -/
def send (s : Server) : Server := { s with data := serialise s.frame s.data }

/-- The datagram that `send_to(boost::asio::buffer(data,length), …)` emits. -/
def datagram (s : Server) : List UInt8 := List.ofFn s.data

/-! ## `Server::mix` -/

/-- Zero out the frame. -/
def zeroFrame (frame : Frame) : Frame :=
  let frame := run₃ HEIGHT WIDTH CHANNELS (fun i j a frame => frame.setWindow i j a 0) frame
  run₃ SEGWIDTH SEGNUM SEGCHANNELS (fun w n a frame => frame.setSegment w n a 0) frame

variable (F : Type) [AlphaArith F]

/-- Blend one buffer over the frame. -/
def blendFrame (temp_frame frame : Frame) : Frame :=
  let frame := run HEIGHT (fun i => run WIDTH fun j frame =>
    let temp_alpha := tempAlpha F (temp_frame.windows (i, j, Fin.last _))
    run CHANNELS (fun a frame => frame.setWindow i j a
      (clamp (pixel temp_alpha (frame.windows (i, j, a)) (temp_frame.windows (i, j, a))))) frame)
    frame
  run SEGWIDTH (fun w => run SEGNUM fun n frame =>
    let temp_alpha := tempAlpha F (temp_frame.segments (w, n, Fin.last _))
    run SEGCHANNELS (fun a frame => frame.setSegment w n a
      (clamp (pixel temp_alpha (frame.segments (w, n, a)) (temp_frame.segments (w, n, a)))))
      frame) frame

/-- The frame that `mix` computes from the buffers, started in `frame`. -/
def mixFrame (buffers : List Buffer) (frame : Frame) : Frame :=
  buffers.foldl (fun frame b => blendFrame F b.get frame) (zeroFrame frame)

/-- One iteration of `Server::mix`. -/
def mix (s : Server) : Server :=
  { s with
    displaycounter := s.displaycounter + 1
    frame := mixFrame F s.buffers s.frame }

/-! ## `Server::expire` -/

/-- `difftime( currenttime, time ) > BUFTIMEOUT`. Rounding a difference of two `time_t`
to `double` is monotone and exact on small integers, so the comparison is exact. -/
def expired (currenttime time : ℤ) : Bool := currenttime - time > BUFTIMEOUT

/-- The loop of `Server::expire` from index `i` on; an erased slot makes the loop look at
the same index again (`i--`). -/
def expireLoop (s : Server) (i : ℕ) : Server :=
  if h : i < s.buffers.length then
    if expired s.currenttime (s.times.getD i 0) then
      expireLoop { s with
        buffers := s.buffers.eraseIdx i
        times := s.times.eraseIdx i
        endpoints := s.endpoints.eraseIdx i } i
    else expireLoop s (i + 1)
  else s
termination_by s.buffers.length - i
decreasing_by
  · simp only [List.length_eraseIdx, h, if_true]; omega
  · omega

/-- One iteration of `Server::expire`. -/
def expire (now : ℤ) (s : Server) : Server := expireLoop { s with currenttime := now } 0

/-! ## Runs -/

/-- A datagram that fills the receive buffer. -/
abbrev FullDatagram := { bytes : List UInt8 // BUFLEN ≤ bytes.length }

/-- One iteration of one of the threads; `listen` receives a full-length datagram. -/
inductive Event
  | datagram (stale : Stale) (remote_endpoint : Endpoint) (bytes : FullDatagram) (now : ℤ)
  | mix
  | send
  | expire (now : ℤ)

/-- The state after one iteration. -/
def step (s : Server) : Event → Server
  | .datagram stale e d now => (listen stale (.datagram e d.1) now s).1
  | .mix => mix Float32 s
  | .send => send s
  | .expire now => expire now s

/-- The state after a sequence of iterations. -/
def runs (s : Server) (evs : List Event) : Server := evs.foldl step s

end Server

end Syndilights.Frameserver
