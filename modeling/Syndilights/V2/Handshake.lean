import Syndilights.InTransit
import Syndilights.V2.Pipeline

/-!
# The configuration handshake

`receiver.py` and the client's `network.py` and `prepare.py`, each operation on a socket as one
step, with two opposite streams between them. The network decides how many bytes arrive at a
time. `recv(4)` waits for a byte and takes up to four; `readBytes` does not wait, and what it
does not fill of its array stays zero.
-/

namespace Syndilights.V2

open InTransit

/-! ## The two sides -/

/-- What `_send_config_to_client` sends, in order. -/
def Config.maxima (config : Config) : List ℕ :=
  [config.max_height, config.max_width, config.max_framerate]

/-- What the client wants. -/
structure ClientConfig where
  height : ℕ
  width : ℕ
  framerate : ℕ

/-- What `send_config` sends, in order. -/
def ClientConfig.values (client : ClientConfig) : List ℕ :=
  [client.height, client.width, client.framerate]

/-- `struct.unpack("<i", …)` of four bytes. -/
def unpack (bytes : List UInt8) : ℤ :=
  if from_bytes bytes < 2 ^ 31 then from_bytes bytes else from_bytes bytes - 2 ^ 32

/-- The array of `jarray.zeros(4, "b")` with the bytes in front. -/
def filled (bytes : List UInt8) : List UInt8 := bytes ++ List.replicate (4 - bytes.length) 0

/-- The reason for which the client gives up. -/
def cannot (name : String) (max : ℤ) (current : ℕ) : String :=
  name ++ " cannot be higher than " ++ toString max ++ ". Current: " ++ toString current ++ "."

/-- `check_config` of the client. -/
def check_config (max_height max_width max_framerate : ℤ) (client : ClientConfig) :
    Option String :=
  if client.height ≤ 0 ∨ (client.height : ℤ) > max_height then
    some (cannot "height" max_height client.height)
  else if client.width ≤ 0 ∨ (client.width : ℤ) > max_width then
    some (cannot "width" max_width client.width)
  else if client.framerate ≤ 0 ∨ (client.framerate : ℤ) > max_framerate then
    some (cannot "framerate" max_framerate client.framerate)
  else none

/-! ## The transition system -/

/-- A state of the handshake. `asked` is what `_receive_client_config` has decoded, `maxima`
what `receive_config` has; `verdict` is the result of the client's check. -/
structure Handshake where
  toClient : Link UInt8
  toServer : Link UInt8
  maxima_sent : ℕ
  asked : List ℕ
  waiting : Bool
  maxima : List ℤ
  verdict : Option (Option String)
  config_sent : ℕ
  frames : List UInt8

namespace Handshake

/-- A client has connected. -/
def start : Handshake where
  toClient := .empty
  toServer := .empty
  maxima_sent := 0
  asked := []
  waiting := true
  maxima := []
  verdict := none
  config_sent := 0
  frames := []

/-- One operation of the server or the client, or the arrival of some bytes. -/
inductive Action
  /-- The next `sendall` of the server. -/
  | sendall
  /-- The next `recv(4)` of the server. -/
  | recv
  /-- `socket.available()`. -/
  | available
  /-- The next `readBytes` of the client. -/
  | readBytes
  /-- The client's `check_config`. -/
  | check
  /-- The next `write` of `send_config`. -/
  | write
  /-- A `write` of `send_TCP`. -/
  | frame (data : List UInt8)
  /-- Bytes arrive at the client. -/
  | atClient (n : ℕ)
  /-- Bytes arrive at the server. -/
  | atServer (n : ℕ)

/-- The state after an operation, if it is its turn and does not raise. -/
def step (config : Config) (client : ClientConfig) (s : Handshake) : Action → Option Handshake
  | .sendall => do
    let max ← config.maxima[s.maxima_sent]?
    -- `to_bytes(4, …)` raises `OverflowError`
    if max < 2 ^ 32 then
      some { s with toClient := s.toClient.write (pack max), maxima_sent := s.maxima_sent + 1 }
    else none
  | .recv =>
    if s.maxima_sent = 3 ∧ s.asked.length < 3 ∧ s.toServer.arrived ≠ [] then
      let (bytes, toServer) := s.toServer.read 4
      some { s with toServer := toServer, asked := s.asked ++ [from_bytes bytes] }
    else none
  | .available => if s.waiting then some { s with waiting := s.toClient.arrived.isEmpty } else none
  | .readBytes =>
    if s.waiting = false ∧ s.maxima.length < 3 then
      let (bytes, toClient) := s.toClient.read 4
      some { s with toClient := toClient, maxima := s.maxima ++ [unpack (filled bytes)] }
    else none
  | .check =>
    match s.maxima, s.verdict with
    | [max_height, max_width, max_framerate], none =>
      some { s with verdict := some (check_config max_height max_width max_framerate client) }
    | _, _ => none
  | .write => do
    let value ← client.values[s.config_sent]?
    if s.verdict = some none then
      some { s with toServer := s.toServer.write (pack value), config_sent := s.config_sent + 1 }
    else none
  | .frame data =>
    if s.config_sent = 3 then
      some { s with toServer := s.toServer.write data, frames := s.frames ++ data }
    else none
  | .atClient n => some { s with toClient := s.toClient.deliver n }
  | .atServer n => some { s with toServer := s.toServer.deliver n }

end Handshake

end Syndilights.V2
