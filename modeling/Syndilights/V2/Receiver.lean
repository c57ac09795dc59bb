import Mathlib.Tactic

/-!
# The receiver

`MyTCPHandler` of `receiver.py`. What a client has sent and the handler has not read yet
is a list of bytes, at whose end the connection is closed.
-/

namespace Syndilights.V2

/-! ## Reading from a connection -/

/-- `int.from_bytes(…, byteorder='little')`. -/
def from_bytes : List UInt8 → ℕ
  | [] => 0
  | b :: bytes => b.toNat + 256 * from_bytes bytes

/-- `rfile.readline()`: the bytes up to the first newline, with it, or all that are left,
and the bytes behind them. -/
def readline : List UInt8 → List UInt8 × List UInt8
  | [] => ([], [])
  | b :: bytes =>
    if b = 10 then ([b], bytes) else (b :: (readline bytes).1, (readline bytes).2)

/-- ASCII whitespace: tab, newline, vertical tab, form feed, carriage return, space. -/
def isSpace (b : UInt8) : Bool := (9 ≤ b ∧ b ≤ 13) ∨ b = 32

/-- `bytes.strip()`. -/
def strip (bytes : List UInt8) : List UInt8 :=
  ((bytes.dropWhile isSpace).reverse.dropWhile isSpace).reverse

/-! ## The handshake -/

/-- The hash `config` in Redis. -/
structure Config where
  max_height : ℕ
  max_width : ℕ
  max_framerate : ℕ
  cur_framerate : ℕ
deriving DecidableEq

/-- The reason for which a value is refused. -/
def reason (name : String) (max current : ℕ) : String :=
  name ++ " has to be between 0 and " ++ toString max ++ ". Current: " ++ toString current

namespace Config

/-- `_check_config`: the reason of a refusal. -/
def check_config (c : Config) (height width framerate : ℕ) : Option String :=
  if height > 0 ∧ height > c.max_height then some (reason "height" c.max_height height)
  else if width > 0 ∧ width > c.max_width then some (reason "width" c.max_width width)
  else if framerate > 0 ∧ framerate > c.max_framerate then
    some (reason "framerate" c.max_framerate framerate)
  else none

/-- `_set_config`. -/
def set_config (c : Config) (framerate : ℕ) : Config := { c with cur_framerate := framerate }

/-- `_receive_client_config`, when each `recv` returns four bytes or all that are left: the
reason of a refusal, the configuration, and what is left to read. -/
def receive_client_config (c : Config) (stream : List UInt8) :
    Option String × Config × List UInt8 :=
  let height := from_bytes (stream.take 4)
  let width := from_bytes ((stream.drop 4).take 4)
  let framerate := from_bytes ((stream.drop 8).take 4)
  let rest := stream.drop 12
  match c.check_config height width framerate with
  | none => (none, c.set_config framerate, rest)
  | some reason => (some reason, c, rest)

end Config

/-- The `imgsize` that `_set_config` keeps of a session. Nothing reads it. -/
def imgsize (height width : ℕ) : ℕ := height * width * 24

/-- One iteration of the loop of `handle`: the data that is pushed, unless the loop ends,
and what is left to read. -/
def handle (stream : List UInt8) : Option (List UInt8) × List UInt8 :=
  let data := strip (readline stream).1
  if data.length = 0 then (none, (readline stream).2) else (some data, (readline stream).2)

/-- A line and what is behind it make up the stream. -/
lemma length_readline (stream : List UInt8) :
    (readline stream).1.length + (readline stream).2.length = stream.length := by
  induction stream with
  | nil => rfl
  | cons b bytes ih =>
    rw [readline]
    split_ifs
    · show 1 + bytes.length = bytes.length + 1
      omega
    · show (readline bytes).1.length + 1 + (readline bytes).2.length = bytes.length + 1
      omega

lemma length_strip_le (bytes : List UInt8) : (strip bytes).length ≤ bytes.length := by
  have hfront := (List.dropWhile_suffix isSpace (l := bytes)).length_le
  have hback :=
    (List.dropWhile_suffix isSpace (l := (bytes.dropWhile isSpace).reverse)).length_le
  rw [List.length_reverse] at hback
  rw [strip, List.length_reverse]
  omega

/-- What is pushed was read. -/
lemma length_handle {stream data rest : List UInt8} (h : handle stream = (some data, rest)) :
    0 < data.length ∧ data.length + rest.length ≤ stream.length := by
  have hline := length_readline stream
  have hstrip := length_strip_le (readline stream).1
  unfold handle at h
  dsimp only at h
  split_ifs at h with hdata
  · exact absurd h (by simp)
  · simp only [Prod.mk.injEq, Option.some.injEq] at h
    rcases h with ⟨rfl, rfl⟩
    omega

/-- The loop of `handle`: everything that is pushed, in order. -/
def pushes (stream : List UInt8) : List (List UInt8) :=
  match hhandle : handle stream with
  | (none, _) => []
  | (some data, rest) => data :: pushes rest
termination_by stream.length
decreasing_by
  have hlength := length_handle hhandle
  omega

end Syndilights.V2
