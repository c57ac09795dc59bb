import Mathlib.Tactic

/-!
# The list of buffers

`FastBufferList.js`, which holds the bytes that a connection has received: a linked list of
buffers that is read as if it were one. Only the list is modelled, not the events it emits.
-/

namespace Syndilights.Displayclient.WebSocket

/-! ## Buffers -/

/-- A `Buffer` that is written to. -/
abbrev Buffer (n : ℕ) := Fin n → UInt8

/-- `new Buffer(n)`, which is not initialised: its bytes are what happens to be in memory. -/
def newBuffer (memory : ℕ → UInt8) (n : ℕ) : Buffer n := fun i => memory i

/-- `source.copy(target, targetStart, sourceStart, sourceEnd)`. -/
def copy {n : ℕ} (source : List UInt8) (target : Buffer n)
    (targetStart sourceStart sourceEnd : ℕ) : Buffer n := fun i =>
  if targetStart ≤ i ∧ i < targetStart + (min sourceEnd source.length - sourceStart) then
    source.getD (sourceStart + (i - targetStart)) 0
  else target i

/-! ## The list -/

/-- `BufferList`. There is no buffer when `head.buffer` is null. -/
structure BufferList where
  /-- The buffers from `head` to `last`. -/
  buffers : List (List UInt8)
  /-- How much of the first buffer has been used. -/
  offset : ℕ
  /-- Negative when the list was advanced past its end. -/
  length : ℤ
deriving DecidableEq

namespace BufferList

/-- A new list. -/
def empty : BufferList := ⟨[], 0, 0⟩

variable (l : BufferList)

/-- `write`. -/
def write (buf : List UInt8) : BufferList :=
  { l with buffers := l.buffers ++ [buf], length := l.length + buf.length }

/-- The loop of `forEach`, which `fn` leaves with a true value. -/
def forEach.loop {σ : Type} (fn : List UInt8 → σ → σ × Bool) : List (List UInt8) → σ → σ
  | [], s => s
  | buffer :: next, s =>
    match fn buffer s with
    | (s, true) => s
    | (s, false) => loop fn next s

/-- `forEach`. It does nothing when the first buffer is used up. -/
def forEach {σ : Type} (fn : List UInt8 → σ → σ × Bool) (s : σ) : σ :=
  match l.buffers with
  | [] => s
  | head :: next =>
    if head.length ≤ l.offset then s else forEach.loop fn (head.drop l.offset :: next) s

/-- What `join` and `joinInto` do with a buffer that starts `ix` bytes behind the offset. -/
def joinBuffer {n : ℕ} (targetStart sourceStart sourceEnd : ℕ) (buffer : List UInt8) :
    Buffer n × ℕ → (Buffer n × ℕ) × Bool
  | (big, ix) =>
    let big :=
      if sourceStart < ix + buffer.length ∧ ix < sourceEnd then
        -- at least partially contained in the range
        copy buffer big (max targetStart (targetStart + ix - sourceStart)) (sourceStart - ix)
          (min buffer.length (sourceEnd - ix))
      else big
    -- stop processing past end
    ((big, ix + buffer.length), ix + buffer.length > sourceEnd)

/-- `joinInto`: the target buffer, or an exception. -/
def joinInto {n : ℕ} (target : Buffer n) (targetStart sourceStart sourceEnd : ℕ) :
    Option (Buffer n) :=
  if l.buffers = [] then some target
  else if (n : ℤ) - targetStart < (sourceEnd : ℤ) - sourceStart then none
  else some (l.forEach (joinBuffer targetStart sourceStart sourceEnd) (target, 0)).1

/-- `join`. -/
def join (memory : ℕ → UInt8) (start stop : ℕ) : List UInt8 :=
  if l.buffers = [] then []
  else
    let big := newBuffer memory (stop - start)
    List.ofFn (l.forEach (joinBuffer 0 start stop) (big, 0)).1

/-- `take(n)`, without an encoding. -/
def take (memory : ℕ → UInt8) (n : ℕ) : List UInt8 := l.join memory 0 n

/-- The loop of `advance`: the buffers that are not used up, and the offset in the first. -/
def advance.loop : List (List UInt8) → ℕ → List (List UInt8) × ℕ
  | [], offset => ([], offset)
  | buffer :: next, offset =>
    if offset ≥ buffer.length then loop next (offset - buffer.length) else (buffer :: next, offset)

/-- `advance`. -/
def advance (n : ℕ) : BufferList :=
  let (buffers, offset) := advance.loop l.buffers (l.offset + n)
  { buffers, offset, length := l.length - n }

end BufferList

end Syndilights.Displayclient.WebSocket
