import Syndilights.ActionSystem
import Syndilights.Frameserver.Server

/-!
# The container of buffers

`Buffers.cpp`: a vector of buffers that names each of them when it is added. To read the
vector behind its end is undefined, `none`.
-/

namespace Syndilights.Frameserver

/-- `Buffers`: the vector, and the name of the buffer that was added last. -/
structure Buffers where
  buffers : List Buffer
  id : String

namespace Buffers

/-- `Buffers::add`; the frame of a new buffer is not initialised. -/
def add (raw : Frame) (s : Buffers) : Buffers :=
  let id := s.id ++ "1"
  ⟨s.buffers ++ [⟨id, raw⟩], id⟩

/-- `Buffers::Buffers(int)`. -/
def ofBufnum (bufnum : ℤ) (raw : ℕ → Frame) : Buffers :=
  ForLoop.run bufnum.toNat (fun i s => s.add (raw i)) ⟨[], ""⟩

/-- The loop of `Buffers::remove` from position `i` on, `left` positions before the size that
was read when it started. -/
def removeLoop (_id : String) : (i left : ℕ) → List Buffer → Option (List Buffer)
  | _, 0, buffers => some buffers
  | i, left + 1, buffers =>
    match buffers[i]? with
    | none => none
    | some b =>
      if b.id = _id then removeLoop _id (i + 1) left (buffers.eraseIdx i)
      else removeLoop _id (i + 1) left buffers

/-- `Buffers::remove`. -/
def remove (_id : String) (s : Buffers) : Option Buffers :=
  let size := s.buffers.length
  (removeLoop _id 0 size s.buffers).map fun buffers => { s with buffers := buffers }

/-- A call of one of the two. -/
inductive Call
  | add (raw : Frame)
  | remove (_id : String)

/-- The container after a call. -/
def step (s : Buffers) : Call → Option Buffers
  | .add raw => some (s.add raw)
  | .remove _id => s.remove _id

end Buffers

end Syndilights.Frameserver
