import Mathlib.Tactic

/-!
# The browser viewer

The message handler of `visionneuse.html`. It draws a frame from the code units of a
string; `frame[k]` beyond the end of the string is `undefined`, whose `charCodeAt` throws
and ends the handler.
-/

namespace Syndilights.Displayclient.Visionneuse

abbrev width : ℕ := 12
abbrev height : ℕ := 8
abbrev segments : ℕ := 8

/-- `headersize` while the windows are drawn. -/
abbrev headersize : ℕ := 12

/-- `headersize` while the segments are drawn. -/
abbrev headersize' : ℕ := headersize + height * (width * 4 + 1)

/-! ## The places of the colours -/

abbrev red : Fin 3 := 0
abbrev green : Fin 3 := 1
abbrev blue : Fin 3 := 2

/-- Where the colour `c` of a window is read. -/
def windowPos (x : Fin width) (y : Fin height) (c : Fin 3) : ℕ :=
  headersize + (y * (width * 4 + 1)) + (x * 4 + c)

/-- Where the colour `c` of a segment is read. -/
def segmentPos (d : Fin width) (s : Fin segments) (c : Fin 3) : ℕ :=
  headersize' + d * (segments * 4 + 1) + s * 4 + c

/-! ## Drawing -/

/-- What is drawn. -/
inductive Call
  | lightWindow (x : Fin width) (y : Fin height) (r g b : UInt16)
  | lightSegment (display : Fin width) (segment : Fin segments) (r g b : UInt16)
deriving DecidableEq

/-- `frame[k].charCodeAt(0)`. -/
def charCodeAt (frame : List UInt16) (k : ℕ) : Option UInt16 := frame[k]?

/-- The body of the loops over the windows. -/
def drawWindow (frame : List UInt16) (x : Fin width) (y : Fin height) : Option Call := do
  let r ← charCodeAt frame (windowPos x y red)
  let g ← charCodeAt frame (windowPos x y green)
  let b ← charCodeAt frame (windowPos x y blue)
  return .lightWindow x y r g b

/-- The body of the loops over the segments. -/
def drawSegment (frame : List UInt16) (d : Fin width) (s : Fin segments) : Option Call := do
  let r ← charCodeAt frame (segmentPos d s red)
  let g ← charCodeAt frame (segmentPos d s green)
  let b ← charCodeAt frame (segmentPos d s blue)
  return .lightSegment d s r g b

/-- The calls up to the first exception, and whether there was none. -/
def untilThrow : List (Option Call) → List Call × Bool
  | [] => ([], true)
  | none :: _ => ([], false)
  | some call :: rest => (call :: (untilThrow rest).1, (untilThrow rest).2)

/-- The message handler of `connection`. -/
def onMessage (frame : List UInt16) : List Call × Bool :=
  untilThrow
    (((List.finRange height).flatMap fun y => (List.finRange width).map fun x =>
        drawWindow frame x y) ++
      (List.finRange width).flatMap fun d => (List.finRange segments).map fun s =>
        drawSegment frame d s)

end Syndilights.Displayclient.Visionneuse
