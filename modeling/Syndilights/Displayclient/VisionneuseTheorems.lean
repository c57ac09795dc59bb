import Syndilights.Displayclient.Visionneuse

/-!
# What the viewer draws

A string that is long enough is drawn without an exception, every window and every segment
in the colours at its positions.
-/

namespace Syndilights.Displayclient.Visionneuse

/-- The call that draws a window in the colours at its positions. -/
def windowCall (colour : ℕ → UInt16) (x : Fin width) (y : Fin height) : Call :=
  .lightWindow x y (colour (windowPos x y red)) (colour (windowPos x y green))
    (colour (windowPos x y blue))

/-- The call that draws a segment in the colours at its positions. -/
def segmentCall (colour : ℕ → UInt16) (d : Fin width) (s : Fin segments) : Call :=
  .lightSegment d s (colour (segmentPos d s red)) (colour (segmentPos d s green))
    (colour (segmentPos d s blue))

/-- Every window and every segment, in the order of the loops. -/
def allCalls (colour : ℕ → UInt16) : List Call :=
  ((List.finRange height).flatMap fun y => (List.finRange width).map fun x =>
      windowCall colour x y) ++
    (List.finRange width).flatMap fun d => (List.finRange segments).map fun s =>
      segmentCall colour d s

lemma windowPos_lt (x : Fin width) (y : Fin height) (c : Fin 3) : windowPos x y c < 800 := by
  have hx : x.val < 12 := x.isLt
  have hy : y.val < 8 := y.isLt
  have hc := c.isLt
  show 12 + y.val * 49 + (x.val * 4 + c.val) < 800
  omega

lemma segmentPos_lt (d : Fin width) (s : Fin segments) (c : Fin 3) : segmentPos d s c < 800 := by
  have hd : d.val < 12 := d.isLt
  have hs : s.val < 8 := s.isLt
  have hc := c.isLt
  show 404 + d.val * 33 + s.val * 4 + c.val < 800
  omega

/-- A list without an exception is drawn to its end. -/
lemma untilThrow_map_some (calls : List Call) : untilThrow (calls.map some) = (calls, true) := by
  induction calls with
  | nil => rfl
  | cons call calls ih => rw [List.map_cons, untilThrow, ih]

section
variable {frame : List UInt16} (h : 800 ≤ frame.length)
include h

lemma charCodeAt_of_lt {k : ℕ} (hk : k < 800) :
    charCodeAt frame k = some (frame.getD k 0) := by
  have hlt : k < frame.length := by omega
  rw [charCodeAt, List.getD_eq_getElem?_getD, List.getElem?_eq_getElem hlt, Option.getD_some]

lemma drawWindow_eq (x : Fin width) (y : Fin height) :
    drawWindow frame x y = some (windowCall (frame.getD · 0) x y) := by
  unfold drawWindow
  rw [charCodeAt_of_lt h (windowPos_lt x y red), charCodeAt_of_lt h (windowPos_lt x y green),
    charCodeAt_of_lt h (windowPos_lt x y blue)]
  rfl

lemma drawSegment_eq (d : Fin width) (s : Fin segments) :
    drawSegment frame d s = some (segmentCall (frame.getD · 0) d s) := by
  unfold drawSegment
  rw [charCodeAt_of_lt h (segmentPos_lt d s red), charCodeAt_of_lt h (segmentPos_lt d s green),
    charCodeAt_of_lt h (segmentPos_lt d s blue)]
  rfl

/-- A string of at least 800 code units is drawn completely. -/
theorem onMessage_eq : onMessage frame = (allCalls (frame.getD · 0), true) := by
  have hcalls : ((List.finRange height).flatMap fun y => (List.finRange width).map fun x =>
        drawWindow frame x y) ++
      ((List.finRange width).flatMap fun d => (List.finRange segments).map fun s =>
        drawSegment frame d s) = (allCalls (frame.getD · 0)).map some := by
    simp only [drawWindow_eq h, drawSegment_eq h, allCalls, List.map_append, List.map_flatMap,
      List.map_map]
    rfl
  rw [onMessage, hcalls, untilThrow_map_some]

end

end Syndilights.Displayclient.Visionneuse
