import Mathlib.Tactic

/-!
# Frame format of the frameserver

The constants of `defines.h` and its `frame_t`. A C array is a function of its indices;
an assignment to one element is a `Function.update`.
-/

namespace Syndilights.Frameserver

/-! ## Constants -/

/-- Seconds after which a silent source is dropped. -/
abbrev BUFTIMEOUT : ℤ := 2

/-- The number of sources the server accepts. -/
abbrev NUMBUFS : ℕ := 1000

/-- The ten characters every packet starts with, `"s2l\n<8<18 "`. -/
def HASH : List UInt8 :=
  [ 's', '2', 'l', '\n', '<', '8', '<', '1', '8', ' '].map fun c => c.toNat.toUInt8

/-- One byte number + 10 character hash plus newline. -/
abbrev HEADEROFFSET : ℕ := 12

abbrev WIDTH : ℕ := 12
abbrev HEIGHT : ℕ := 8
abbrev CHANNELS : ℕ := 4

abbrev WINDOWOFFSET : ℕ := (WIDTH * CHANNELS + 1) * HEIGHT

abbrev SEGWIDTH : ℕ := 12
abbrev SEGNUM : ℕ := 8
abbrev SEGCHANNELS : ℕ := 4

abbrev BUFLEN : ℕ := HEADEROFFSET + WINDOWOFFSET + (SEGNUM * SEGCHANNELS + 1) * SEGWIDTH

lemma length_HASH : HASH.length = 10 := rfl

/-! ## `frame_t` -/

/-- Index of a channel of a window: row, column, channel. -/
abbrev WindowIdx := Fin HEIGHT × Fin WIDTH × Fin CHANNELS

/-- Index of a channel of a segment: display, segment, channel. -/
abbrev SegmentIdx := Fin SEGWIDTH × Fin SEGNUM × Fin SEGCHANNELS

/-- `struct frame_t`. -/
@[ext]
structure Frame where
  z : UInt8
  windows : WindowIdx → UInt8
  segments : SegmentIdx → UInt8
deriving Inhabited

namespace Frame

/-- `frame.windows[i][j][a] = v`. -/
def setWindow (f : Frame) (i : Fin HEIGHT) (j : Fin WIDTH) (a : Fin CHANNELS) (v : UInt8) :
    Frame :=
  { f with windows := Function.update f.windows (i, j, a) v }

/-- `frame.segments[w][n][a] = v`. -/
def setSegment (f : Frame) (w : Fin SEGWIDTH) (n : Fin SEGNUM) (a : Fin SEGCHANNELS)
    (v : UInt8) : Frame :=
  { f with segments := Function.update f.segments (w, n, a) v }

section
variable (f : Frame) (i : Fin HEIGHT) (j : Fin WIDTH) (w : Fin SEGWIDTH) (n : Fin SEGNUM)
  (a : Fin CHANNELS) (v : UInt8)

@[simp] lemma z_setWindow : (f.setWindow i j a v).z = f.z := rfl
@[simp] lemma segments_setWindow : (f.setWindow i j a v).segments = f.segments := rfl
@[simp] lemma z_setSegment : (f.setSegment w n a v).z = f.z := rfl
@[simp] lemma windows_setSegment : (f.setSegment w n a v).windows = f.windows := rfl

@[simp] lemma windows_setWindow_self : (f.setWindow i j a v).windows (i, j, a) = v :=
  Function.update_self ..

@[simp] lemma segments_setSegment_self : (f.setSegment w n a v).segments (w, n, a) = v :=
  Function.update_self ..

lemma windows_setWindow_of_ne {p : WindowIdx} (h : (i, j, a) ≠ p) :
    (f.setWindow i j a v).windows p = f.windows p :=
  Function.update_of_ne h.symm ..

lemma segments_setSegment_of_ne {p : SegmentIdx} (h : (w, n, a) ≠ p) :
    (f.setSegment w n a v).segments p = f.segments p :=
  Function.update_of_ne h.symm ..

end

end Frame

end Syndilights.Frameserver
