import Mathlib.Tactic

/-!
# The client library

`s2llib.py`: the canvas of a client and the packet that `draw` sends. A Python 2 string is
a list of bytes; an exception is `none`. The dimensions that the constructor fixes are
parameters of the canvas, so that its two tables have them by construction.
-/

namespace Syndilights.Clients

/-- `dict(s=…, r=…, g=…, b=…, a=…)`. -/
structure Cell where
  s : ℤ
  r : ℤ
  g : ℤ
  b : ℤ
  a : ℤ
deriving DecidableEq

/-- `segments_in_window`. -/
abbrev segments_in_window : ℕ := 8

/-- `syndelights_canvas`. -/
structure Canvas (width height segmented_windows_num : ℕ) where
  hash_passcode : List UInt8
  zed_buffer : ℤ
  window_data : Fin height → Fin width → Cell
  segmented_windows : Fin segmented_windows_num → Fin segments_in_window → Cell

/-- `chr`, which raises `ValueError` outside of 0..255. -/
def chr (i : ℤ) : Option UInt8 :=
  if 0 ≤ i ∧ i ≤ 255 then some i.toNat.toUInt8 else none

/-- Convert `[r, g, b, a]` into a 4 character string. -/
def int2chr (rgba_dict : Cell) : Option (List UInt8) := do
  let r ← chr rgba_dict.r
  let g ← chr rgba_dict.g
  let b ← chr rgba_dict.b
  let a ← chr rgba_dict.a
  return [r] ++ [g] ++ [b] ++ [a]

/-- One of the two loop nests of `draw`: rows of cells, each closed by a newline. -/
def package {n m : ℕ} (cells : Fin n → Fin m → Cell) (data : List UInt8) :
    Option (List UInt8) :=
  (List.finRange n).foldlM (fun data y => do
    let data ← (List.finRange m).foldlM (fun data x => do
      return data ++ (← int2chr (cells y x))) data
    return data ++ [10]) data

namespace Canvas

variable {width height segmented_windows_num : ℕ}

/-- `reset_windows`. -/
def reset_windows (c : Canvas width height segmented_windows_num)
    (state red green blue alpha : ℤ) : Canvas width height segmented_windows_num :=
  { c with window_data := fun _ _ => ⟨state, red, green, blue, alpha⟩ }

/-- `reset_segment_windows`. -/
def reset_segment_windows (c : Canvas width height segmented_windows_num)
    (state red green blue alpha : ℤ) : Canvas width height segmented_windows_num :=
  { c with segmented_windows := fun _ _ => ⟨state, red, green, blue, alpha⟩ }

/-- `__init__`. -/
def new (hpc : List UInt8) (zb : ℤ) (w h seg_wins : ℕ) : Canvas w h seg_wins :=
  let zero : Cell := ⟨0, 0, 0, 0, 0⟩
  let c : Canvas w h seg_wins := ⟨hpc, zb, fun _ _ => zero, fun _ _ => zero⟩
  (c.reset_windows 0 127 127 127 255).reset_segment_windows 0 127 127 127 255

/-- The string that `draw` sends. -/
def draw (c : Canvas width height segmented_windows_num) : Option (List UInt8) := do
  -- prep header with hash, z-buffer and new line
  let z ← chr c.zed_buffer
  let data := c.hash_passcode ++ [z] ++ [10]
  -- package window data, then segment data
  let data ← package c.window_data data
  package c.segmented_windows data

/-- `self.window_data[y][x][…] = …`. -/
def setWindow (c : Canvas width height segmented_windows_num) (x : Fin width) (y : Fin height)
    (f : Cell → Cell) : Canvas width height segmented_windows_num :=
  { c with
    window_data := Function.update c.window_data y
      (Function.update (c.window_data y) x (f (c.window_data y x))) }

/-- `setwin_xy_sval`, for a window of the canvas. -/
def setwin_xy_sval (c : Canvas width height segmented_windows_num) (x : Fin width)
    (y : Fin height) (col : String) (val : ℤ) : Canvas width height segmented_windows_num :=
  if col = "s" then c.setWindow x y fun cell => { cell with s := val }
  else if col = "r" then c.setWindow x y fun cell => { cell with r := val }
  else if col = "g" then c.setWindow x y fun cell => { cell with r := val }
  else if col = "b" then c.setWindow x y fun cell => { cell with r := val }
  else if col = "a" then c.setWindow x y fun cell => { cell with r := val }
  else c

end Canvas

end Syndilights.Clients
