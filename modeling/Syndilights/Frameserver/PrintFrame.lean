import Syndilights.ForLoop
import Syndilights.Frameserver.Defines
import Syndilights.Terminal

/-!
# The frame on the console

`Server::console_printframe` shows the first channel of the windows and the colours of the
segments as characters, `Server::console_printframe_values` the first channel as numbers.
-/

namespace Syndilights.Frameserver.Server
open Terminal

/-- `chars` of `brtoc`. -/
def chars : Fin 11 → Char := ![' ', '.', '_', '-', '~', ':', '+', '*', '#', '@', '\x00']

/-- `Server::brtoc`. -/
def brtoc (br : UInt8) : Char :=
  if br > 124 then
    if br > 202 then
      if br > 228 then chars 9 else chars 8
    else
      if br > 176 then chars 7 else chars 6
  else
    if br > 72 then
      -- this one is never taken
      if br > 124 then chars 5
      else if br > 98 then chars 4
      else chars 3
    else
      if br > 46 then chars 2
      else if br > 20 then chars 1
      else chars 0

/-- `switch(n)`: `(x1, y1)` and `(x2, y2)` of a segment, numbered from bottom to top, clockwise. -/
def segmentPlaces : Fin SEGNUM → (ℕ × ℕ) × (ℕ × ℕ)
  | 0 => ((2, 7), (3, 7))
  | 1 => ((0, 5), (0, 6))
  | 2 => ((2, 4), (3, 4))
  | 3 => ((0, 2), (0, 3))
  | 4 => ((2, 1), (3, 1))
  | 5 => ((4, 2), (4, 3))
  | 6 => ((4, 5), (4, 6))
  | 7 => ((5, 7), (5, 7))

lemma channels_pos : 0 < CHANNELS := by decide

/-- The body of the loops over the windows. -/
def printWindow (frame : Frame) (i : Fin HEIGHT) (j : Fin WIDTH) (s : Screen) : Screen :=
  s.mvprintw (i + 2) j [brtoc (frame.windows (i, j, ⟨0, channels_pos⟩))]

/-- The body of the loops over the segments and their colours. -/
def printSegment (frame : Frame) (w : Fin SEGWIDTH) (n : Fin SEGNUM) (a : Fin (SEGCHANNELS - 1))
    (s : Screen) : Screen :=
  let ((x1, y1), (x2, y2)) := segmentPlaces n
  let c := brtoc (frame.segments (w, n, a.castSucc))
  let s := s.attron (a + 1)
  let s := s.mvprintw (HEIGHT + 2 + a * 8 + y1) (w * 7 + x1) [c]
  let s := s.mvprintw (HEIGHT + 2 + a * 8 + y2) (w * 7 + x2) [c]
  s.attroff

/-- `Server::console_printframe`. -/
def console_printframe (s : Screen) (frame : Frame) : Screen :=
  let s := ForLoop.run₂ HEIGHT WIDTH (printWindow frame) s
  ForLoop.run₃ SEGWIDTH SEGNUM (SEGCHANNELS - 1) (printSegment frame) s

/-- The body of the loops that print values: `" %d "`. -/
def printValue (frame : Frame) (i : Fin HEIGHT) (j : Fin WIDTH) (s : Screen) : Screen :=
  s.mvprintw (i * 2 + 2) (j * 4)
    (' ' :: (Nat.toDigits 10 (frame.windows (i, j, ⟨0, channels_pos⟩)).toNat ++ [' ']))

/-- `Server::console_printframe_values`. -/
def console_printframe_values (s : Screen) (frame : Frame) : Screen :=
  ForLoop.run₂ HEIGHT WIDTH (printValue frame) s

end Syndilights.Frameserver.Server
