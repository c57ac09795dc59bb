import Syndilights.Clients.S2llibTheorems

/-!
# Setting one channel

What `setwin_xy_sval` changes in the packet. Its branches for green, blue and alpha write
the red channel.
-/

namespace Syndilights.Clients

open Frameserver

namespace Canvas

variable {width height seg_wins : ℕ} {c : Canvas width height seg_wins} {x : Fin width}
  {y : Fin height} {val : ℤ}

/-! ## The red channel -/

/-- The canvas with another red value in one window. -/
def setRed (c : Canvas width height seg_wins) (x : Fin width) (y : Fin height) (val : ℤ) :
    Canvas width height seg_wins :=
  c.setWindow x y fun cell => { cell with r := val }

lemma setRed_self :
    (c.setRed x y val).window_data y x = { c.window_data y x with r := val } := by
  show Function.update c.window_data y _ y x = _
  rw [Function.update_self, Function.update_self]

lemma setRed_other_column {x' : Fin width} (h : x' ≠ x) :
    (c.setRed x y val).window_data y x' = c.window_data y x' := by
  show Function.update c.window_data y _ y x' = _
  rw [Function.update_self, Function.update_of_ne h]

lemma setRed_other_row {y' : Fin height} (h : y' ≠ y) (x : Fin width) (val : ℤ) :
    (c.setRed x y val).window_data y' = c.window_data y' := by
  show Function.update c.window_data y _ y' = _
  rw [Function.update_of_ne h]

lemma inRange_setRed (hc : c.InRange) (hval : IsByte val) : (c.setRed x y val).InRange where
  zed_buffer := hc.zed_buffer
  windows y' x' := by
    by_cases hy : y' = y
    · subst hy
      by_cases hx : x' = x
      · subst hx
        rw [setRed_self]
        have hcell := hc.windows y' x'
        intro k
        match k with
        | 0 => exact hval
        | 1 => exact hcell 1
        | 2 => exact hcell 2
        | 3 => exact hcell 3
      · rw [setRed_other_column hx]
        exact hc.windows y' x'
    · rw [setRed_other_row hy]
      exact hc.windows y' x'
  segments := hc.segments

/-- The place of the window in the packet. -/
def cellOffset (c : Canvas width height seg_wins) (x : Fin width) (y : Fin height) : ℕ :=
  c.hash_passcode.length + 2 + (y * (width * 4 + 1) + x * 4)

/-- A row with another red value. -/
lemma row_setRed : row ((c.setRed x y val).window_data y)
    = (row (c.window_data y)).set (x * 4) (byte val) := by
  have hx := x.isLt
  have hchars : ((c.setRed x y val).window_data y x).chars
      = ((c.window_data y x).chars).set 0 (byte val) := by
    rw [setRed_self]
    rfl
  have hcells := Strided.flatMap_finRange_set (fun x => (c.window_data y x).length_chars) x
    (by decide : 0 < 4) hchars
    (fun x' h => congrArg Cell.chars (setRed_other_column h))
  rw [row, row, hcells, Nat.add_zero, List.set_append_left]
  rw [Strided.length_flatMap fun x _ => (c.window_data y x).length_chars, List.length_finRange]
  omega

/-- One byte of the packet changes. -/
lemma packet_setRed : (c.setRed x y val).packet = c.packet.set (c.cellOffset x y) (byte val) := by
  have hx := x.isLt
  have hrows := Strided.flatMap_finRange_set (fun y => length_row (c.window_data y)) y
    (show x * 4 < width * 4 + 1 by omega) row_setRed
    (fun y' h => congrArg row (setRed_other_row h x val))
  have hheader := c.length_header_add
  have hinside : y * (width * 4 + 1) + x * 4 < height * (width * 4 + 1) := by
    have hle : (y + 1) * (width * 4 + 1) ≤ height * (width * 4 + 1) :=
      Nat.mul_le_mul_right _ y.isLt
    rw [Nat.add_mul] at hle
    omega
  rw [packet, packet, hrows, cellOffset, List.set_append_left, List.set_append_right, hheader,
    Nat.add_sub_cancel_left]
  · rfl
  · rw [hheader]
    omega
  · rw [List.length_append, hheader, length_rows]
    omega

/-! ## Every channel -/

/-- The names of the channels, in the order in which they are sent. -/
def rgba : Fin CHANNELS → String := ![ "r", "g", "b", "a"]

/-- `draw` sends a packet before and after the setter, and the two differ at most in the byte
of this channel, which then is the value. -/
def SetsItsByte (c : Canvas width height seg_wins) (x : Fin width) (y : Fin height)
    (k : Fin CHANNELS) (val : ℤ) : Prop :=
  ∃ before after, c.draw = some before ∧ (c.setwin_xy_sval x y (rgba k) val).draw = some after ∧
    before.length = after.length ∧
    (∀ i, i ≠ 12 + y * (4 * width + 1) + 4 * x + k → after[i]? = before[i]?) ∧
    after[12 + y * (4 * width + 1) + 4 * x + k]? = some (byte val)

/-- The state of a window is not sent. -/
lemma draw_set_state : (c.setwin_xy_sval x y "s" val).draw = c.draw := by
  have hcell (y' : Fin height) (x' : Fin width) :
      int2chr ((c.setwin_xy_sval x y "s" val).window_data y' x')
        = int2chr (c.window_data y' x') := by
    show int2chr (Function.update c.window_data y _ y' x') = _
    by_cases hy : y' = y
    · subst hy
      rw [Function.update_self]
      by_cases hx : x' = x
      · subst hx
        rw [Function.update_self]
        rfl
      · rw [Function.update_of_ne hx]
    · rw [Function.update_of_ne hy]
  have hwindows (data : List UInt8) :
      package (c.setwin_xy_sval x y "s" val).window_data data = package c.window_data data := by
    unfold package
    simp only [hcell]
  unfold draw
  simp only [hwindows]
  rfl

/-- Every channel is set as red. -/
lemma setwin_rgba (k : Fin CHANNELS) : c.setwin_xy_sval x y (rgba k) val = c.setRed x y val := by
  unfold setwin_xy_sval
  match k with
  | 0 => rfl
  | 1 => rfl
  | 2 => rfl
  | 3 => rfl

/-- The byte of a channel in the packet. -/
lemma getElem?_cellOffset (k : Fin CHANNELS) :
    c.packet[c.cellOffset x y + k]? = some (byte ((c.window_data y x).channel k)) := by
  have hcell := c.getElem?_packet_cell y x k
  rw [← Nat.add_assoc (y * _), ← Nat.add_assoc] at hcell
  exact hcell

lemma cellOffset_lt : c.cellOffset x y < c.packet.length :=
  (List.getElem?_eq_some_iff.mp (c.getElem?_cellOffset 0)).1

section
variable (hash : c.hash_passcode.length = 10)
include hash

/-- The offsets are those behind a header of twelve bytes. -/
lemma offset_eq (k : Fin CHANNELS) :
    12 + y * (4 * width + 1) + 4 * x + k = c.cellOffset x y + k := by
  rw [cellOffset, hash, Nat.mul_comm 4 width, Nat.mul_comm 4]
  omega

/-- Setting red sets the byte of red. -/
lemma setsItsByte_red (hc : c.InRange) (hval : IsByte val) : c.SetsItsByte x y 0 val := by
  have hoffset := offset_eq (x := x) (y := y) hash 0
  refine ⟨c.packet, (c.setRed x y val).packet, draw_eq_packet hc, ?_, ?_, ?_, ?_⟩
  · rw [setwin_rgba]
    exact draw_eq_packet (inRange_setRed hc hval)
  · rw [packet_setRed, List.length_set]
  · intro i hi
    rw [hoffset] at hi
    rw [packet_setRed]
    exact List.getElem?_set_ne fun h => hi h.symm
  · rw [hoffset, packet_setRed]
    exact List.getElem?_set_self c.cellOffset_lt

/-- Another channel, exactly when there is nothing to change. -/
lemma setsItsByte_other (hc : c.InRange) (hval : IsByte val) {k : Fin CHANNELS} (hk : k ≠ 0) :
    c.SetsItsByte x y k val ↔
      (c.window_data y x).channel 0 = val ∧ (c.window_data y x).channel k = val := by
  have hoffset := offset_eq (x := x) (y := y) hash k
  have hne : c.cellOffset x y ≠ c.cellOffset x y + k := by
    have hpos : k.val ≠ 0 := fun h => hk (Fin.ext h)
    omega
  have hcell := hc.windows y x
  have hred : c.packet[c.cellOffset x y]? = some (byte ((c.window_data y x).channel 0)) :=
    c.getElem?_cellOffset 0
  constructor
  · rintro ⟨before, after, hbefore, hafter, -, hother, hbyte⟩
    rw [draw_eq_packet hc, Option.some.injEq] at hbefore
    rw [setwin_rgba, draw_eq_packet (inRange_setRed hc hval), packet_setRed,
      Option.some.injEq] at hafter
    subst hbefore hafter
    rw [hoffset] at hother hbyte
    have hsame := hother _ hne
    rw [List.getElem?_set_self c.cellOffset_lt, hred, Option.some.injEq] at hsame
    rw [List.getElem?_set_ne hne, getElem?_cellOffset, Option.some.injEq] at hbyte
    exact ⟨(byte_injective hval (hcell 0) hsame).symm, byte_injective (hcell k) hval hbyte⟩
  · rintro ⟨hzero, hvalue⟩
    -- the red byte is written with what it holds
    have hsame : (c.setRed x y val).packet = c.packet := by
      have hget := (List.getElem?_eq_some_iff.mp hred).2
      rw [packet_setRed, ← hzero, ← hget, List.set_getElem_self]
    refine ⟨c.packet, c.packet, draw_eq_packet hc, ?_, rfl, fun i _ => rfl, ?_⟩
    · rw [setwin_rgba, draw_eq_packet (inRange_setRed hc hval), hsame]
    · rw [hoffset, getElem?_cellOffset, hvalue]

end

/-- **When setting a channel sets its byte.** Setting the state changes no byte. Setting a
channel changes its byte alone, exactly if the channel is red, or red and the channel have
the value already. -/
theorem setwin_xy_sval_iff {c : Canvas width height seg_wins}
    (hash : c.hash_passcode.length = 10) (hc : c.InRange) (x : Fin width) (y : Fin height)
    {val : ℤ} (hval : IsByte val) :
    (c.setwin_xy_sval x y "s" val).draw = c.draw ∧
    ∀ k : Fin CHANNELS, c.SetsItsByte x y k val ↔
      rgba k = "r" ∨
        (c.window_data y x).channel 0 = val ∧ (c.window_data y x).channel k = val := by
  refine ⟨draw_set_state, fun k => ?_⟩
  by_cases hk : k = 0
  · subst hk
    exact iff_of_true (setsItsByte_red hash hc hval) (Or.inl rfl)
  · have hname : rgba k ≠ "r" := by
      match k with
      | 0 => exact absurd rfl hk
      | 1 => decide
      | 2 => decide
      | 3 => decide
    rw [or_iff_right hname]
    exact setsItsByte_other hash hc hval hk

/-- One grey window. -/
def oneWindow : Canvas 1 1 0 := new (List.replicate 10 0) 1 1 1 0

lemma inRange_oneWindow : oneWindow.InRange := by
  have hgrey : ∀ k, IsByte (Cell.channel ⟨0, 127, 127, 127, 255⟩ k) := by decide
  exact ⟨by decide, fun _ _ => hgrey, fun _ _ => hgrey⟩

/-- Red can be set to 5 and green cannot; green can be set to the grey that it has. -/
theorem setwin_xy_sval_iff_oneWindow :
    (oneWindow.setwin_xy_sval 0 0 "s" 5).draw = oneWindow.draw ∧
      oneWindow.SetsItsByte 0 0 0 5 ∧ ¬ oneWindow.SetsItsByte 0 0 1 5 ∧
      oneWindow.SetsItsByte 0 0 1 127 := by
  have hfive := setwin_xy_sval_iff rfl inRange_oneWindow 0 0 (show IsByte 5 by decide)
  have hgrey := setwin_xy_sval_iff rfl inRange_oneWindow 0 0 (show IsByte 127 by decide)
  refine ⟨hfive.1, (hfive.2 0).mpr (Or.inl rfl), (hfive.2 1).not.mpr (by decide), ?_⟩
  exact (hgrey.2 1).mpr (Or.inr ⟨rfl, rfl⟩)

/-- Setting green to 5 writes the byte of red. -/
theorem green_sets_red : ¬ oneWindow.SetsItsByte 0 0 1 5 := by
  rintro ⟨before, after, hbefore, hafter, -, hother, -⟩
  have hred := hother 12 (by decide)
  obtain rfl := Option.some.inj hbefore
  obtain rfl := Option.some.inj hafter
  exact absurd hred (by decide)

end Canvas
end Syndilights.Clients
