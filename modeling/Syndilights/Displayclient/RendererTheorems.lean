import Syndilights.Displayclient.Renderer
import Syndilights.Frameserver.SnapshotTheorems

/-!
# The desktop viewer reads beside the frame

The viewer reads the values one after the other, but the server sends them behind a header
and with a newline behind each row. Every value is thus read from the place of an earlier
one; a single frame is its own echo.
-/

namespace Syndilights.Displayclient.Renderer

open Frameserver ForLoop
open Server (send datagram payload serialise windowLoop segmentLoop)

/-! ## What the loops read -/

section
variable (recv_buf : Fin length → UInt8) (frame : Frame)

lemma copyFrame_loops : copyFrame recv_buf frame
    = segmentLoop (fun _ p => recv_buf ⟨_, segment_lt p.1 p.2.1 p.2.2⟩)
        (windowLoop (fun _ p => recv_buf ⟨_, window_lt p.1 p.2.1 p.2.2⟩) frame) := rfl

lemma windows_copyFrame (p : WindowIdx) :
    (copyFrame recv_buf frame).windows p = recv_buf ⟨_, window_lt p.1 p.2.1 p.2.2⟩ := by
  rw [copyFrame_loops, Server.windows_segmentLoop]
  exact Server.windows_windowLoop (g := fun _ => recv_buf ⟨_, window_lt p.1 p.2.1 p.2.2⟩)
    (fun _ => rfl) _

lemma segments_copyFrame (p : SegmentIdx) :
    (copyFrame recv_buf frame).segments p = recv_buf ⟨_, segment_lt p.1 p.2.1 p.2.2⟩ := by
  rw [copyFrame_loops]
  exact Server.segments_segmentLoop (g := fun _ => recv_buf ⟨_, segment_lt p.1 p.2.1 p.2.2⟩)
    (fun _ => rfl) _

end

/-! ## What the server sends there -/

/-- The values of a frame in the order of the viewer: the windows, then the segments. -/
def value (frame : Frame) (p : ℕ) : UInt8 :=
  if p < 384 then
    frame.windows (⟨p / 48 % 8, Nat.mod_lt _ (by decide)⟩,
      ⟨p % 48 / 4 % 12, Nat.mod_lt _ (by decide)⟩, ⟨p % 4 % 4, Nat.mod_lt _ (by decide)⟩)
  else
    frame.segments (⟨(p - 384) / 32 % 12, Nat.mod_lt _ (by decide)⟩,
      ⟨(p - 384) % 32 / 4 % 8, Nat.mod_lt _ (by decide)⟩, ⟨p % 4 % 4, Nat.mod_lt _ (by decide)⟩)

/-- The bytes of the server: zeros, and the values with a newline behind each row. -/
def layout (v : ℕ → UInt8) (p : ℕ) : UInt8 :=
  if p < 12 then 0
  else if p < 404 then
    if (p - 12) % 49 = 48 then 10 else v ((p - 12) / 49 * 48 + (p - 12) % 49)
  else if (p - 404) % 33 = 32 then 10 else v (384 + (p - 404) / 33 * 32 + (p - 404) % 33)

/-- A byte is an earlier value. -/
lemma layout_congr {v w : ℕ → UInt8} {p : ℕ} (h : ∀ q < p, v q = w q) :
    layout v p = layout w p := by
  unfold layout
  split_ifs
  · rfl
  · rfl
  · exact h _ (by omega)
  · rfl
  · exact h _ (by omega)

section
variable (v : ℕ → UInt8) {i r : ℕ}

/-- The values of a row of windows are in the order of the viewer. -/
lemma layout_window (hi : i < 8) (hr : r < 48) : layout v (12 + (i * 49 + r)) = v (i * 48 + r) := by
  have hdiv : (12 + (i * 49 + r) - 12) / 49 = i := by omega
  have hmod : (12 + (i * 49 + r) - 12) % 49 = r := by omega
  rw [layout, if_neg (by omega), if_pos (by omega), hmod, if_neg (by omega), hdiv]

lemma layout_window_newline (hi : i < 8) : layout v (12 + (i * 49 + 48)) = 10 := by
  rw [layout, if_neg (by omega), if_pos (by omega), if_pos (by omega)]

/-- The values of a row of segments are in the order of the viewer. -/
lemma layout_segment (hr : r < 32) : layout v (404 + (i * 33 + r)) = v (384 + i * 32 + r) := by
  have hdiv : (404 + (i * 33 + r) - 404) / 33 = i := by omega
  have hmod : (404 + (i * 33 + r) - 404) % 33 = r := by omega
  rw [layout, if_neg (by omega), if_neg (by omega), hmod, if_neg (by omega), hdiv]

lemma layout_segment_newline : layout v (404 + (i * 33 + 32)) = 10 := by
  rw [layout, if_neg (by omega), if_neg (by omega), if_pos (by omega)]

end

section
variable (frame : Frame)

lemma value_window (i : Fin HEIGHT) (j : Fin WIDTH) (a : Fin CHANNELS) :
    value frame (i * (CHANNELS * WIDTH) + j * CHANNELS + a) = frame.windows (i, j, a) := by
  have hi : i.val < 8 := i.isLt
  have hj : j.val < 12 := j.isLt
  have ha : a.val < 4 := a.isLt
  change value frame (i.val * 48 + j.val * 4 + a.val) = _
  rw [value, if_pos (by omega)]
  congr 1
  refine Prod.ext (Fin.ext ?_) (Prod.ext (Fin.ext ?_) (Fin.ext ?_))
  · change (i.val * 48 + j.val * 4 + a.val) / 48 % 8 = i.val
    omega
  · change (i.val * 48 + j.val * 4 + a.val) % 48 / 4 % 12 = j.val
    omega
  · change (i.val * 48 + j.val * 4 + a.val) % 4 % 4 = a.val
    omega

lemma value_segment (w : Fin SEGWIDTH) (n : Fin SEGNUM) (a : Fin SEGCHANNELS) :
    value frame (WIDTH * HEIGHT * CHANNELS + w * (SEGCHANNELS * SEGNUM) + n * SEGCHANNELS + a)
      = frame.segments (w, n, a) := by
  have hw : w.val < 12 := w.isLt
  have hn : n.val < 8 := n.isLt
  have ha : a.val < 4 := a.isLt
  change value frame (384 + w.val * 32 + n.val * 4 + a.val) = _
  rw [value, if_neg (by omega)]
  congr 1
  refine Prod.ext (Fin.ext ?_) (Prod.ext (Fin.ext ?_) (Fin.ext ?_))
  · change (384 + w.val * 32 + n.val * 4 + a.val - 384) / 32 % 12 = w.val
    omega
  · change (384 + w.val * 32 + n.val * 4 + a.val - 384) % 32 / 4 % 8 = n.val
    omega
  · change (384 + w.val * 32 + n.val * 4 + a.val) % 4 % 4 = a.val
    omega

/-- The bytes that `send` lays out. -/
lemma serialise_eq_layout (p : Fin send.length) :
    serialise frame (fun _ => 0) p = layout (value frame) p := by
  by_cases hp : p.val < HEADEROFFSET
  · rw [Server.serialise_header _ _ hp, layout, if_pos hp]
  · rcases Server.exists_cell (not_lt.mp hp) with
      (⟨i, j, a, rfl⟩ | ⟨i, rfl⟩) | ⟨w, n, a, rfl⟩ | ⟨w, rfl⟩
    · rw [Server.serialise_window, Server.val_windowCell, Nat.add_assoc (_ * 49),
        layout_window _ i.isLt (Server.window_row_lt j a), ← Nat.add_assoc]
      exact (value_window frame i j a).symm
    · rw [Server.serialise_window_newline, Server.val_windowClose]
      exact (layout_window_newline _ i.isLt).symm
    · rw [Server.serialise_segment, Server.val_segmentCell, Nat.add_assoc (_ * 33),
        layout_segment _ (Server.segment_row_lt n a), ← Nat.add_assoc]
      exact (value_segment frame w n a).symm
    · rw [Server.serialise_segment_newline, Server.val_segmentClose]
      exact (layout_segment_newline _).symm

/-- The buffer of the viewer. -/
lemma fill_payload (recv_buf : Fin length → UInt8) (k : Fin length) :
    fill (payload frame) recv_buf k = layout (value frame) k := by
  have hk : k.val < send.length := lt_of_lt_of_le k.isLt (by decide)
  rw [fill, payload, List.getD_eq_getElem?_getD, List.getElem?_ofFn, dif_pos hk,
    Option.getD_some, serialise_eq_layout]

/-- Every place belongs to a window or to a segment. -/
lemma exists_place {p : ℕ} (hp : p < 768) :
    (∃ (i : Fin HEIGHT) (j : Fin WIDTH) (a : Fin CHANNELS),
      p = i * (CHANNELS * WIDTH) + j * CHANNELS + a) ∨
    ∃ (w : Fin SEGWIDTH) (n : Fin SEGNUM) (a : Fin SEGCHANNELS),
      p = WIDTH * HEIGHT * CHANNELS + w * (SEGCHANNELS * SEGNUM) + n * SEGCHANNELS + a := by
  by_cases hwindow : p < 384
  · left
    have hi : p / 48 < 8 := by omega
    have hj : p % 48 / 4 < 12 := by omega
    have ha : p % 4 < 4 := by omega
    refine ⟨⟨_, hi⟩, ⟨_, hj⟩, ⟨_, ha⟩, ?_⟩
    change p = p / 48 * 48 + p % 48 / 4 * 4 + p % 4
    omega
  · right
    have hw : (p - 384) / 32 < 12 := by omega
    have hn : (p - 384) % 32 / 4 < 8 := by omega
    have ha : (p - 384) % 4 < 4 := by omega
    refine ⟨⟨_, hw⟩, ⟨_, hn⟩, ⟨_, ha⟩, ?_⟩
    change p = 384 + (p - 384) / 32 * 32 + (p - 384) % 32 / 4 * 4 + (p - 384) % 4
    omega

/-- A frame is given by its values. -/
lemma agree_iff (v : ℕ → UInt8) :
    ((fun q : WindowIdx => v (q.1 * (CHANNELS * WIDTH) + q.2.1 * CHANNELS + q.2.2)) = frame.windows ∧
      (fun q : SegmentIdx => v (WIDTH * HEIGHT * CHANNELS + q.1 * (SEGCHANNELS * SEGNUM)
        + q.2.1 * SEGCHANNELS + q.2.2)) = frame.segments) ↔
    ∀ p < 768, v p = value frame p := by
  constructor
  · rintro ⟨hwindows, hsegments⟩ p hp
    rcases exists_place hp with ⟨i, j, a, rfl⟩ | ⟨w, n, a, rfl⟩
    · rw [value_window]
      exact congrFun hwindows (i, j, a)
    · rw [value_segment]
      exact congrFun hsegments (w, n, a)
  · intro hall
    constructor
    · funext q
      rw [hall _ (window_lt q.1 q.2.1 q.2.2), value_window]
    · funext q
      rw [hall _ (segment_lt q.1 q.2.1 q.2.2), value_segment]

end

/-! ## The frame that is its own echo -/

/-- The value that is read from the place of an earlier one, and so on, down to a zero of the
header or a newline. -/
def echo (p : ℕ) : UInt8 :=
  if p < 12 then 0
  else if p < 404 then
    if (p - 12) % 49 = 48 then 10 else echo ((p - 12) / 49 * 48 + (p - 12) % 49)
  else if (p - 404) % 33 = 32 then 10 else echo (384 + (p - 404) / 33 * 32 + (p - 404) % 33)
termination_by p
decreasing_by all_goals omega

/-- A frame of zeros and tens. -/
def echoFrame : Frame where
  z := 0
  windows q := echo (q.1 * (CHANNELS * WIDTH) + q.2.1 * CHANNELS + q.2.2)
  segments q := echo (WIDTH * HEIGHT * CHANNELS + q.1 * (SEGCHANNELS * SEGNUM)
    + q.2.1 * SEGCHANNELS + q.2.2)

lemma echo_eq (p : ℕ) : echo p = layout echo p := by
  rw [echo]
  rfl

/-- Values that are laid out where they are read are the echo. -/
lemma layout_eq_iff (v : ℕ → UInt8) :
    (∀ p < 768, layout v p = v p) ↔ ∀ p < 768, echo p = v p := by
  constructor
  · intro hall p hp
    induction p using Nat.strong_induction_on with
    | h p ih =>
      rw [echo_eq, ← hall p hp]
      exact layout_congr fun q hq => ih q hq (by omega)
  · intro hall p hp
    rw [← hall p hp, echo_eq]
    exact layout_congr fun q hq => (hall q (by omega)).symm

/-- **When the desktop viewer decodes what the frameserver sends.** In every run of the server,
whatever is in the buffer of the viewer, exactly for the one frame that is its own echo. -/
theorem listen_decodes_iff (raw : Uninit) (turns : List Server.Turn) (t : Server.Threads)
    (hrun : ActionSystem.run Server.turn (Server.launch_threads raw) turns = some t)
    (recv_buf : Fin length → UInt8) (frame : Frame) :
    ((listen recv_buf (datagram (send t.server)) frame).windows = t.server.frame.windows ∧
      (listen recv_buf (datagram (send t.server)) frame).segments = t.server.frame.segments) ↔
    t.server.frame.windows = echoFrame.windows ∧ t.server.frame.segments = echoFrame.segments := by
  have hzero := (Server.fromMix_run hrun).2
  have hwindows : (listen recv_buf (datagram (send t.server)) frame).windows = fun q : WindowIdx =>
      layout (value t.server.frame)
        (q.1 * (CHANNELS * WIDTH) + q.2.1 * CHANNELS + q.2.2) := by
    funext q
    rw [listen, windows_copyFrame, Server.datagram_send hzero, fill_payload]
  have hsegments : (listen recv_buf (datagram (send t.server)) frame).segments
      = fun q : SegmentIdx => layout (value t.server.frame) (WIDTH * HEIGHT * CHANNELS
        + q.1 * (SEGCHANNELS * SEGNUM) + q.2.1 * SEGCHANNELS + q.2.2) := by
    funext q
    rw [listen, segments_copyFrame, Server.datagram_send hzero, fill_payload]
  rw [hwindows, hsegments, agree_iff, layout_eq_iff, ← agree_iff]
  exact and_congr eq_comm eq_comm

/-- A server that mixes without any source. -/
def mixedBlack : Server.Threads := ⟨(Server.init default).mix Float32, true⟩

/-- Its black frame is not decoded, since the echo has a 10 in it. -/
theorem listen_decodes_iff_black :
    ¬ ((listen (fun _ => 0) (datagram (send mixedBlack.server)) default).windows
        = mixedBlack.server.frame.windows ∧
      (listen (fun _ => 0) (datagram (send mixedBlack.server)) default).segments
        = mixedBlack.server.frame.segments) := by
  apply (listen_decodes_iff default [.mix] mixedBlack rfl (fun _ => 0) default).not.mpr
  rintro ⟨hwindows, -⟩
  have hecho : echoFrame.windows (1, 3, 0) = 10 := echo_eq 60
  have hblack : mixedBlack.server.frame.windows (1, 3, 0) = 0 := by
    show (Server.mixFrame Float32 [] _).windows _ = 0
    rw [Server.windows_mixFrame]
    rfl
  rw [← hwindows, hblack] at hecho
  exact absurd hecho (by decide)

/-- The newline behind the first row of the black frame is read as a red value. -/
theorem newline_read_as_red :
    ActionSystem.run Server.turn (Server.launch_threads default) [.mix] = some mixedBlack ∧
    mixedBlack.server.frame.windows (1, 3, 0) = 0 ∧
    (listen (fun _ => 0) (datagram (send mixedBlack.server)) default).windows (1, 3, 0) = 10 := by
  have hzero : Server.ZeroHeader mixedBlack.server := fun _ _ => rfl
  refine ⟨rfl, ?_, ?_⟩
  · show (Server.mixFrame Float32 [] _).windows _ = 0
    rw [Server.windows_mixFrame]
    rfl
  · rw [listen, windows_copyFrame, Server.datagram_send hzero, fill_payload]
    rfl

end Syndilights.Displayclient.Renderer
