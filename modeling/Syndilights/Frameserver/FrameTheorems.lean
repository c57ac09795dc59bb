import Syndilights.Frameserver.Server
import Syndilights.Strided

/-!
# What the loops of the frameserver compute

One lemma for each region of each loop nest of `Server.cpp`: the copy loops of `listen`,
the write loops of `send` and the blending loops of `mix`, element by element.
-/

namespace Syndilights.Frameserver

open ForLoop

namespace Server

/-! ## Loops over all windows, over all segments -/

/-- Assign to every window channel, in the order of the source's loops. -/
def windowLoop (v : Frame → WindowIdx → UInt8) : Frame → Frame :=
  run₃ HEIGHT WIDTH CHANNELS fun i j a frame => frame.setWindow i j a (v frame (i, j, a))

/-- Assign to every segment channel, in the order of the source's loops. -/
def segmentLoop (v : Frame → SegmentIdx → UInt8) : Frame → Frame :=
  run₃ SEGWIDTH SEGNUM SEGCHANNELS fun w n a frame => frame.setSegment w n a (v frame (w, n, a))

section
variable (v : Frame → WindowIdx → UInt8) (v' : Frame → SegmentIdx → UInt8) (frame : Frame)

@[simp] lemma z_windowLoop : (windowLoop v frame).z = frame.z :=
  run₃_frame Frame.z (fun i j a f => Frame.z_setWindow f i j a _) frame

@[simp] lemma segments_windowLoop : (windowLoop v frame).segments = frame.segments :=
  run₃_frame Frame.segments (fun i j a f => Frame.segments_setWindow f i j a _) frame

@[simp] lemma z_segmentLoop : (segmentLoop v' frame).z = frame.z :=
  run₃_frame Frame.z (fun w n a f => Frame.z_setSegment f w n a _) frame

@[simp] lemma windows_segmentLoop : (segmentLoop v' frame).windows = frame.windows :=
  run₃_frame Frame.windows (fun w n a f => Frame.windows_setSegment f w n a _) frame

end

/-- A window loop whose assignment at `p` reads only the channel at `p`. -/
lemma windows_windowLoop {v : Frame → WindowIdx → UInt8} {p : WindowIdx} {g : UInt8 → UInt8}
    (hv : ∀ f, v f p = g (f.windows p)) (frame : Frame) :
    (windowLoop v frame).windows p = g (frame.windows p) := by
  rcases p with ⟨i, j, a⟩
  refine run₃_updates (fun f : Frame => f.windows (i, j, a)) g i j a ?_ ?_ frame
  · intro f
    rw [← hv f]
    exact Frame.windows_setWindow_self ..
  · exact fun i' j' a' hne f => Frame.windows_setWindow_of_ne (h := hne) ..

/-- A segment loop whose assignment at `p` reads only the channel at `p`. -/
lemma segments_segmentLoop {v : Frame → SegmentIdx → UInt8} {p : SegmentIdx}
    {g : UInt8 → UInt8} (hv : ∀ f, v f p = g (f.segments p)) (frame : Frame) :
    (segmentLoop v frame).segments p = g (frame.segments p) := by
  rcases p with ⟨w, n, a⟩
  refine run₃_updates (fun f : Frame => f.segments (w, n, a)) g w n a ?_ ?_ frame
  · intro f
    rw [← hv f]
    exact Frame.segments_setSegment_self ..
  · exact fun w' n' a' hne f => Frame.segments_setSegment_of_ne (h := hne) ..

/-! ## The copy loops of `listen` -/

/-- Offset of a window channel in the packet. -/
def recvWindow (p : WindowIdx) : Fin BUFLEN :=
  ⟨HEADEROFFSET + p.1 * (CHANNELS * WIDTH + 1) + p.2.1 * CHANNELS + p.2.2,
    recv_window_lt p.1 p.2.1 p.2.2⟩

/-- Offset of a segment channel in the packet. -/
def recvSegment (p : SegmentIdx) : Fin BUFLEN :=
  ⟨HEADEROFFSET + WINDOWOFFSET + p.1 * (SEGCHANNELS * SEGNUM + 1) + p.2.1 * SEGCHANNELS + p.2.2,
    recv_segment_lt p.1 p.2.1 p.2.2⟩

lemma copyFrame_loops (recv_buf : Fin BUFLEN → UInt8) (frame : Frame) :
    copyFrame recv_buf frame
      = segmentLoop (fun _ p => recv_buf (recvSegment p))
          (windowLoop (fun _ p => recv_buf (recvWindow p))
            { frame with z := recv_buf recvZ }) := rfl

section
variable (recv_buf : Fin BUFLEN → UInt8) (frame : Frame)

/-- `z` is byte 10 of the packet. -/
lemma z_copyFrame : (copyFrame recv_buf frame).z = recv_buf recvZ := by
  rw [copyFrame_loops, z_segmentLoop, z_windowLoop]

/-- The window channels, with the newline that ends each row of the packet skipped. -/
lemma windows_copyFrame (p : WindowIdx) :
    (copyFrame recv_buf frame).windows p = recv_buf (recvWindow p) := by
  rw [copyFrame_loops, windows_segmentLoop]
  exact windows_windowLoop (g := fun _ => recv_buf (recvWindow p)) (fun _ => rfl) _

/-- The segment channels, with the newline that ends each display skipped. -/
lemma segments_copyFrame (p : SegmentIdx) :
    (copyFrame recv_buf frame).segments p = recv_buf (recvSegment p) := by
  rw [copyFrame_loops]
  exact segments_segmentLoop (g := fun _ => recv_buf (recvSegment p)) (fun _ => rfl) _

end

/-- The frame a packet carries. -/
def packetFrame (recv_buf : Fin BUFLEN → UInt8) : Frame where
  z := recv_buf recvZ
  windows p := recv_buf (recvWindow p)
  segments p := recv_buf (recvSegment p)

/-- The loops overwrite the whole frame: nothing of its previous content is left. -/
lemma copyFrame_eq (recv_buf : Fin BUFLEN → UInt8) (frame : Frame) :
    copyFrame recv_buf frame = packetFrame recv_buf := by
  refine Frame.ext ?_ (funext fun p => ?_) (funext fun p => ?_)
  · exact z_copyFrame recv_buf frame
  · exact windows_copyFrame recv_buf frame p
  · exact segments_copyFrame recv_buf frame p

/-! ## The write loops of `send` -/

/-- Offset of a window channel in the buffer of `send`. -/
def windowCell (i : Fin HEIGHT) (j : Fin WIDTH) (k : Fin CHANNELS) : Fin send.length :=
  ⟨HEADEROFFSET + i * (WIDTH * CHANNELS + 1) + j * CHANNELS + k, send_window_lt i j k⟩

/-- Offset of the newline behind a row of windows. -/
def windowClose (i : Fin HEIGHT) : Fin send.length :=
  ⟨HEADEROFFSET + i * (WIDTH * CHANNELS + 1) + WIDTH * CHANNELS, send_window_newline_lt i⟩

/-- Offset of a segment channel in the buffer of `send`. -/
def segmentCell (i : Fin SEGWIDTH) (j : Fin SEGNUM) (k : Fin SEGCHANNELS) :
    Fin send.length :=
  ⟨HEADEROFFSET + HEIGHT * (WIDTH * CHANNELS + 1) + i * (SEGNUM * SEGCHANNELS + 1)
    + j * SEGCHANNELS + k, send_segment_lt i j k⟩

/-- Offset of the newline behind a display. -/
def segmentClose (i : Fin SEGWIDTH) : Fin send.length :=
  ⟨HEADEROFFSET + HEIGHT * (WIDTH * CHANNELS + 1) + i * (SEGNUM * SEGCHANNELS + 1)
    + SEGNUM * SEGCHANNELS, send_segment_newline_lt i⟩

section
variable (i i' : Fin HEIGHT) (j j' : Fin WIDTH) (w w' : Fin SEGWIDTH) (n n' : Fin SEGNUM)
  (k k' : Fin CHANNELS)

lemma val_windowCell : (windowCell i j k).val = 12 + (i * 49 + j * 4 + k) := by
  change 12 + i.val * 49 + j.val * 4 + k.val = 12 + (i.val * 49 + j.val * 4 + k.val)
  omega

lemma val_windowClose : (windowClose i).val = 12 + (i * 49 + 48) := by
  change 12 + i.val * 49 + 48 = 12 + (i.val * 49 + 48)
  omega

lemma val_segmentCell : (segmentCell w n k).val = 404 + (w * 33 + n * 4 + k) := by
  change 404 + w.val * 33 + n.val * 4 + k.val = 404 + (w.val * 33 + n.val * 4 + k.val)
  omega

lemma val_segmentClose : (segmentClose w).val = 404 + (w * 33 + 32) := by
  change 404 + w.val * 33 + 32 = 404 + (w.val * 33 + 32)
  omega

/-- A channel of a window has its place before the newline of the row. -/
lemma window_row_lt : j.val * 4 + k.val < 48 := by
  have hj : j.val < 12 := j.isLt
  have hk : k.val < 4 := k.isLt
  omega

/-- A channel of a segment has its place before the newline of the display. -/
lemma segment_row_lt : n.val * 4 + k.val < 32 := by
  have hn : n.val < 8 := n.isLt
  have hk : k.val < 4 := k.isLt
  omega

lemma windowCell_injective (h : windowCell i j k = windowCell i' j' k') :
    (i', j', k') = (i, j, k) := by
  have hk : k.val < 4 := k.isLt
  have hk' : k'.val < 4 := k'.isLt
  have hrow := window_row_lt j k
  have hrow' := window_row_lt j' k'
  rw [Fin.ext_iff, val_windowCell, val_windowCell] at h
  obtain ⟨hi, hj, hk⟩ := Strided.cell_unique (s := 49) (by omega) (by omega) hk hk'
    (Nat.add_left_cancel h)
  rw [Fin.ext hi, Fin.ext hj, Fin.ext hk]

lemma segmentCell_injective (h : segmentCell w n k = segmentCell w' n' k') :
    (w', n', k') = (w, n, k) := by
  have hk : k.val < 4 := k.isLt
  have hk' : k'.val < 4 := k'.isLt
  have hrow := segment_row_lt n k
  have hrow' := segment_row_lt n' k'
  rw [Fin.ext_iff, val_segmentCell, val_segmentCell] at h
  obtain ⟨hw, hn, hk⟩ := Strided.cell_unique (s := 33) (by omega) (by omega) hk hk'
    (Nat.add_left_cancel h)
  rw [Fin.ext hw, Fin.ext hn, Fin.ext hk]

lemma windowCell_ne_windowClose : windowCell i j k ≠ windowClose i' := by
  have hrow := window_row_lt j k
  rw [Ne, Fin.ext_iff, val_windowCell, val_windowClose]
  intro h
  have hpos := Strided.row_unique (show j.val * 4 + k.val < 49 by omega) (show 48 < 49 by omega)
    (show i.val * 49 + (j * 4 + k) = i'.val * 49 + 48 by omega)
  omega

lemma segmentCell_ne_segmentClose : segmentCell w n k ≠ segmentClose w' := by
  have hrow := segment_row_lt n k
  rw [Ne, Fin.ext_iff, val_segmentCell, val_segmentClose]
  intro h
  have hpos := Strided.row_unique (show n.val * 4 + k.val < 33 by omega) (show 32 < 33 by omega)
    (show w.val * 33 + (n * 4 + k) = w'.val * 33 + 32 by omega)
  omega

end

/-- `listen` reads the windows where `send` writes them. -/
lemma recvWindow_eq (p : WindowIdx) : recvWindow p = windowCell p.1 p.2.1 p.2.2 := rfl

/-- `listen` reads the segments where `send` writes them. -/
lemma recvSegment_eq (p : SegmentIdx) : recvSegment p = segmentCell p.1 p.2.1 p.2.2 := rfl

/-- `serialise` lays out the rows of windows, then the displays. -/
lemma serialise_eq (frame : Frame) (data : Fin send.length → UInt8) :
    serialise frame data
      = writeRows SEGWIDTH SEGNUM SEGCHANNELS segmentCell segmentClose
          (fun i j k => frame.segments (i, j, k)) 10
          (writeRows HEIGHT WIDTH CHANNELS windowCell windowClose
            (fun i j k => frame.windows (i, j, k)) 10 data) := rfl

section
variable (frame : Frame) (data : Fin send.length → UInt8)

/-- Below offset 404 the displays write nothing. -/
private lemma segment_rows_frame {p : Fin send.length} (hp : p.val < 404)
    (data : Fin send.length → UInt8) :
    writeRows SEGWIDTH SEGNUM SEGCHANNELS segmentCell segmentClose
      (fun i j k => frame.segments (i, j, k)) 10 data p = data p := by
  refine writeRows_frame (fun i j k => ?_) (fun i => ?_) data
  · rw [Ne, Fin.ext_iff, val_segmentCell]
    omega
  · rw [Ne, Fin.ext_iff, val_segmentClose]
    omega

/-- The first twelve bytes of the buffer are not written. -/
lemma serialise_header {p : Fin send.length} (hp : p.val < HEADEROFFSET) :
    serialise frame data p = data p := by
  have hp12 : p.val < 12 := hp
  rw [serialise_eq, segment_rows_frame frame (by omega)]
  refine writeRows_frame (fun i j k => ?_) (fun i => ?_) data
  · rw [Ne, Fin.ext_iff, val_windowCell]
    omega
  · rw [Ne, Fin.ext_iff, val_windowClose]
    omega

/-- Every window channel is at its offset. -/
lemma serialise_window (i : Fin HEIGHT) (j : Fin WIDTH) (k : Fin CHANNELS) :
    serialise frame data (windowCell i j k) = frame.windows (i, j, k) := by
  have hi : i.val < 8 := i.isLt
  have hrow := window_row_lt j k
  rw [serialise_eq, segment_rows_frame frame (by rw [val_windowCell]; omega)]
  refine writeRows_cell i j k (fun i' j' k' hne heq => ?_) (fun i' => ?_) data
  · exact hne (windowCell_injective i i' j j' k k' heq)
  · exact windowCell_ne_windowClose i i' j k

/-- Every row of windows ends with a newline. -/
lemma serialise_window_newline (i : Fin HEIGHT) :
    serialise frame data (windowClose i) = 10 := by
  have hi : i.val < 8 := i.isLt
  rw [serialise_eq, segment_rows_frame frame (by rw [val_windowClose]; omega)]
  refine writeRows_close i (fun i' j k => ?_) (fun i' hne => ?_) data
  · exact (windowCell_ne_windowClose i' i j k).symm
  · rw [Ne, Fin.ext_iff] at hne ⊢
    rw [val_windowClose, val_windowClose]
    omega

/-- Every segment channel is at its offset. -/
lemma serialise_segment (i : Fin SEGWIDTH) (j : Fin SEGNUM) (k : Fin SEGCHANNELS) :
    serialise frame data (segmentCell i j k) = frame.segments (i, j, k) := by
  rw [serialise_eq]
  refine writeRows_cell i j k (fun i' j' k' hne heq => ?_) (fun i' => ?_) _
  · exact hne (segmentCell_injective i i' j j' k k' heq)
  · exact segmentCell_ne_segmentClose i i' j k

/-- Every display ends with a newline. -/
lemma serialise_segment_newline (i : Fin SEGWIDTH) :
    serialise frame data (segmentClose i) = 10 := by
  rw [serialise_eq]
  refine writeRows_close i (fun i' j k => ?_) (fun i' hne => ?_) _
  · exact (segmentCell_ne_segmentClose i' i j k).symm
  · rw [Ne, Fin.ext_iff] at hne ⊢
    rw [val_segmentClose, val_segmentClose]
    omega

end

/-! ## The blending loops of `mix` -/

lemma zeroFrame_loops (frame : Frame) :
    zeroFrame frame = segmentLoop (fun _ _ => 0) (windowLoop (fun _ _ => 0) frame) := rfl

section
variable (frame : Frame)

lemma windows_zeroFrame (p : WindowIdx) : (zeroFrame frame).windows p = 0 := by
  rw [zeroFrame_loops, windows_segmentLoop]
  exact windows_windowLoop (g := fun _ => 0) (fun _ => rfl) frame

lemma segments_zeroFrame (p : SegmentIdx) : (zeroFrame frame).segments p = 0 := by
  rw [zeroFrame_loops]
  exact segments_segmentLoop (g := fun _ => 0) (fun _ => rfl) _

lemma z_zeroFrame : (zeroFrame frame).z = frame.z := by
  rw [zeroFrame_loops, z_segmentLoop, z_windowLoop]

end

section
variable (F : Type) [AlphaArith F]

/-- One window channel after a source is blended in with the alpha of its window. -/
def blendWindow (source : Frame) (p : WindowIdx) (old : UInt8) : UInt8 :=
  blend F (source.windows (p.1, p.2.1, Fin.last _)) old (source.windows p)

/-- One segment channel after a source is blended in with the alpha of its segment. -/
def blendSegment (source : Frame) (p : SegmentIdx) (old : UInt8) : UInt8 :=
  blend F (source.segments (p.1, p.2.1, Fin.last _)) old (source.segments p)

lemma blendFrame_loops (source frame : Frame) :
    blendFrame F source frame
      = segmentLoop (fun f p => blendSegment F source p (f.segments p))
          (windowLoop (fun f p => blendWindow F source p (f.windows p)) frame) := rfl

lemma windows_blendFrame (source frame : Frame) (p : WindowIdx) :
    (blendFrame F source frame).windows p = blendWindow F source p (frame.windows p) := by
  rw [blendFrame_loops, windows_segmentLoop]
  exact windows_windowLoop (g := blendWindow F source p) (fun _ => rfl) frame

lemma segments_blendFrame (source frame : Frame) (p : SegmentIdx) :
    (blendFrame F source frame).segments p = blendSegment F source p (frame.segments p) := by
  rw [blendFrame_loops]
  refine (segments_segmentLoop (g := blendSegment F source p) (fun _ => rfl) _).trans ?_
  rw [segments_windowLoop]

lemma z_blendFrame (source frame : Frame) : (blendFrame F source frame).z = frame.z := by
  rw [blendFrame_loops, z_segmentLoop, z_windowLoop]

end

/-! ## `mix`, channel by channel -/

section
variable (F : Type) [AlphaArith F] (buffers : List Buffer) (frame : Frame)

/-- A fold of frames, seen at one place: if each step acts there by `g`, the fold does. -/
private lemma foldl_blendFrame {β : Type} (get : Frame → β) (g : β → Buffer → β)
    (hg : ∀ f b, get (blendFrame F b.get f) = g (get f) b) :
    get (buffers.foldl (fun f b => blendFrame F b.get f) frame)
      = buffers.foldl g (get frame) := by
  induction buffers generalizing frame with
  | nil => rfl
  | cons b buffers ih => rw [List.foldl_cons, List.foldl_cons, ih, hg]

/-- A window channel of the mixed frame: the blends of all buffers over 0. -/
lemma windows_mixFrame (p : WindowIdx) :
    (mixFrame F buffers frame).windows p
      = buffers.foldl (fun old b => blendWindow F b.get p old) 0 := by
  rw [mixFrame, foldl_blendFrame F buffers (zeroFrame frame) (fun f => f.windows p)
    (fun old b => blendWindow F b.get p old) (fun f b => windows_blendFrame F b.get f p), windows_zeroFrame]

/-- A segment channel of the mixed frame: the blends of all buffers over 0. -/
lemma segments_mixFrame (p : SegmentIdx) :
    (mixFrame F buffers frame).segments p
      = buffers.foldl (fun old b => blendSegment F b.get p old) 0 := by
  rw [mixFrame, foldl_blendFrame F buffers (zeroFrame frame) (fun f => f.segments p)
    (fun old b => blendSegment F b.get p old) (fun f b => segments_blendFrame F b.get f p), segments_zeroFrame]

/-- `mix` never writes the `z` of the member frame. -/
lemma z_mixFrame : (mixFrame F buffers frame).z = frame.z := by
  rw [mixFrame, foldl_blendFrame F buffers (zeroFrame frame) Frame.z (fun z _ => z)
    (fun f b => z_blendFrame F b.get f), z_zeroFrame, List.foldl_fixed]

end

end Server

end Syndilights.Frameserver
