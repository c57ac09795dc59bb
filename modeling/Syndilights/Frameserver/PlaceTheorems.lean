import Syndilights.Frameserver.BlendTheorems
import Syndilights.Frameserver.FrameTheorems

/-!
# The mixed frame, place by place

A place is a window pixel or a segment; it has four channels. What `mix` computes at a
place depends on what the buffers show at that place only: an opaque source hides the ones
before it there, and a transparent one is as good as absent.
-/

namespace Syndilights.Frameserver

/-! ## Places -/

/-- A window pixel, by row and column, or a segment of a display. -/
inductive Place
  | window (i : Fin HEIGHT) (j : Fin WIDTH)
  | segment (w : Fin SEGWIDTH) (n : Fin SEGNUM)
deriving DecidableEq

/-- The channels of a frame at a place. -/
def Frame.cell (f : Frame) : Place → Fin CHANNELS → UInt8
  | .window i j => fun k => f.windows (i, j, k)
  | .segment w n => fun k => f.segments (w, n, k)

/-- The alpha of a frame at a place, its last channel. -/
def Frame.alpha (f : Frame) (p : Place) : UInt8 := f.cell p (Fin.last _)

namespace Server

section
variable (F : Type) [AlphaArith F]

/-- Blending a cell over another one, channel by channel. -/
def blendCell (old source : Fin CHANNELS → UInt8) : Fin CHANNELS → UInt8 :=
  fun k => blend F (source (Fin.last _)) (old k) (source k)

/-- A channel at a place of the mixed frame: the blends of the same channel at the same place of
all buffers, over 0. -/
lemma channel_mixFrame (buffers : List Buffer) (frame : Frame) (p : Place) (k : Fin CHANNELS) :
    (mixFrame F buffers frame).cell p k
      = buffers.foldl (fun old b => blend F (b.get.alpha p) old (b.get.cell p k)) 0 := by
  cases p with
  | window i j => exact windows_mixFrame F buffers frame (i, j, k)
  | segment w n => exact segments_mixFrame F buffers frame (w, n, k)

/-- The mixed frame at a place: the cells of all buffers there, blended over black. -/
lemma cell_mixFrame (buffers : List Buffer) (frame : Frame) (p : Place) :
    (mixFrame F buffers frame).cell p
      = (buffers.map fun b => b.get.cell p).foldl (blendCell F) fun _ => 0 := by
  funext k
  rw [channel_mixFrame, List.foldl_map]
  induction buffers using List.reverseRecOn with
  | nil => rfl
  | append_singleton buffers b ih =>
    rw [List.foldl_append, List.foldl_append, List.foldl_cons, List.foldl_cons, ih]
    rfl

end

/-! ## Hiding and vanishing -/

/-- An opaque cell replaces what is below it. -/
lemma blendCell_opaque {source : Fin CHANNELS → UInt8} (h : source (Fin.last _) = 255)
    (old : Fin CHANNELS → UInt8) : blendCell Float32 old source = source := by
  funext k
  rw [blendCell, h, blend_opaque]

/-- A transparent cell leaves what is below it. -/
lemma blendCell_transparent {source : Fin CHANNELS → UInt8} (h : source (Fin.last _) = 0)
    (old : Fin CHANNELS → UInt8) : blendCell Float32 old source = old := by
  funext k
  rw [blendCell, h, blend_transparent]

/-- Above an opaque source the sources below it do not matter. -/
lemma cell_mixFrame_above {b : Buffer} {p : Place} (h : b.get.alpha p = 255)
    (below above : List Buffer) (frame : Frame) :
    (mixFrame Float32 (below ++ b :: above) frame).cell p
      = (above.map fun b => b.get.cell p).foldl (blendCell Float32) (b.get.cell p) := by
  rw [cell_mixFrame, List.map_append, List.map_cons, List.foldl_append, List.foldl_cons,
    blendCell_opaque h]

/-- **Every place is mixed on its own.** Where a source is opaque, the sources before it may be
any others; where a source is transparent, it may as well be absent, whatever its colours; and
sources that show the same at a place are mixed to the same there. -/
theorem places_are_independent (p : Place) (frame frame' : Frame) :
    (∀ (b : Buffer) (below below' above : List Buffer), b.get.alpha p = 255 →
      (mixFrame Float32 (below ++ b :: above) frame).cell p
        = (mixFrame Float32 (below' ++ b :: above) frame').cell p) ∧
    (∀ (b : Buffer) (below above : List Buffer), b.get.alpha p = 0 →
      (mixFrame Float32 (below ++ b :: above) frame).cell p
        = (mixFrame Float32 (below ++ above) frame').cell p) ∧
    (∀ buffers buffers' : List Buffer,
      (buffers.map fun b => b.get.cell p) = (buffers'.map fun b => b.get.cell p) →
      (mixFrame Float32 buffers frame).cell p = (mixFrame Float32 buffers' frame').cell p) := by
  refine ⟨?_, ?_, ?_⟩
  · intro b below below' above h
    rw [cell_mixFrame_above h, cell_mixFrame_above h]
  · intro b below above h
    rw [cell_mixFrame, cell_mixFrame, List.map_append, List.map_cons, List.foldl_append,
      List.foldl_cons, blendCell_transparent h, List.map_append, List.foldl_append]
  · intro buffers buffers' h
    rw [cell_mixFrame, cell_mixFrame, h]

end Server

end Syndilights.Frameserver
