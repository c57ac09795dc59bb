import Syndilights.Frameserver.Server

/-!
# The desktop viewer

`Renderer::listen` of the C++ client, which includes the `defines.h` of the frameserver.
-/

namespace Syndilights.Displayclient.Renderer

open Frameserver ForLoop

/-- The size of `recv_buf`. -/
abbrev length : ℕ := WIDTH * HEIGHT * CHANNELS + SEGWIDTH * SEGNUM * SEGCHANNELS

lemma window_lt (i : Fin HEIGHT) (j : Fin WIDTH) (a : Fin CHANNELS) :
    i * (CHANNELS * WIDTH) + j * CHANNELS + a < length := by
  have hi : i.val < 8 := i.isLt
  have hj : j.val < 12 := j.isLt
  have ha : a.val < 4 := a.isLt
  change i.val * 48 + j.val * 4 + a.val < 768
  omega

lemma segment_lt (w : Fin SEGWIDTH) (n : Fin SEGNUM) (a : Fin SEGCHANNELS) :
    WIDTH * HEIGHT * CHANNELS + w * (SEGCHANNELS * SEGNUM) + n * SEGCHANNELS + a < length := by
  have hw : w.val < 12 := w.isLt
  have hn : n.val < 8 := n.isLt
  have ha : a.val < 4 := a.isLt
  change 384 + w.val * 32 + n.val * 4 + a.val < 768
  omega

/-- `recv_buf` after `receive_from`: the bytes of the datagram, as far as they fit, over what
the memory held before. A longer datagram is no error. -/
def fill (datagram : List UInt8) (recv_buf : Fin length → UInt8) : Fin length → UInt8 :=
  fun k => datagram.getD k (recv_buf k)

/-- The loops that copy the frame out of `recv_buf`. -/
def copyFrame (recv_buf : Fin length → UInt8) (frame : Frame) : Frame :=
  let frame := run₃ HEIGHT WIDTH CHANNELS (fun i j a frame =>
    frame.setWindow i j a (recv_buf
      ⟨i * (CHANNELS * WIDTH) + j * CHANNELS + a, window_lt i j a⟩)) frame
  run₃ SEGWIDTH SEGNUM SEGCHANNELS (fun w n a frame =>
    frame.setSegment w n a (recv_buf
      ⟨WIDTH * HEIGHT * CHANNELS + w * (SEGCHANNELS * SEGNUM) + n * SEGCHANNELS + a,
        segment_lt w n a⟩)) frame

/-- `frame` after one iteration of `Renderer::listen`. -/
def listen (recv_buf : Fin length → UInt8) (datagram : List UInt8) (frame : Frame) : Frame :=
  copyFrame (fill datagram recv_buf) frame

end Syndilights.Displayclient.Renderer
