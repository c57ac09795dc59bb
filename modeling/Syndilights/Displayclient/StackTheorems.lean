import Syndilights.Clients.S2llibTheorems
import Syndilights.Displayclient.Visionneuse
import Syndilights.Frameserver.BlendTheorems

/-!
# From the canvas to the viewer

One client whose pixels are opaque: what it draws passes `listen`, `mix` and `send`
unchanged, and the viewer reads its colours in the datagram.
-/

namespace Syndilights.Displayclient

open Frameserver Clients

/-! ## One opaque source -/

/-- A single opaque channel over black. -/
lemma foldl_blendWindow_opaque {b : Buffer} {p : WindowIdx}
    (h : b.get.windows (p.1, p.2.1, Fin.last _) = 255) :
    [b].foldl (fun old b => Server.blendWindow Float32 b.get p old) 0 = b.get.windows p := by
  show blend Float32 _ 0 _ = _
  rw [h]
  exact blend_opaque 0 _

lemma foldl_blendSegment_opaque {b : Buffer} {p : SegmentIdx}
    (h : b.get.segments (p.1, p.2.1, Fin.last _) = 255) :
    [b].foldl (fun old b => Server.blendSegment Float32 b.get p old) 0 = b.get.segments p := by
  show blend Float32 _ 0 _ = _
  rw [h]
  exact blend_opaque 0 _

/-- Every pixel of the canvas has alpha 255. -/
structure Opaque (c : BuildingCanvas) : Prop where
  windows : ∀ y x, (c.window_data y x).a = 255
  segments : ∀ w s, (c.segmented_windows w s).a = 255

/-! ## The stages -/

/-- The server after the packet of its only source: one slot. -/
lemma listen_only {c : BuildingCanvas} (hash : c.hash_passcode = HASH) {s : Server}
    (hs : s.Aligned) {e : Endpoint} (honly : ∀ e' ∈ s.endpoints, e' = e) (stale : Server.Stale)
    (now : ℤ) :
    let listened := (Server.listen stale (.datagram e c.packet) now s).1
    listened.endpoints = [e] ∧ listened.buffers = [⟨e.toStr, c.frame⟩] := by
  intro listened
  have hheader := Canvas.header_packet hash e stale.recv_buf
  have hlisten := Server.listen_refines hs.refines stale (.datagram e c.packet) now hheader
  rw [Canvas.packetFrame_packet hash] at hlisten
  rw [hs.refines.endpoints_eq] at honly
  have hentries : (hs.table.put e (c.frame, now)).entries = [(e, c.frame, now)] :=
    BoundedTable.entries_put_only honly (by decide) _
  constructor
  · rw [hlisten.endpoints_eq, BoundedTable.keys]
    exact congrArg (List.map Prod.fst) hentries
  · rw [hlisten.buffers_eq]
    exact congrArg (List.map _) hentries

section
variable {c : BuildingCanvas} (h : Opaque c) {s : Server} {name : String}
  (hbuffers : s.buffers = [⟨name, c.frame⟩])
include h hbuffers

/-- The mixed frame shows the canvas. -/
lemma windows_mix (p : WindowIdx) : (Server.mix Float32 s).frame.windows p = c.frame.windows p := by
  show (Server.mixFrame Float32 s.buffers s.frame).windows p = _
  rw [hbuffers, Server.windows_mixFrame]
  apply foldl_blendWindow_opaque
  show byte (c.window_data p.1 p.2.1).a = 255
  rw [h.windows]
  rfl

lemma segments_mix (p : SegmentIdx) :
    (Server.mix Float32 s).frame.segments p = c.frame.segments p := by
  show (Server.mixFrame Float32 s.buffers s.frame).segments p = _
  rw [hbuffers, Server.segments_mixFrame]
  apply foldl_blendSegment_opaque
  show byte (c.segmented_windows p.1 p.2.1).a = 255
  rw [h.segments]
  rfl

end

/-- The datagram has every window channel of the frame at its offset. -/
lemma getElem?_datagram_window (s : Server) (i : Fin HEIGHT) (j : Fin WIDTH) (k : Fin CHANNELS) :
    (Server.send s).datagram[(Server.windowCell i j k).val]? = some (s.frame.windows (i, j, k)) := by
  rw [Server.datagram, List.getElem?_ofFn, dif_pos (Server.windowCell i j k).isLt]
  exact congrArg some (Server.serialise_window s.frame s.data i j k)

/-- The datagram has every segment channel of the frame at its offset. -/
lemma getElem?_datagram_segment (s : Server) (w : Fin SEGWIDTH) (n : Fin SEGNUM)
    (k : Fin CHANNELS) :
    (Server.send s).datagram[(Server.segmentCell w n k).val]?
      = some (s.frame.segments (w, n, k)) := by
  rw [Server.datagram, List.getElem?_ofFn, dif_pos (Server.segmentCell w n k).isLt]
  exact congrArg some (Server.serialise_segment s.frame s.data w n k)

/-- The viewer reads the windows where the server writes them, row `y` and column `x`. -/
lemma windowPos_eq (x : Fin Visionneuse.width) (y : Fin Visionneuse.height) (c : Fin 3) :
    Visionneuse.windowPos x y c = (Server.windowCell y x (c.castSucc)).val := by
  rw [Server.val_windowCell]
  show 12 + y.val * 49 + (x.val * 4 + c.val) = 12 + (y.val * 49 + x.val * 4 + c.val)
  omega

/-- The viewer reads the segments where the server writes them. -/
lemma segmentPos_eq (d : Fin Visionneuse.width) (s : Fin Visionneuse.segments) (c : Fin 3) :
    Visionneuse.segmentPos d s c = (Server.segmentCell d s (c.castSucc)).val := by
  rw [Server.val_segmentCell]
  show 404 + d.val * 33 + s.val * 4 + c.val = 404 + (d.val * 33 + s.val * 4 + c.val)
  omega

/-- At the three positions are the cell's r, g and b. -/
def Reads (datagram : List UInt8) (pos : Fin 3 → ℕ) (cell : Cell) : Prop :=
  ∃ r g b, datagram[pos Visionneuse.red]? = some r ∧ datagram[pos Visionneuse.green]? = some g ∧
    datagram[pos Visionneuse.blue]? = some b ∧
    (r.toNat : ℤ) = cell.r ∧ (g.toNat : ℤ) = cell.g ∧ (b.toNat : ℤ) = cell.b

/-- The bytes at the positions. -/
lemma Reads.getElem?_eq {datagram : List UInt8} {pos : Fin 3 → ℕ} {cell : Cell}
    (h : Reads datagram pos cell) (c : Fin 3) :
    datagram[pos c]? = some (![byte cell.r, byte cell.g, byte cell.b] c) := by
  rcases h with ⟨r, g, b, hr, hg, hb, hcell⟩
  rw [← hcell.1, ← hcell.2.1, ← hcell.2.2, byte_toNat, byte_toNat, byte_toNat]
  match c with
  | 0 => exact hr
  | 1 => exact hg
  | 2 => exact hb

/-- **End to end.** An opaque canvas, drawn by the only source of the server, then mixed and
sent: the viewer reads the client's colours, for every window and every segment. -/
theorem drawn_canvas_is_seen (c : BuildingCanvas) (hash : c.hash_passcode = HASH)
    (hc : c.InRange) (h : Opaque c) (s : Server) (hs : s.Aligned) (e : Endpoint)
    (honly : ∀ e' ∈ s.endpoints, e' = e) (stale : Server.Stale) (now : ℤ) :
    ∃ pkt, c.draw = some pkt ∧
      let listened := (Server.listen stale (.datagram e pkt) now s).1
      let datagram := (Server.send (Server.mix Float32 listened)).datagram
      listened.endpoints = [e] ∧
      (∀ x y, Reads datagram (Visionneuse.windowPos x y) (c.window_data y x)) ∧
      (∀ d s, Reads datagram (Visionneuse.segmentPos d s) (c.segmented_windows d s)) := by
  refine ⟨c.packet, Canvas.draw_eq_packet hc, ?_⟩
  intro listened datagram
  rcases listen_only hash hs honly stale now with ⟨hendpoints, hbuffers⟩
  have hshows := Canvas.shows_frame hc
  refine ⟨hendpoints, ?_, ?_⟩
  · intro x y
    have hread (k : Fin 3) :
        datagram[Visionneuse.windowPos x y k]? = some (c.frame.windows (y, x, k.castSucc)) := by
      rw [windowPos_eq, getElem?_datagram_window, windows_mix h hbuffers]
    rcases hshows.windows y x with ⟨hr, hg, hb, -⟩
    exact ⟨_, _, _, hread 0, hread 1, hread 2, hr, hg, hb⟩
  · intro d n
    have hread (k : Fin 3) :
        datagram[Visionneuse.segmentPos d n k]? = some (c.frame.segments (d, n, k.castSucc)) := by
      rw [segmentPos_eq, getElem?_datagram_segment, segments_mix h hbuffers]
    rcases hshows.segments d n with ⟨hr, hg, hb, -⟩
    exact ⟨_, _, _, hread 0, hread 1, hread 2, hr, hg, hb⟩

/-- The gradient, sent to a server that just started and meets old memory: the viewer reads the
colours of the window in column 2 and row 3, and of the segment 1 of display 5. -/
theorem gradient_is_seen :
    ∃ pkt, Canvas.gradient.draw = some pkt ∧
      let listened := (Server.listen ⟨fun _ => 7, default⟩ (.datagram Server.firstSource pkt) 5
        (Server.init default)).1
      let datagram := (Server.send (Server.mix Float32 listened)).datagram
      listened.endpoints = [Server.firstSource] ∧
      (∀ c, datagram[Visionneuse.windowPos 2 3 c]? = some (![40, 90, 7] c)) ∧
      ∀ c, datagram[Visionneuse.segmentPos 5 1 c]? = some (![100, 30, 9] c) := by
  obtain ⟨pkt, hdraw, hseen⟩ := drawn_canvas_is_seen Canvas.gradient rfl Canvas.inRange_gradient
    ⟨fun _ _ => rfl, fun _ _ => rfl⟩ (Server.init default) (Server.aligned_init default)
    Server.firstSource (fun e' he' => absurd he' List.not_mem_nil) ⟨fun _ => 7, default⟩ 5
  exact ⟨pkt, hdraw, hseen.1, (hseen.2.1 2 3).getElem?_eq, (hseen.2.2 5 1).getElem?_eq⟩

end Syndilights.Displayclient
