import Syndilights.Frameserver.TableTheorems

/-!
# The datagrams of `send`

`send` writes the windows, the segments and the newlines behind them where `listen` reads
them, but never the first twelve bytes of its static buffer.
-/

namespace Syndilights.Frameserver
namespace Server

/-! ## The header -/

/-- The header of the static buffer is as the program started. -/
def ZeroHeader (s : Server) : Prop := ∀ p : Fin send.length, p.val < HEADEROFFSET → s.data p = 0

lemma zeroHeader_send {s : Server} (h : ZeroHeader s) : ZeroHeader (send s) :=
  fun p hp => (serialise_header s.frame s.data hp).trans (h p hp)

/-- No iteration writes the header. -/
lemma zeroHeader_step {s : Server} {t : SourceTable} (href : Refines s t) (h : ZeroHeader s)
    (ev : Event) : ZeroHeader (s.step ev) := by
  intro p hp
  cases ev with
  | datagram stale e d now =>
    have hdata := (listen_keeps stale (.datagram e d.1) now s).2
    exact (congrFun hdata p).trans (h p hp)
  | mix => exact h p hp
  | send => exact zeroHeader_send h p hp
  | expire now =>
    show (expire now s).data p = 0
    rw [expire_eq href]
    exact h p hp

/-- No run writes the header. -/
lemma zeroHeader_runs (raw : Uninit) (evs : List Event) : ZeroHeader ((init raw).runs evs) := by
  induction evs using List.reverseRecOn with
  | nil => exact fun _ _ => rfl
  | append_singleton evs ev ih =>
    rw [runs, List.foldl_append]
    exact zeroHeader_step (runs_refines (refines_init raw) evs) ih ev

/-! ## Decoding a sent datagram -/

/-- The datagram fills the buffer of `listen`. -/
lemma length_datagram (s : Server) : s.datagram.length = BUFLEN := by
  rw [datagram, List.length_ofFn]
  rfl

/-- The datagram as `listen` gets it. -/
def sent (s : Server) : FullDatagram := ⟨s.datagram, (length_datagram s).ge⟩

lemma packet_sent (s : Server) : packet (sent s) = s.data := by
  funext k
  simp only [packet, sent, datagram, List.get_eq_getElem, List.getElem_ofFn]
  rfl

/-- The decoding loops recover the windows that were sent. -/
lemma windows_sent (s : Server) :
    (packetFrame (packet (sent (send s)))).windows = s.frame.windows := by
  funext p
  rw [packet_sent]
  exact serialise_window s.frame s.data p.1 p.2.1 p.2.2

/-- The decoding loops recover the segments that were sent. -/
lemma segments_sent (s : Server) :
    (packetFrame (packet (sent (send s)))).segments = s.frame.segments := by
  funext p
  rw [packet_sent]
  exact serialise_segment s.frame s.data p.1 p.2.1 p.2.2

/-- The datagram is a frame as the viewers document it: the hash, a z byte, a newline, then
windows and segments; `listen` accepts it and recovers the frame. -/
structure SpeaksFormat (frame : Frame) (d : FullDatagram) : Prop where
  hash : d.1.take 10 = HASH
  newline : d.1[11]? = some 10
  accepted : header (packet d) = HASH
  windows : (packetFrame (packet d)).windows = frame.windows
  segments : (packetFrame (packet d)).segments = frame.segments

/-- A header of zeros is not the hash. -/
lemma header_ne_of_zeroHeader {s : Server} (h : ZeroHeader s) :
    header (packet (sent s)) ≠ HASH := by
  intro hacc
  have hfirst := congrArg (·[0]?) hacc
  simp only [header, packet_sent, List.getElem?_ofFn] at hfirst
  rw [dif_pos (by decide), h _ (by decide)] at hfirst
  exact absurd hfirst (by decide)

/-- **`send` never speaks the format.** In every run, the datagram that is sent lacks the
header, so `listen` would discard it; only its windows and segments are in place. -/
theorem send_lacks_header (raw : Uninit) (evs : List Event) :
    let s := (init raw).runs evs
    ¬ SpeaksFormat s.frame (sent (send s)) ∧ header (packet (sent (send s))) ≠ HASH ∧
      (packetFrame (packet (sent (send s)))).windows = s.frame.windows ∧
      (packetFrame (packet (sent (send s)))).segments = s.frame.segments := by
  intro s
  have hacc : header (packet (sent (send s))) ≠ HASH :=
    header_ne_of_zeroHeader (zeroHeader_send (zeroHeader_runs raw evs))
  exact ⟨fun h => hacc h.accepted, hacc, windows_sent s, segments_sent s⟩

/-- The first datagram of a server that nobody has written to. -/
theorem first_datagram_lacks_header :
    ¬ SpeaksFormat (mix Float32 (init default)).frame (sent (send (mix Float32 (init default)))) :=
  fun h => header_ne_of_zeroHeader
    (zeroHeader_send (s := mix Float32 (init default)) fun _ _ => rfl) h.accepted

end Server
end Syndilights.Frameserver
