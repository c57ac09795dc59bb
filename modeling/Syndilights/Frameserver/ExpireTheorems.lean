import Syndilights.Frameserver.BlendTheorems
import Syndilights.Frameserver.TableTheorems

/-!
# An expired source leaves no trace

Two runs are compared: a run of the server, and the same run without the datagrams of one
source. Their tables differ by the entry of that source only, so they agree whenever the
source is not registered, and so does the mixed frame.
-/

namespace Syndilights.Frameserver
namespace Server

/-! ## The member frame -/

/-- No iteration writes the `z` of the member frame. -/
lemma z_step {s : Server} {t : SourceTable} (h : Refines s t) (ev : Event) :
    (s.step ev).frame.z = s.frame.z := by
  cases ev with
  | datagram stale e d now => exact congrArg Frame.z (listen_keeps stale _ now s).1
  | mix => exact z_mixFrame ..
  | send => rfl
  | expire now =>
    show (expire now s).frame.z = _
    rw [expire_eq h]
    rfl

lemma z_runs (raw : Uninit) (evs : List Event) :
    ((init raw).runs evs).frame.z = raw.frame.z := by
  induction evs using List.reverseRecOn with
  | nil => rfl
  | append_singleton evs ev ih =>
    rw [runs, List.foldl_append, ← ih]
    exact z_step (runs_refines (refines_init raw) evs) ev

/-- `mix` computes windows and segments from the buffers alone. -/
lemma mixFrame_congr (F : Type) [AlphaArith F] (buffers : List Buffer) {f f' : Frame}
    (hz : f.z = f'.z) : mixFrame F buffers f = mixFrame F buffers f' := by
  refine Frame.ext ?_ (funext fun p => ?_) (funext fun p => ?_)
  · rw [z_mixFrame, z_mixFrame, hz]
  · rw [windows_mixFrame, windows_mixFrame]
  · rw [segments_mixFrame, segments_mixFrame]

/-! ## Deleting the datagrams of a source -/

/-- The event is a datagram of this source. -/
def Event.isFrom (e : Endpoint) : Event → Bool
  | .datagram _ e' _ _ => e' = e
  | _ => false

/-- What the server is given in one iteration: an event without the uninitialised memory
it meets. -/
inductive Input
  | datagram (remote_endpoint : Endpoint) (bytes : FullDatagram) (now : ℤ)
  | mix
  | send
  | expire (now : ℤ)

def Event.input : Event → Input
  | .datagram _ e d now => .datagram e d now
  | .mix => .mix
  | .send => .send
  | .expire now => .expire now

/-- The table operation of an input. -/
def Input.op : Input → Option (BoundedTable.Op Endpoint (Frame × ℤ))
  | .datagram e d now => if Accepted d then some (.put e (packetFrame (packet d), now)) else none
  | .expire now => some (.sweep fun v => expired now v.2)
  | .mix => none
  | .send => none

/-- The table does not depend on uninitialised memory. -/
lemma opOf_eq_input (ev : Event) : opOf ev = ev.input.op := by
  cases ev <;> rfl

lemma filterMap_opOf_congr {evs evs' : List Event} (h : evs.map Event.input = evs'.map Event.input) :
    evs.filterMap opOf = evs'.filterMap opOf := by
  have hop : opOf = Input.op ∘ Event.input := funext opOf_eq_input
  rw [hop, ← List.filterMap_map, h, List.filterMap_map]

/-- Deleting a source's datagrams deletes the writes of its key. -/
lemma filterMap_opOf_filter (e : Endpoint) (evs : List Event) :
    (evs.filter fun ev => !ev.isFrom e).filterMap opOf
      = (evs.filterMap opOf).filter fun op => !op.writes e := by
  rw [List.filterMap_filter, List.filter_filterMap]
  congr 1
  funext ev
  cases ev with
  | datagram stale e' d now =>
    by_cases hd : Accepted d
    · rw [opOf, if_pos hd]
      by_cases he : e' = e <;> simp [Event.isFrom, BoundedTable.Op.writes_put, Option.filter, he]
    · rw [opOf, if_neg hd, ite_self]
      rfl
  | mix => rfl
  | send => rfl
  | expire now => rfl

/-- The run refuses no source: whenever an accepted datagram arrives, its sender is
registered or there is room for it. -/
def NeverRefuses (raw : Uninit) (evs : List Event) : Prop :=
  ∀ pre stale e d now, pre ++ [.datagram stale e d now] <+: evs → Accepted d →
    e ∈ ((init raw).runs pre).endpoints ∨ ((init raw).runs pre).endpoints.length < NUMBUFS

/-- A run without refusals is a history without refusals. -/
lemma NeverRefuses.fits {raw : Uninit} {evs : List Event} (h : NeverRefuses raw evs) :
    (BoundedTable.empty : SourceTable).Fits (evs.filterMap opOf) := by
  intro opsPre e v hpre
  rcases hpre with ⟨opsPost, hops⟩
  rw [List.append_assoc] at hops
  rcases List.filterMap_eq_append_iff.mp hops.symm with ⟨pre, rest, rfl, rfl, hrest⟩
  rcases List.filterMap_eq_cons_iff.mp hrest with ⟨skipped, ev, post, rfl, hskip, hev, -⟩
  rcases opOf_eq_put hev with ⟨stale, d, rfl, hd, -⟩
  have hnone : skipped.filterMap opOf = [] := by
    rw [List.filterMap_eq_nil_iff]
    exact hskip
  -- the table before the event
  have href := runs_refines (refines_init raw) (pre ++ skipped)
  rw [List.filterMap_append, hnone, List.append_nil] at href
  have hroom := h (pre ++ skipped) stale e d v.2 ⟨post, by simp⟩ hd
  rwa [href.endpoints_eq, BoundedTable.length_keys] at hroom

/-- A run of at most `NUMBUFS` iterations refuses nobody. -/
lemma neverRefuses_of_length_le {raw : Uninit} {evs : List Event} (h : evs.length ≤ NUMBUFS) :
    NeverRefuses raw evs := by
  intro pre stale e d now hpre hd
  have href := runs_refines (refines_init raw) pre
  have hrun := BoundedTable.length_run_le (BoundedTable.empty : SourceTable) (pre.filterMap opOf)
  have hops := List.length_filterMap_le opOf pre
  have hlen := hpre.length_le
  rw [List.length_append, List.length_singleton] at hlen
  rw [BoundedTable.entries_empty, List.length_nil] at hrun
  right
  rw [href.length_endpoints]
  omega

/-- **The two runs have the same table** whenever the deleted source is not registered. -/
lemma refines_without {raw : Uninit} {evs evs' : List Event} {e : Endpoint}
    (hfits : NeverRefuses raw evs) (hgone : e ∉ ((init raw).runs evs).endpoints)
    (hdel : evs'.map Event.input = (evs.filter fun ev => !ev.isFrom e).map Event.input) :
    Refines ((init raw).runs evs') (BoundedTable.empty.run (evs.filterMap opOf)) := by
  have herase := BoundedTable.erase_run e hfits.fits
  have hempty : (BoundedTable.empty : SourceTable).erase e = BoundedTable.empty := rfl
  have hkey : e ∉ ((BoundedTable.empty : SourceTable).run (evs.filterMap opOf)).keys := by
    rwa [← (runs_refines (refines_init raw) evs).endpoints_eq]
  rw [BoundedTable.erase_of_notMem hkey, hempty, ← filterMap_opOf_filter,
    ← filterMap_opOf_congr hdel] at herase
  rw [herase]
  exact runs_refines (refines_init raw) evs'

/-- **An expired source leaves no trace.** Take any point of a run without refusals where
the source `e` is not registered, and any run that is given the same up to there except
the datagrams of `e`. The next mixed frame is the same, and so is the order of the
sources. The second run refuses nobody either, since its table is no larger. -/
theorem expired_leaves_no_trace (raw : Uninit) (evs evs' : List Event) (e : Endpoint)
    (hfits : NeverRefuses raw evs) (hgone : e ∉ ((init raw).runs evs).endpoints)
    (hdel : evs'.map Event.input = (evs.filter fun ev => !ev.isFrom e).map Event.input) :
    ((init raw).runs (evs' ++ [.mix])).frame = ((init raw).runs (evs ++ [.mix])).frame ∧
    ((init raw).runs (evs' ++ [.mix])).endpoints
      = ((init raw).runs (evs ++ [.mix])).endpoints := by
  have href := runs_refines (refines_init raw) evs
  have href' := refines_without hfits hgone hdel
  have hmix (evs : List Event) :
      (init raw).runs (evs ++ [.mix]) = mix Float32 ((init raw).runs evs) := by
    rw [runs, List.foldl_append]
    rfl
  rw [hmix, hmix]
  constructor
  · show mixFrame Float32 _ _ = mixFrame Float32 _ _
    rw [href.buffers_eq, href'.buffers_eq]
    exact mixFrame_congr Float32 _ (by rw [z_runs, z_runs])
  · show ((init raw).runs evs').endpoints = ((init raw).runs evs).endpoints
    rw [href.endpoints_eq, href'.endpoints_eq]

/-- The first source is swept after three seconds, the second one stays and is all there is to
see; the run without the first source met other memory. -/
theorem expired_leaves_no_trace_swept :
    let evs : List Event := [.datagram default firstSource (opaquePacket 1 200) 0,
      .datagram default secondSource (opaquePacket 2 90) 2, .expire 3]
    let evs' : List Event :=
      [.datagram ⟨fun _ => 7, default⟩ secondSource (opaquePacket 2 90) 2, .expire 3]
    ((init default).runs (evs.take 2)).endpoints = [firstSource, secondSource] ∧
    ((init default).runs evs).endpoints = [secondSource] ∧
    ((init default).runs (evs' ++ [.mix])).frame = ((init default).runs (evs ++ [.mix])).frame ∧
    ((init default).runs (evs' ++ [.mix])).frame.windows (0, 0, 0) = 90 := by
  intro evs evs'
  have hentries (evs : List Event) : ((init default).runs evs).endpoints
      = (BoundedTable.empty.run (evs.filterMap opOf) : SourceTable).keys :=
    (runs_refines (refines_init default) evs).endpoints_eq
  have hboth : ((init default).runs (evs.take 2)).endpoints = [firstSource, secondSource] := by
    rw [hentries]
    simp only [evs, List.take_succ_cons, List.take_zero, List.filterMap_cons, opOf,
      if_pos (accepted_opaquePacket _ _), List.filterMap_nil]
    rfl
  have hleft : ((init default).runs evs).endpoints = [secondSource] := by
    rw [hentries]
    simp only [evs, List.filterMap_cons, opOf, if_pos (accepted_opaquePacket _ _),
      List.filterMap_nil]
    rfl
  have hgone : firstSource ∉ ((init default).runs evs).endpoints := by
    rw [hleft]
    decide
  have hsame := expired_leaves_no_trace default evs evs' firstSource
    (neverRefuses_of_length_le (by decide)) hgone rfl
  refine ⟨hboth, hleft, hsame.1, ?_⟩
  have hrefines := runs_refines (refines_init default) evs'
  show (mixFrame Float32 ((init default).runs evs').buffers _).windows _ = 90
  rw [hrefines.buffers_eq, windows_mixFrame]
  simp only [evs', List.filterMap_cons, opOf, if_pos (accepted_opaquePacket _ _),
    List.filterMap_nil]
  exact blend_opaque 0 90

end Server
end Syndilights.Frameserver
