import Syndilights.ActionSystem
import Syndilights.Frameserver.SendTheorems

/-!
# What `send` emits

The threads take turns under `mutex_`, in any order from the start of the server. `mix`
builds the member `frame` in place, but within one turn; so `send` sees the frame of the
last `mix`, or, before the first one, the memory the server was created in.
-/

namespace Syndilights.Frameserver

open ActionSystem

namespace Server

/-! ## The threads -/

/-- The server and its `listen` thread, which ends with its first exception. -/
structure Threads where
  server : Server
  listening : Bool

/-- One turn of a thread. -/
inductive Turn
  | listen (stale : Stale) (recv : Recv) (now : ℤ)
  | mix
  | send
  | expire (now : ℤ)

/-- `launch_threads`. -/
def launch_threads (raw : Uninit) : Threads := ⟨init raw, true⟩

/-- The state after a turn. -/
def turn (t : Threads) : Turn → Option Threads
  | .listen stale recv now =>
    if t.listening then
      let (server, throws) := listen stale recv now t.server
      some ⟨server, !throws⟩
    else none
  | .mix => some { t with server := t.server.mix Float32 }
  | .send => some { t with server := t.server.send }
  | .expire now => some { t with server := t.server.expire now }

/-! ## Snapshots -/

/-- The bytes of a frame as `send` lays it out, behind the header it never writes. -/
def payload (frame : Frame) : List UInt8 := List.ofFn (serialise frame fun _ => 0)

/-- The all-black frame. -/
def black : Frame := ⟨0, fun _ => 0, fun _ => 0⟩

/-- The bytes are the all-black frame, or the composite that the last `mix` of the turns
computed over the sources registered then. -/
def Snapshot (raw : Uninit) (turns : List Turn) (bytes : List UInt8) : Prop :=
  bytes = payload black ∨
  ∃ before after t, turns = before ++ .mix :: after ∧ .mix ∉ after ∧
    run turn (launch_threads raw) before = some t ∧
    bytes = payload (mixFrame Float32 t.server.buffers t.server.frame)

/-- Every payload that is emitted in the run is a snapshot. -/
def EmitsSnapshots (raw : Uninit) (turns : List Turn) : Prop :=
  ∀ before after t, turns = before ++ .send :: after →
    run turn (launch_threads raw) before = some t →
    Snapshot raw before (datagram (send t.server))

/-! ## Who writes what -/

/-- `expire` leaves the work of `mix` and `send` alone. -/
lemma expireLoop_keeps (s : Server) (i : ℕ) :
    (expireLoop s i).frame = s.frame ∧ (expireLoop s i).data = s.data := by
  fun_induction expireLoop s i with
  | case1 s i hi hexpired ih => exact ih
  | case2 s i hi hexpired ih => exact ih
  | case3 s i hi => exact ⟨rfl, rfl⟩

/-- The server after a turn. -/
def afterTurn (s : Server) : Turn → Server
  | .listen stale recv now => (listen stale recv now s).1
  | .mix => s.mix Float32
  | .send => s.send
  | .expire now => s.expire now

lemma server_turn {t t' : Threads} {a : Turn} (h : turn t a = some t') :
    t'.server = afterTurn t.server a := by
  cases a with
  | listen stale recv now =>
    rw [turn, Option.ite_none_right_eq_some, Option.some.injEq] at h
    rw [← h.2, afterTurn]
  | mix => rw [← Option.some.inj h, afterTurn]
  | send => rw [← Option.some.inj h, afterTurn]
  | expire now => rw [← Option.some.inj h, afterTurn]

/-- Only `mix` writes the frame. -/
lemma frame_turn {t t' : Threads} {a : Turn} (ha : a ≠ .mix) (h : turn t a = some t') :
    t'.server.frame = t.server.frame := by
  rw [server_turn h]
  cases a with
  | listen stale recv now => exact (listen_keeps stale recv now t.server).1
  | mix => exact absurd rfl ha
  | send => rfl
  | expire now => exact (expireLoop_keeps _ 0).1

/-- No turn writes the header of the buffer of `send`. -/
lemma zeroHeader_turn {t t' : Threads} {a : Turn} (hzero : ZeroHeader t.server)
    (h : turn t a = some t') : ZeroHeader t'.server := by
  rw [server_turn h]
  intro p hp
  cases a with
  | listen stale recv now =>
    exact (congrFun (listen_keeps stale recv now t.server).2 p).trans (hzero p hp)
  | mix => exact hzero p hp
  | send => exact zeroHeader_send hzero p hp
  | expire now => exact (congrFun (expireLoop_keeps _ 0).2 p).trans (hzero p hp)

/-! ## The bytes of a frame -/

/-- Behind the header, every byte of the buffer of `send` belongs to a row. -/
lemma exists_cell {p : Fin send.length} (hp : HEADEROFFSET ≤ p.val) :
    ((∃ i j k, p = windowCell i j k) ∨ ∃ i, p = windowClose i) ∨
      (∃ i j k, p = segmentCell i j k) ∨ ∃ i, p = segmentClose i := by
  have hlt : p.val < 800 := p.isLt
  have h12 : 12 ≤ p.val := hp
  by_cases hrow : p.val < 404
  · -- the rows of windows are 49 bytes long, 48 of them values
    left
    have hi : (p.val - 12) / 49 < 8 := by omega
    by_cases hx : (p.val - 12) % 49 < 48
    · left
      have hj : (p.val - 12) % 49 / 4 < 12 := by omega
      have hk : (p.val - 12) % 49 % 4 < 4 := by omega
      refine ⟨⟨_, hi⟩, ⟨_, hj⟩, ⟨_, hk⟩, ?_⟩
      rw [Fin.ext_iff, val_windowCell]
      dsimp only
      omega
    · right
      refine ⟨⟨_, hi⟩, ?_⟩
      rw [Fin.ext_iff, val_windowClose]
      dsimp only
      omega
  · -- the displays are 33 bytes long, 32 of them values
    right
    have hi : (p.val - 404) / 33 < 12 := by omega
    by_cases hx : (p.val - 404) % 33 < 32
    · left
      have hj : (p.val - 404) % 33 / 4 < 8 := by omega
      have hk : (p.val - 404) % 33 % 4 < 4 := by omega
      refine ⟨⟨_, hi⟩, ⟨_, hj⟩, ⟨_, hk⟩, ?_⟩
      rw [Fin.ext_iff, val_segmentCell]
      dsimp only
      omega
    · right
      refine ⟨⟨_, hi⟩, ?_⟩
      rw [Fin.ext_iff, val_segmentClose]
      dsimp only
      omega

/-- Behind the header, nothing of the buffer's previous content is left. -/
lemma serialise_total {frame frame' : Frame} (hwindows : frame.windows = frame'.windows)
    (hsegments : frame.segments = frame'.segments) {data data' : Fin send.length → UInt8}
    {p : Fin send.length} (hp : HEADEROFFSET ≤ p.val) :
    serialise frame data p = serialise frame' data' p := by
  rcases exists_cell hp with (⟨i, j, k, rfl⟩ | ⟨i, rfl⟩) | ⟨i, j, k, rfl⟩ | ⟨i, rfl⟩
  · rw [serialise_window, serialise_window, hwindows]
  · rw [serialise_window_newline, serialise_window_newline]
  · rw [serialise_segment, serialise_segment, hsegments]
  · rw [serialise_segment_newline, serialise_segment_newline]

/-- Two frames have the same bytes exactly when they show the same. -/
lemma payload_eq_iff {frame frame' : Frame} :
    payload frame = payload frame' ↔
      frame.windows = frame'.windows ∧ frame.segments = frame'.segments := by
  rw [payload, payload, List.ofFn_inj]
  constructor
  · intro hbytes
    constructor
    · funext p
      have hcell := congrFun hbytes (windowCell p.1 p.2.1 p.2.2)
      rwa [serialise_window, serialise_window] at hcell
    · funext p
      have hcell := congrFun hbytes (segmentCell p.1 p.2.1 p.2.2)
      rwa [serialise_segment, serialise_segment] at hcell
  · rintro ⟨hwindows, hsegments⟩
    funext p
    by_cases hp : p.val < HEADEROFFSET
    · rw [serialise_header _ _ hp, serialise_header _ _ hp]
    · exact serialise_total hwindows hsegments (not_lt.mp hp)

/-- With a header of zeros, the datagram is the bytes of the frame. -/
lemma datagram_send {s : Server} (hzero : ZeroHeader s) : datagram (send s) = payload s.frame := by
  rw [datagram, payload, List.ofFn_inj]
  funext p
  show serialise s.frame s.data p = _
  by_cases hp : p.val < HEADEROFFSET
  · rw [serialise_header _ _ hp, serialise_header _ _ hp, hzero p hp]
  · exact serialise_total rfl rfl (not_lt.mp hp)

/-! ## The frame of a run -/

/-- The frame is the one the last `mix` computed, or the uninitialised one before the first. -/
def FromMix (raw : Uninit) (turns : List Turn) (frame : Frame) : Prop :=
  (.mix ∉ turns ∧ frame = raw.frame) ∨
  ∃ before after t, turns = before ++ .mix :: after ∧ .mix ∉ after ∧
    run turn (launch_threads raw) before = some t ∧
    frame = mixFrame Float32 t.server.buffers t.server.frame

lemma fromMix_turn {raw : Uninit} {turns : List Turn} {a : Turn} {t t' : Threads}
    (hrun : run turn (launch_threads raw) turns = some t) (h : FromMix raw turns t.server.frame)
    (ha : turn t a = some t') : FromMix raw (turns ++ [a]) t'.server.frame := by
  by_cases hmix : a = .mix
  · subst hmix
    refine Or.inr ⟨turns, [], t, rfl, List.not_mem_nil, hrun, ?_⟩
    rw [server_turn ha]
    rfl
  · rw [frame_turn hmix ha]
    have hnot (l : List Turn) (hl : .mix ∉ l) : .mix ∉ l ++ [a] := by
      rw [List.mem_append, List.mem_singleton, not_or]
      exact ⟨hl, fun heq => hmix heq.symm⟩
    rcases h with ⟨hnone, hframe⟩ | ⟨before, after, mid, rfl, hafter, hmid, hframe⟩
    · exact Or.inl ⟨hnot turns hnone, hframe⟩
    · refine Or.inr ⟨before, after ++ [a], mid, ?_, hnot after hafter, hmid, hframe⟩
      rw [List.append_assoc, List.cons_append]

/-- After every run, the frame is the last composite and the header is zero. -/
lemma fromMix_run {raw : Uninit} {turns : List Turn} {t : Threads}
    (hrun : run turn (launch_threads raw) turns = some t) :
    FromMix raw turns t.server.frame ∧ ZeroHeader t.server := by
  refine run_history (I := fun turns t => FromMix raw turns t.server.frame ∧ ZeroHeader t.server)
    ?_ ?_ meets_true hrun
  · exact ⟨Or.inl ⟨List.not_mem_nil, rfl⟩, fun _ _ => rfl⟩
  · intro actions a mid s' hmid hinv _ ha
    exact ⟨fromMix_turn hmid hinv.1 ha, zeroHeader_turn hinv.2 ha⟩

/-- One emitted payload is a snapshot exactly when `mix` had a turn before it, or the
uninitialised memory happened to be black. -/
lemma snapshot_iff {raw : Uninit} {turns : List Turn} {t : Threads}
    (hrun : run turn (launch_threads raw) turns = some t) :
    Snapshot raw turns (datagram (send t.server)) ↔
      .mix ∈ turns ∨ (raw.frame.windows = black.windows ∧ raw.frame.segments = black.segments) := by
  rcases fromMix_run hrun with ⟨hframe, hzero⟩
  rw [datagram_send hzero, Snapshot]
  rcases hframe with ⟨hnone, hframe⟩ | ⟨before, after, mid, rfl, hafter, hmid, hframe⟩
  · rw [hframe, payload_eq_iff]
    constructor
    · rintro (hblack | ⟨before, after, mid, rfl, -⟩)
      · exact Or.inr hblack
      · exact absurd (List.mem_append_right before List.mem_cons_self) hnone
    · rintro (hmix | hblack)
      · exact absurd hmix hnone
      · exact Or.inl hblack
  · constructor
    · exact fun _ => Or.inl (List.mem_append_right before List.mem_cons_self)
    · exact fun _ => Or.inr ⟨before, after, mid, rfl, hafter, hmid, by rw [hframe]⟩

/-- **When `send` emits snapshots.** In a run, every payload is the all-black frame or the
composite of the last `mix` exactly when each `send` comes after some `mix`, or the memory of
the server was black from the start. -/
theorem emitsSnapshots_iff (raw : Uninit) (turns : List Turn) (t : Threads)
    (hrun : run turn (launch_threads raw) turns = some t) :
    EmitsSnapshots raw turns ↔
      (raw.frame.windows = black.windows ∧ raw.frame.segments = black.segments) ∨
      ∀ before after, turns = before ++ .send :: after → .mix ∈ before := by
  constructor
  · intro hemits
    by_contra hnot
    rw [not_or] at hnot
    apply hnot.2
    intro before after hsplit
    rw [hsplit] at hrun
    rcases run_before turn hrun with ⟨mid, hmid, -⟩
    exact ((snapshot_iff hmid).mp (hemits before after mid hsplit hmid)).resolve_right hnot.1
  · intro hcond before after mid hsplit hmid
    exact (snapshot_iff hmid).mpr (hcond.symm.imp_left fun h => h before after hsplit)

/-- Memory in which every byte is 1. -/
def scribbled : Uninit where
  currenttime := 0
  frame := ⟨1, fun _ => 1, fun _ => 1⟩
  listen_frame := ⟨1, fun _ => 1, fun _ => 1⟩

/-- In such memory a source registers, and the server mixes before it sends. -/
theorem emitsSnapshots_iff_mix_send :
    let turns : List Turn := [.listen ⟨fun _ => 7, scribbled.frame⟩
      (.datagram firstSource (opaquePacket 1 200).1) 5, .mix, .send]
    (∃ t, run turn (launch_threads scribbled) turns = some t ∧
      t.server.endpoints = [firstSource]) ∧ EmitsSnapshots scribbled turns := by
  intro turns
  obtain ⟨t, hrun, hsource⟩ : ∃ t, run turn (launch_threads scribbled) turns = some t ∧
      t.server.endpoints = [firstSource] := ⟨_, rfl, rfl⟩
  refine ⟨⟨t, hrun, hsource⟩, (emitsSnapshots_iff scribbled turns t hrun).mpr (Or.inr ?_)⟩
  intro before after hsplit
  rcases before with _ | ⟨first, _ | ⟨second, before⟩⟩
  · exact absurd (List.cons.inj hsplit).1 (by simp)
  · exact absurd (List.cons.inj (List.cons.inj hsplit).2).1 (by simp)
  · rw [← (List.cons.inj (List.cons.inj hsplit).2).1]
    exact List.mem_cons_of_mem _ List.mem_cons_self

/-- A server whose `send` has the first turn. -/
theorem first_send_not_snapshot :
    run turn (launch_threads scribbled) [.send] ≠ none ∧ ¬ EmitsSnapshots scribbled [.send] := by
  refine ⟨Option.some_ne_none _, ?_⟩
  intro hemits
  rcases (snapshot_iff rfl).mp (hemits [] [] _ rfl rfl) with hmix | hblack
  · exact absurd hmix List.not_mem_nil
  · exact absurd (congrFun hblack.1 default) (by decide)

end Server

end Syndilights.Frameserver
