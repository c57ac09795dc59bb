import Syndilights.BoundedTable
import Syndilights.Frameserver.FrameTheorems

/-!
# The source table of the frameserver

`buffers`, `endpoints` and `times` are three views of one table from source endpoint to
last frame and last time. `Refines` is that relation; every iteration of a thread acts on
the table as one operation of `BoundedTable` or not at all.
-/

namespace Syndilights.Frameserver
namespace Server

/-- The registered sources, oldest registration first. -/
abbrev SourceTable := BoundedTable Endpoint (Frame × ℤ) NUMBUFS

/-- One entry of the table, spread over the three vectors. -/
def withEntries (s : Server) (l : List (Endpoint × Frame × ℤ)) : Server :=
  { s with
    endpoints := l.map fun e => e.1
    buffers := l.map fun e => ⟨e.1.toStr, e.2.1⟩
    times := l.map fun e => e.2.2 }

/-- The three vectors are the columns of the table. -/
def Refines (s : Server) (t : SourceTable) : Prop := s = s.withEntries t.entries

namespace Refines

variable {s : Server} {t : SourceTable} (h : Refines s t)
include h

lemma endpoints_eq : s.endpoints = t.keys := congrArg Server.endpoints h

lemma buffers_eq : s.buffers = t.entries.map fun e => ⟨e.1.toStr, e.2.1⟩ :=
  congrArg Server.buffers h

lemma times_eq : s.times = t.entries.map fun e => e.2.2 := congrArg Server.times h

lemma length_endpoints : s.endpoints.length = t.entries.length := by
  rw [h.endpoints_eq, BoundedTable.length_keys]

lemma length_buffers : s.buffers.length = t.entries.length := by
  rw [h.buffers_eq, List.length_map]

lemma length_times : s.times.length = t.entries.length := by
  rw [h.times_eq, List.length_map]

end Refines

/-- A state with the right columns refines the table, whatever its other members are. -/
lemma refines_of_columns {s : Server} {t : SourceTable} (he : s.endpoints = t.keys)
    (hb : s.buffers = t.entries.map fun e => ⟨e.1.toStr, e.2.1⟩)
    (ht : s.times = t.entries.map fun e => e.2.2) : Refines s t := by
  unfold Refines withEntries
  rw [← hb, ← ht]
  exact congrArg (fun l => { s with endpoints := l }) he

lemma refines_init (raw : Uninit) : Refines (Server.init raw) BoundedTable.empty := rfl

/-! ## The search of `listen` -/

/-- The search from slot `bufnum` on finds the first slot with the endpoint. -/
private lemma find_from (l : List Endpoint) (e : Endpoint) :
    ∀ left bufnum, bufnum + left = l.length →
      find l e bufnum left
        = (bufnum + (l.drop bufnum).idxOf e, decide (e ∈ l.drop bufnum)) := by
  intro left
  induction left with
  | zero =>
    intro bufnum hlen
    have hdrop : l.drop bufnum = [] := List.drop_eq_nil_of_le (by omega)
    simp [find, hdrop]
  | succ left ih =>
    intro bufnum hlen
    have hlt : bufnum < l.length := by omega
    rw [List.drop_eq_getElem_cons hlt, find, List.getElem?_eq_getElem hlt]
    by_cases he : l[bufnum] = e
    · rw [if_pos (by rw [he])]
      simp [he]
    · rw [if_neg (by simpa using he), ih (bufnum + 1) (by omega)]
      rw [List.idxOf_cons_ne _ he]
      simp only [List.mem_cons, Ne.symm he, false_or, Prod.mk.injEq, and_true]
      omega

/-- `bufnum` and `known` after the loop over all slots. -/
lemma find_eq (l : List Endpoint) (e : Endpoint) :
    find l e 0 l.length = (l.idxOf e, decide (e ∈ l)) := by
  rw [find_from l e l.length 0 (by omega), List.drop_zero, Nat.zero_add]

/-! ## One iteration of `listen` -/

section
variable (stale : Stale) (recv : Recv) (now : ℤ) {s : Server} {t : SourceTable}

/-- The state after the critical section, for a slot that exists. -/
lemma store_eq (recv_buf : Fin BUFLEN → UInt8) {bufnum : ℕ} {s : Server}
    (h : bufnum < s.buffers.length) :
    store recv_buf bufnum s
      = { s with
          packetcounter := s.packetcounter + 1
          listen_frame := packetFrame recv_buf
          buffers := s.buffers.modify bufnum (·.set (packetFrame recv_buf))
          times := s.times.set bufnum s.currenttime } := by
  unfold store
  simp only [h, if_true, copyFrame_eq]

/-- A packet without the hash is discarded. -/
lemma listen_discard (h : header (recv.fill stale.recv_buf) ≠ HASH) :
    listen stale recv now s = (s, false) := by
  unfold listen
  simp only [if_pos h]

/-- A new source is refused when the table is full. -/
lemma listen_refuse (hr : Refines s t) (hash : header (recv.fill stale.recv_buf) = HASH)
    (hnew : recv.remote_endpoint ∉ s.endpoints) (hfull : NUMBUFS ≤ s.endpoints.length) :
    listen stale recv now s = ({ s with currenttime := now }, false) := by
  have hlen : s.buffers.length = s.endpoints.length := by
    rw [hr.length_buffers, hr.length_endpoints]
  unfold listen
  simp only [hash, ne_eq, not_true_eq_false, if_false, hlen, find_eq, hnew, decide_false]
  rw [if_neg (by simp only [not_and, not_lt]; exact fun _ => hfull), if_pos (by simp [hfull])]

/-- A new source is appended while there is room. -/
lemma listen_register (hr : Refines s t) (hash : header (recv.fill stale.recv_buf) = HASH)
    (hnew : recv.remote_endpoint ∉ s.endpoints) (hroom : s.endpoints.length < NUMBUFS) :
    listen stale recv now s
      = ({ s with
            currenttime := now
            packetcounter := s.packetcounter + 1
            listen_frame := packetFrame (recv.fill stale.recv_buf)
            buffers := s.buffers ++
              [⟨recv.remote_endpoint.toStr, packetFrame (recv.fill stale.recv_buf)⟩]
            endpoints := s.endpoints ++ [recv.remote_endpoint]
            times := s.times ++ [now] }, recv.throws) := by
  have hlen : s.buffers.length = s.endpoints.length := by
    rw [hr.length_buffers, hr.length_endpoints]
  have hidx : s.endpoints.idxOf recv.remote_endpoint = s.buffers.length := by
    rw [hlen, List.idxOf_eq_length hnew]
  have htimes : s.buffers.length = s.times.length := by
    rw [hr.length_buffers, hr.length_times]
  unfold listen
  simp only [hash, ne_eq, not_true_eq_false, if_false, hlen, find_eq, hnew, decide_false]
  rw [if_pos (by simp [hroom]), hidx, store_eq _ (by simp [register])]
  simp only [register, Prod.mk.injEq, and_true, Server.mk.injEq, true_and]
  constructor
  · -- the fresh buffer is the last one
    rw [List.modify_eq_take_cons_drop (by simp)]
    simp [Buffer.set]
  · rw [htimes]
    simp

/-- A known source overwrites its own slot. -/
lemma listen_known (hr : Refines s t) (hash : header (recv.fill stale.recv_buf) = HASH)
    (hknown : recv.remote_endpoint ∈ s.endpoints) :
    listen stale recv now s
      = ({ s with
            currenttime := now
            packetcounter := s.packetcounter + 1
            listen_frame := packetFrame (recv.fill stale.recv_buf)
            buffers := s.buffers.modify (s.endpoints.idxOf recv.remote_endpoint)
              (·.set (packetFrame (recv.fill stale.recv_buf)))
            times := s.times.set (s.endpoints.idxOf recv.remote_endpoint) now },
          recv.throws) := by
  have hlen : s.buffers.length = s.endpoints.length := by
    rw [hr.length_buffers, hr.length_endpoints]
  have hidx : s.endpoints.idxOf recv.remote_endpoint < s.buffers.length := by
    rw [hlen]
    exact List.idxOf_lt_length_iff.mpr hknown
  unfold listen
  simp only [hash, ne_eq, not_true_eq_false, if_false, hlen, find_eq, hknown, decide_true]
  rw [if_neg (by simp), if_neg (by simp), store_eq _ (by exact hidx)]

/-- `listen` leaves the work of `mix` and `send` alone. -/
lemma listen_keeps (s : Server) :
    (listen stale recv now s).1.frame = s.frame ∧ (listen stale recv now s).1.data = s.data := by
  have hstore (recv_buf : Fin BUFLEN → UInt8) (bufnum : ℕ) (s : Server) :
      (store recv_buf bufnum s).frame = s.frame ∧ (store recv_buf bufnum s).data = s.data := by
    unfold store
    dsimp only
    split_ifs <;> exact ⟨rfl, rfl⟩
  unfold listen
  dsimp only
  split_ifs
  · exact ⟨rfl, rfl⟩
  · exact hstore ..
  · exact ⟨rfl, rfl⟩
  · exact hstore ..

end

/-! ## Every iteration is an operation on the table -/

/-- The packet of a full-length datagram: its first `BUFLEN` bytes. -/
def packet (d : FullDatagram) : Fin BUFLEN → UInt8 :=
  fun k => d.1.get ⟨k, lt_of_lt_of_le k.isLt d.2⟩

/-- The datagram starts with the hash. -/
abbrev Accepted (d : FullDatagram) : Prop := d.1.take 10 = HASH

/-- What `listen` compares with the hash are the first ten bytes of the datagram. -/
lemma header_packet (d : FullDatagram) : header (packet d) = d.1.take 10 := by
  have hlen : 10 ≤ d.1.length := le_trans (by decide) d.2
  apply List.ext_getElem
  · rw [header, List.length_ofFn, List.length_take, Nat.min_eq_left hlen]
  · intro i hi hi'
    rw [List.getElem_take]
    exact List.getElem_ofFn hi

/-- The hash check of `listen` decides whether a datagram is accepted. -/
lemma header_packet_iff {d : FullDatagram} : header (packet d) = HASH ↔ Accepted d := by
  rw [header_packet]

/-- A full-length datagram leaves nothing of the previous content of `recv_buf`. -/
lemma fill_packet (e : Endpoint) (d : FullDatagram) (recv_buf : Fin BUFLEN → UInt8) :
    (Recv.datagram e d.1).fill recv_buf = packet d := by
  funext k
  have hk : k.val < d.1.length := lt_of_lt_of_le k.isLt d.2
  simp only [Recv.fill, Recv.bytes, packet, List.getD_eq_getElem?_getD,
    List.getElem?_eq_getElem hk, Option.getD_some, List.get_eq_getElem]

/-- The table operation of one iteration. -/
def opOf : Event → Option (BoundedTable.Op Endpoint (Frame × ℤ))
  | .datagram _ e d now => if Accepted d then some (.put e (packetFrame (packet d), now)) else none
  | .expire now => some (.sweep fun v => expired now v.2)
  | .mix => none
  | .send => none

section
variable {s : Server} {t : SourceTable}

/-- Writing the key at its own index changes nothing. -/
private lemma set_key_self {l : List (Endpoint × Frame × ℤ)} {e : Endpoint}
    (he : e ∈ l.map Prod.fst) :
    l.map Prod.fst = (l.map Prod.fst).set ((l.map Prod.fst).idxOf e) e := by
  have hidx : (l.map Prod.fst).idxOf e < (l.map Prod.fst).length :=
    List.idxOf_lt_length_iff.mpr he
  have hself := List.set_getElem_self hidx
  rw [List.getElem_idxOf hidx] at hself
  exact hself.symm

/-- `Buffer::set` at the index of a key keeps the name, which is the key's. -/
private lemma modify_buffer {l : List (Endpoint × Frame × ℤ)} {e : Endpoint}
    (he : e ∈ l.map Prod.fst) (frame : Frame) :
    (l.map fun e => (⟨e.1.toStr, e.2.1⟩ : Buffer)).modify ((l.map Prod.fst).idxOf e)
        (·.set frame)
      = (l.map fun e => (⟨e.1.toStr, e.2.1⟩ : Buffer)).set ((l.map Prod.fst).idxOf e)
          ⟨e.toStr, frame⟩ := by
  have hlt : (l.map Prod.fst).idxOf e < (l.map Prod.fst).length :=
    List.idxOf_lt_length_iff.mpr he
  have hidx : (l.map Prod.fst).idxOf e < l.length := by rwa [List.length_map] at hlt
  have hkey : (l[(l.map Prod.fst).idxOf e]).1 = e := by
    have hget := List.getElem_idxOf hlt
    rwa [List.getElem_map] at hget
  rw [List.modify_eq_set_getElem?, List.getElem?_map, List.getElem?_eq_getElem hidx]
  simp only [Option.map_some, Option.map_eq_map, Option.getD_some, Buffer.set, hkey]

/-- An accepted packet writes the sender's frame and the time. -/
lemma listen_refines (h : Refines s t) (stale : Stale) (recv : Recv) (now : ℤ)
    (hash : header (recv.fill stale.recv_buf) = HASH) :
    Refines (listen stale recv now s).1
      (t.put recv.remote_endpoint (packetFrame (recv.fill stale.recv_buf), now)) := by
  by_cases hknown : recv.remote_endpoint ∈ s.endpoints
  · -- a known source: the entry at its index is replaced
    have hkey : recv.remote_endpoint ∈ t.keys := h.endpoints_eq ▸ hknown
    rw [listen_known stale recv now h hash hknown, Refines, withEntries,
      BoundedTable.entries_put_known hkey, BoundedTable.replaced_eq_set t.nodup hkey,
      List.map_set, List.map_set, List.map_set, ← set_key_self hkey, ← modify_buffer hkey,
      h.endpoints_eq, h.buffers_eq, h.times_eq]
    rfl
  · have hkey : recv.remote_endpoint ∉ t.keys := h.endpoints_eq ▸ hknown
    by_cases hroom : s.endpoints.length < NUMBUFS
    · -- a new source: one entry is appended
      rw [listen_register stale recv now h hash hknown hroom, Refines, withEntries,
        BoundedTable.entries_put_new hkey (h.length_endpoints ▸ hroom)]
      simp [h.endpoints_eq, h.buffers_eq, h.times_eq, BoundedTable.keys]
    · rw [listen_refuse stale recv now h hash hknown (not_lt.mp hroom),
        BoundedTable.put_refused hkey (h.length_endpoints ▸ not_lt.mp hroom)]
      exact congrArg (fun s : Server => { s with currenttime := now }) h

/-! ## `expire` -/

/-- The loop behind the slots `seen`, which are kept: it erases the expired ones among
the slots `rest` and steps over the others. -/
private lemma expireLoop_withEntries (s : Server) (seen rest : List (Endpoint × Frame × ℤ)) :
    expireLoop (s.withEntries (seen ++ rest)) seen.length
      = s.withEntries (seen ++ rest.filter fun e => !expired s.currenttime e.2.2) := by
  induction rest generalizing seen with
  | nil =>
    rw [expireLoop, dif_neg (by simp [withEntries])]
    rfl
  | cons e rest ih =>
    have htime : (s.withEntries (seen ++ e :: rest)).times.getD seen.length 0 = e.2.2 := by
      simp [withEntries]
    rw [expireLoop, dif_pos (by simp [withEntries]), htime]
    by_cases he : expired s.currenttime e.2.2
    · -- erased from all three vectors, and the same index again
      rw [if_pos (by exact he), List.filter_cons_of_neg (by simp [he]), ← ih seen]
      congr 1
      simp [withEntries, List.eraseIdx_append_of_length_le]
    · -- kept, and the next index
      rw [if_neg (by exact he), List.filter_cons_of_pos (by simp [he])]
      simpa using ih (seen ++ [e])

/-- One iteration of `expire` keeps the entries that are not too old, in their order. -/
lemma expire_eq (h : Refines s t) (now : ℤ) :
    expire now s = withEntries { s with currenttime := now }
      (t.entries.filter fun e => !expired now e.2.2) := by
  have hstart : { s with currenttime := now }
      = withEntries { s with currenttime := now } t.entries :=
    congrArg (fun s : Server => { s with currenttime := now }) h
  unfold expire
  rw [hstart]
  exact expireLoop_withEntries { s with currenttime := now } [] t.entries

/-- `expire` is a sweep of the table. -/
lemma expire_refines (h : Refines s t) (now : ℤ) :
    Refines (expire now s) (t.sweep fun v => expired now v.2) := by
  rw [expire_eq h]
  exact refines_of_columns rfl rfl rfl

/-- `mix` reads the buffers only. -/
lemma mix_refines (F : Type) [AlphaArith F] (h : Refines s t) : Refines (mix F s) t :=
  refines_of_columns h.endpoints_eq h.buffers_eq h.times_eq

/-- `send` writes its own buffer only. -/
lemma send_refines (h : Refines s t) : Refines (send s) t :=
  refines_of_columns h.endpoints_eq h.buffers_eq h.times_eq

/-- One iteration of a thread is one operation on the table, or none. -/
lemma step_refines (h : Refines s t) (ev : Event) :
    Refines (step s ev) (t.run (opOf ev).toList) := by
  cases ev with
  | datagram stale e d now =>
    show Refines (listen stale (.datagram e d.1) now s).1 _
    have hfill := fill_packet e d stale.recv_buf
    by_cases hd : Accepted d
    · rw [opOf, if_pos hd]
      have hput := listen_refines h stale (.datagram e d.1) now
        (hfill ▸ header_packet_iff.mpr hd)
      rw [hfill] at hput
      exact hput
    · rw [opOf, if_neg hd, listen_discard stale _ now (hfill ▸ mt header_packet_iff.mp hd)]
      exact h
  | mix => exact mix_refines Float32 h
  | send => exact send_refines h
  | expire now => exact expire_refines h now

/-- A run of the server is a history of the table. -/
theorem runs_refines (h : Refines s t) (evs : List Event) :
    Refines (s.runs evs) (t.run (evs.filterMap opOf)) := by
  induction evs generalizing s t with
  | nil => exact h
  | cons ev evs ih =>
    have hstep := ih (step_refines h ev)
    rw [← BoundedTable.run_append] at hstep
    rw [List.filterMap_cons]
    cases hop : opOf ev with
    | none =>
      rw [hop] at hstep
      exact hstep
    | some op =>
      rw [hop] at hstep
      exact hstep

end

/-! ## The slots of a run -/

/-- The three vectors side by side. -/
def slots (s : Server) : List (Endpoint × Buffer × ℤ) := s.endpoints.zip (s.buffers.zip s.times)

/-- The slot of a table entry. -/
def slotOf (e : Endpoint × Frame × ℤ) : Endpoint × Buffer × ℤ := (e.1, ⟨e.1.toStr, e.2.1⟩, e.2.2)

/-- The three vectors are aligned: equal lengths, distinct endpoints, and every buffer
carries the name of the endpoint of its slot. -/
structure Aligned (s : Server) : Prop where
  length_buffers : s.buffers.length = s.endpoints.length
  length_times : s.times.length = s.endpoints.length
  length_le : s.endpoints.length ≤ NUMBUFS
  nodup : s.endpoints.Nodup
  owner : s.buffers.map Buffer.id = s.endpoints.map Endpoint.toStr

/-- Every slot holds the frame and the time of the last accepted datagram of its
endpoint, which has been registered ever since. -/
def FromLast (raw : Uninit) (evs : List Event) : Prop :=
  ∀ e buffer time, (e, buffer, time) ∈ ((init raw).runs evs).slots →
    ∃ pre stale d post, evs = pre ++ .datagram stale e d time :: post ∧ Accepted d ∧
      buffer = ⟨e.toStr, packetFrame (packet d)⟩ ∧
      (∀ stale' d' now', Accepted d' → .datagram stale' e d' now' ∉ post) ∧
      ∀ mid, mid <+: post →
        e ∈ ((init raw).runs (pre ++ .datagram stale e d time :: mid)).endpoints

/-- The frame and the time are in the slot of the sender, which is its old one, or a new
one behind the others; the other slots are as before. -/
def Stored (s s' : Server) (e : Endpoint) (frame : Frame) (now : ℤ) : Prop :=
  (e ∈ s.endpoints ∧ s'.slots = s.slots.set (s.endpoints.idxOf e) (slotOf (e, frame, now))) ∨
  (e ∉ s.endpoints ∧ s'.slots = s.slots ++ [slotOf (e, frame, now)])

/-- An accepted datagram is stored in the slot of its sender, unless the sender is new and
the table is full: exactly then nothing is changed. -/
def WritesOwnSlot (s : Server) : Prop :=
  ∀ stale e d now, Accepted d →
    let s' := s.step (.datagram stale e d now)
    (e ∈ s.endpoints ∨ s.endpoints.length ≠ NUMBUFS →
      Stored s s' e (packetFrame (packet d)) now) ∧
    (e ∉ s.endpoints → (s.endpoints.length = NUMBUFS ↔ s' = { s with currenttime := now }))

/-- What a sweep changes: the slots that are too old are gone. -/
def SweepsExpired (s : Server) : Prop :=
  ∀ now, (s.step (.expire now)).slots
    = s.slots.filter fun slot => ¬ (now - slot.2.2 > BUFTIMEOUT)

section
variable {s : Server} {t : SourceTable}

lemma Refines.slots_eq (h : Refines s t) : s.slots = t.entries.map slotOf := by
  unfold slots
  rw [h.endpoints_eq, h.buffers_eq, h.times_eq, BoundedTable.keys, List.zip_map', List.zip_map']
  rfl

lemma Refines.aligned (h : Refines s t) : Aligned s where
  length_buffers := by rw [h.length_buffers, h.length_endpoints]
  length_times := by rw [h.length_times, h.length_endpoints]
  length_le := by rw [h.length_endpoints]; exact t.size_le
  nodup := by rw [h.endpoints_eq]; exact t.nodup
  owner := by
    rw [h.buffers_eq, h.endpoints_eq, BoundedTable.keys, List.map_map, List.map_map]
    rfl

/-- The table of three aligned vectors. -/
def Aligned.table {s : Server} (h : Aligned s) : SourceTable where
  entries := s.slots.map fun slot => (slot.1, slot.2.1.frame, slot.2.2)
  nodup := by
    rw [List.map_map]
    show (s.slots.map Prod.fst).Nodup
    rw [slots, List.map_fst_zip (by simp [h.length_buffers, h.length_times])]
    exact h.nodup
  size_le := by
    have hle := h.length_le
    simp only [slots, List.length_map, List.length_zip]
    omega

/-- Aligned vectors are the columns of a table. -/
lemma Aligned.refines {s : Server} (h : Aligned s) : Refines s h.table := by
  have hzip : s.buffers.length = s.times.length := by rw [h.length_buffers, h.length_times]
  apply refines_of_columns
  · -- the endpoints
    rw [BoundedTable.keys, Aligned.table, List.map_map]
    show s.endpoints = s.slots.map Prod.fst
    rw [slots, List.map_fst_zip (by simp [h.length_buffers, h.length_times])]
  · -- the buffers, whose names are known
    apply List.ext_getElem
    · simp [Aligned.table, slots, h.length_buffers, h.length_times]
    · intro i hi hi'
      have hie : i < s.endpoints.length := h.length_buffers ▸ hi
      have hid : (s.buffers.map Buffer.id)[i]? = (s.endpoints.map Endpoint.toStr)[i]? := by
        rw [h.owner]
      rw [List.getElem?_map, List.getElem?_map, List.getElem?_eq_getElem hi,
        List.getElem?_eq_getElem hie, Option.map_some, Option.map_some, Option.some.injEq] at hid
      simp only [Aligned.table, slots, List.getElem_map, List.getElem_zip, ← hid]
  · -- the times
    rw [Aligned.table, List.map_map]
    show s.times = s.slots.map (Prod.snd ∘ Prod.snd)
    rw [← List.map_map, slots, List.map_snd_zip (by simp [h.length_buffers, h.length_times]),
      List.map_snd_zip hzip.ge]

/-- An accepted packet of a source that is known or has room is stored. -/
lemma Refines.stored (h : Refines s t) (stale : Stale) (recv : Recv) (now : ℤ)
    (hash : header (recv.fill stale.recv_buf) = HASH)
    (hroom : recv.remote_endpoint ∈ s.endpoints ∨ s.endpoints.length < NUMBUFS) :
    Stored s (listen stale recv now s).1 recv.remote_endpoint
      (packetFrame (recv.fill stale.recv_buf)) now := by
  have hs' := listen_refines h stale recv now hash
  by_cases he : recv.remote_endpoint ∈ s.endpoints
  · -- a known source
    have hkey : recv.remote_endpoint ∈ t.keys := h.endpoints_eq ▸ he
    refine Or.inl ⟨he, ?_⟩
    rw [hs'.slots_eq, h.slots_eq, h.endpoints_eq, BoundedTable.entries_put_known hkey,
      BoundedTable.replaced_eq_set t.nodup hkey, List.map_set]
    rfl
  · -- a new source
    have hkey : recv.remote_endpoint ∉ t.keys := h.endpoints_eq ▸ he
    have hlt : t.entries.length < NUMBUFS := h.length_endpoints ▸ hroom.resolve_left he
    refine Or.inr ⟨he, ?_⟩
    rw [hs'.slots_eq, h.slots_eq, BoundedTable.entries_put_new hkey hlt, List.map_append]
    rfl

lemma Refines.writesOwnSlot (h : Refines s t) : WritesOwnSlot s := by
  intro stale e d now hd s'
  have hfill := fill_packet e d stale.recv_buf
  have hash : header ((Recv.datagram e d.1).fill stale.recv_buf) = HASH := by
    rw [hfill]
    exact header_packet_iff.mpr hd
  have hstore (hroom : e ∈ s.endpoints ∨ s.endpoints.length ≠ NUMBUFS) :
      Stored s s' e (packetFrame (packet d)) now := by
    rw [← hfill]
    apply h.stored stale (.datagram e d.1) now hash
    exact hroom.imp_right (lt_of_le_of_ne h.aligned.length_le)
  refine ⟨hstore, fun he => ⟨?_, ?_⟩⟩
  · -- a full table
    intro hfull
    show (listen stale (.datagram e d.1) now s).1 = _
    rw [listen_refuse stale (.datagram e d.1) now h hash he hfull.ge]
  · -- a table with room has one more slot afterwards
    intro hsame
    by_contra hroom
    rcases hstore (Or.inr hroom) with ⟨hknown, -⟩ | ⟨-, hslots⟩
    · exact he hknown
    · have hlen := congrArg List.length hslots
      rw [hsame, List.length_append] at hlen
      exact absurd hlen (Nat.succ_ne_self _).symm

lemma Refines.sweepsExpired (h : Refines s t) : SweepsExpired s := by
  intro now
  have hs' : Refines (s.step (.expire now)) (t.sweep fun v => expired now v.2) :=
    step_refines h (.expire now)
  rw [hs'.slots_eq, h.slots_eq, BoundedTable.entries_sweep, List.filter_map]
  congr 1
  refine List.filter_congr fun e _ => ?_
  show (!expired now e.2.2) = decide ¬(now - e.2.2 > BUFTIMEOUT)
  rw [decide_not, expired]

end

/-- The event behind a write of the table. -/
lemma opOf_eq_put {ev : Event} {e : Endpoint} {v : Frame × ℤ} (h : opOf ev = some (.put e v)) :
    ∃ stale d, ev = .datagram stale e d v.2 ∧ Accepted d ∧ v.1 = packetFrame (packet d) := by
  cases ev with
  | datagram stale e' d now =>
    by_cases hd : Accepted d
    · rw [opOf, if_pos hd, Option.some.injEq, BoundedTable.Op.put.injEq] at h
      rcases h with ⟨rfl, rfl⟩
      exact ⟨stale, d, rfl, hd, rfl⟩
    · rw [opOf, if_neg hd] at h
      exact absurd h (by simp)
  | mix => exact absurd h (by simp [opOf])
  | send => exact absurd h (by simp [opOf])
  | expire now => exact absurd h (by simp [opOf])

/-- The provenance of the entries, read back in the events. -/
lemma fromLast (raw : Uninit) (evs : List Event) : FromLast raw evs := by
  intro e buffer time hslot
  have hrun := runs_refines (refines_init raw)
  rw [(hrun evs).slots_eq, List.mem_map] at hslot
  rcases hslot with ⟨⟨e', frame, time'⟩, hmem, heq⟩
  obtain ⟨rfl, rfl, rfl⟩ : e' = e ∧ ⟨e'.toStr, frame⟩ = buffer ∧ time' = time := by
    simpa only [slotOf, Prod.mk.injEq] using heq
  rcases BoundedTable.mem_run hmem with ⟨opsPre, opsPost, hops, hlast, hkeep⟩
  -- the operation that wrote the entry comes from an event
  rcases List.filterMap_eq_append_iff.mp hops with ⟨pre, rest, rfl, rfl, hrest⟩
  rcases List.filterMap_eq_cons_iff.mp hrest with ⟨skipped, ev, post, rfl, hskip, hev, rfl⟩
  rcases opOf_eq_put hev with ⟨stale, d, rfl, hd, hframe⟩
  have hnone : skipped.filterMap opOf = [] := by
    rw [List.filterMap_eq_nil_iff]
    exact hskip
  refine ⟨pre ++ skipped, stale, d, post, ?_, hd, ?_, ?_, ?_⟩
  · rw [List.append_assoc]
  · exact congrArg (Buffer.mk e'.toStr) hframe
  · -- a later accepted datagram would be a later write
    intro stale' d' now' hd' hlater
    refine hlast (packetFrame (packet d'), now') (List.mem_filterMap.mpr ⟨_, hlater, ?_⟩)
    rw [opOf, if_pos hd']
  · intro mid hmid
    have hmem' := hkeep _ (hmid.filterMap opOf)
    rw [(hrun _).endpoints_eq, List.filterMap_append, List.filterMap_append, hnone,
      List.append_nil, List.filterMap_cons, hev]
    exact BoundedTable.mem_keys_of_mem hmem'

/-- **The three vectors are a bounded table.** After any run of the server they are the
columns of the table that the accepted datagrams and the sweeps describe; so they are
aligned, every slot holds what its source sent last, and one more datagram or sweep
changes no other slot. -/
theorem vectors_refine_table (raw : Uninit) (evs : List Event) :
    Refines ((init raw).runs evs) (BoundedTable.empty.run (evs.filterMap opOf)) ∧
    Aligned ((init raw).runs evs) ∧ FromLast raw evs ∧
    WritesOwnSlot ((init raw).runs evs) ∧ SweepsExpired ((init raw).runs evs) := by
  have h := runs_refines (refines_init raw) evs
  exact ⟨h, h.aligned, fromLast raw evs, h.writesOwnSlot, h.sweepsExpired⟩

/-! ## Two clients -/

/-- The clients at 192.168.1.10 and 192.168.1.11. -/
def firstSource : Endpoint := ⟨0xC0A8010A, 50000⟩
def secondSource : Endpoint := ⟨0xC0A8010B, 50000⟩

/-- The packet of an opaque source with `z`, which shows `v` in the first window channel
and 255 in every other. -/
def opaquePacket (z v : UInt8) : FullDatagram :=
  ⟨HASH ++ ([z, 10] ++ v :: List.replicate 787 255), by
    simp only [List.length_append, length_HASH, List.length_cons, List.length_nil,
      List.length_replicate]
    decide⟩

lemma accepted_opaquePacket (z v : UInt8) : Accepted (opaquePacket z v) := rfl

end Server
end Syndilights.Frameserver
