import Syndilights.Frameserver.Console
import Syndilights.Frameserver.ExpireTheorems

/-!
# The selected client

`selected_buffer` is an index kept outside the table. Nothing adjusts it when `expire`
erases slots, so it designates the same client exactly as long as the steps are `Careful`.
-/

namespace Syndilights.Frameserver

/-! ## An index kept outside a list -/

/-- An element stays at its index when, and only when, nothing before it is dropped. -/
lemma getElem?_filter_iff {α : Type} {l : List α} {p : α → Bool} {i : ℕ} {a : α} (hn : l.Nodup)
    (h : l[i]? = some a) (ha : p a = true) :
    (l.filter p)[i]? = some a ↔ ∀ x ∈ l.take i, p x = true := by
  obtain ⟨hi, hget⟩ := List.getElem?_eq_some_iff.mp h
  have hsplit : l.filter p = (l.take i).filter p ++ a :: (l.drop (i + 1)).filter p := by
    conv_lhs => rw [← List.take_append_drop i l, List.drop_eq_getElem_cons hi, hget]
    rw [List.filter_append, List.filter_cons_of_pos ha]
  have hplace : (l.filter p)[((l.take i).filter p).length]? = some a := by
    rw [hsplit, List.getElem?_append_right le_rfl, Nat.sub_self]
    rfl
  have hlen : (l.take i).length = i := by
    rw [List.length_take]
    omega
  rw [← List.length_filter_eq_length_iff, hlen]
  constructor
  · intro hsame
    have hlt := (List.getElem?_eq_some_iff.mp hplace).1
    exact (List.getElem?_inj hlt (hn.filter p)).mp (hplace.trans hsame.symm)
  · intro hsame
    rwa [hsame] at hplace

namespace Console

open Server (Refines SourceTable header expired firstSource secondSource opaquePacket)

/-! ## The selection -/

/-- The client that the selection designates. -/
def designated (c : Console) : Option Endpoint := c.server.endpoints[c.selected_buffer]?

/-- When there is a client at all, the selection is an index of the table. -/
def Valid (c : Console) : Prop :=
  c.server.buffers ≠ [] → c.selected_buffer < c.server.buffers.length

/-- A step of the input thread. -/
def Action.OfKey : Action → Prop
  | .key _ => True
  | .increment => True
  | _ => False

/-- The designated client changes only through a key, or because the step expires it. -/
def Follows (c : Console) (a : Action) (c' : Console) : Prop :=
  ∀ e, c.designated = some e → c'.designated = some e ∨ a.OfKey ∨
    ∃ now, a = .expire now ∧ e ∉ c'.server.endpoints

/-- The selection is an index of the table and follows its client, all through the run. -/
def SelectionKept (c : Console) (actions : List Action) : Prop :=
  (∀ before after mid, actions = before ++ after → ActionSystem.run step c before = some mid →
    mid.Valid) ∧
  ∀ before a after mid next, actions = before ++ a :: after →
    ActionSystem.run step c before = some mid → step mid a = some next → Follows mid a next

/-- The step leaves the selection right. An increment meets a table that still has the next
slot; a client is registered in an empty table only while the first slot is selected; and a
sweep drops nothing below the selected client, or, if it drops the selected client itself,
leaves nothing or still has its slot. -/
def Careful (c : Console) : Action → Prop
  | .key _ => True
  | .increment => c.server.buffers = [] ∨ c.selected_buffer + 1 < c.server.get_size
  | .listen stale recv _ =>
    header (recv.fill stale.recv_buf) = HASH → c.server.buffers = [] → c.selected_buffer = 0
  | .expire now =>
    if c.server.times[c.selected_buffer]?.any (expired now) then
      let left := c.server.times.filter fun time => !expired now time
      left = [] ∨ c.selected_buffer < left.length
    else ∀ time ∈ c.server.times.take c.selected_buffer, expired now time = false

/-! ## One step -/

section
variable {c c' : Console} {t : SourceTable}

lemma valid_iff (h : Refines c.server t) :
    c.Valid ↔ (t.entries ≠ [] → c.selected_buffer < t.entries.length) := by
  have hnil : c.server.buffers = [] ↔ t.entries = [] := by rw [h.buffers_eq, List.map_eq_nil_iff]
  rw [Valid, Ne, hnil, h.length_buffers]

lemma designated_eq (h : Refines c.server t) :
    c.designated = t.entries[c.selected_buffer]?.map fun e => e.1 := by
  rw [designated, h.endpoints_eq, BoundedTable.keys, List.getElem?_map]

/-- The step is taken with a sound table, and leaves the selection as it should be. -/
def Right (c : Console) (a : Action) (c' : Console) : Prop := c'.Valid ∧ Follows c a c'

/-- Keys and increments may change the selection; they only have to keep it valid. -/
lemma right_ofKey {a : Action} (ha : a.OfKey) : Right c a c' ↔ c'.Valid :=
  and_iff_left fun _ _ => Or.inr (Or.inl ha)

lemma right_key (hv : c.Valid) (k : Key) : Right c (.key k) (c.input k) := by
  refine (right_ofKey (a := .key k) trivial).mpr ?_
  unfold Valid at hv ⊢
  cases k with
  | KEY_DOWN =>
    unfold input
    dsimp only
    split_ifs <;> exact hv
  | KEY_UP =>
    unfold input
    dsimp only
    split_ifs
    · intro hne
      have hlt := hv hne
      dsimp only
      omega
    · exact hv
  | _ => exact hv

lemma right_increment :
    Right c .increment { c with selected_buffer := c.selected_buffer + 1, counted := false } ↔
      Careful c .increment := by
  rw [right_ofKey (a := .increment) trivial, Valid, Careful, Server.get_size, Ne, imp_iff_not_or,
    not_not]

/-- What an accepted packet does to the sources. -/
lemma endpoints_listen (h : Refines c.server t) (stale : Server.Stale) (recv : Server.Recv)
    (now : ℤ) (hash : header (recv.fill stale.recv_buf) = HASH) :
    ∃ more, (Server.listen stale recv now c.server).1.endpoints = c.server.endpoints ++ more ∧
      (c.server.endpoints = [] → more.length = 1) := by
  by_cases hknown : recv.remote_endpoint ∈ c.server.endpoints
  · refine ⟨[], ?_, fun hnil => ?_⟩
    · rw [Server.listen_known stale recv now h hash hknown, List.append_nil]
    · rw [hnil] at hknown
      exact absurd hknown List.not_mem_nil
  · by_cases hroom : c.server.endpoints.length < NUMBUFS
    · refine ⟨[recv.remote_endpoint], ?_, fun _ => rfl⟩
      rw [Server.listen_register stale recv now h hash hknown hroom]
    · refine ⟨[], ?_, fun hnil => ?_⟩
      · rw [Server.listen_refuse stale recv now h hash hknown (not_lt.mp hroom), List.append_nil]
      · rw [hnil] at hroom
        exact absurd (by decide) hroom

/-- A packet leaves the clients in their slots. -/
lemma follows_listen (h : Refines c.server t) (stale : Server.Stale) (recv : Server.Recv)
    (now : ℤ) (hash : header (recv.fill stale.recv_buf) = HASH) :
    Follows c (.listen stale recv now)
      { c with server := (Server.listen stale recv now c.server).1 } := by
  obtain ⟨more, hmore, -⟩ := endpoints_listen h stale recv now hash
  intro e he
  left
  unfold designated at he ⊢
  rw [hmore, List.getElem?_append_left (List.getElem?_eq_some_iff.mp he).1]
  exact he

lemma right_listen (h : Refines c.server t) (hv : c.Valid) (stale : Server.Stale)
    (recv : Server.Recv) (now : ℤ) :
    Right c (.listen stale recv now)
        { c with server := (Server.listen stale recv now c.server).1 } ↔
      Careful c (.listen stale recv now) := by
  by_cases hash : header (recv.fill stale.recv_buf) = HASH
  · have hs' := Server.listen_refines h stale recv now hash
    obtain ⟨more, hmore, hfirst⟩ := endpoints_listen h stale recv now hash
    have hlen := congrArg List.length hmore
    rw [hs'.length_endpoints, ← hs'.length_buffers, List.length_append, h.length_endpoints,
      ← h.length_buffers] at hlen
    have hnil : c.server.buffers = [] ↔ c.server.endpoints = [] := by
      rw [← List.length_eq_zero_iff, ← List.length_eq_zero_iff, h.length_buffers,
        h.length_endpoints]
    rw [Right, and_iff_left (follows_listen h stale recv now hash), Careful, Valid]
    dsimp only
    constructor
    · -- the new client is the only one
      intro hvalid _ hempty
      rw [hfirst (hnil.mp hempty), hempty, List.length_nil] at hlen
      have hlt := hvalid (List.ne_nil_of_length_pos (by omega))
      omega
    · intro hcareful hne
      by_cases hempty : c.server.buffers = []
      · have hzero := hcareful hash hempty
        have hpos := List.length_pos_of_ne_nil hne
        omega
      · have hlt := hv hempty
        omega
  · -- the packet is discarded
    rw [Server.listen_discard stale recv now hash]
    refine iff_of_true ⟨hv, fun e he => Or.inl he⟩ fun hhash => absurd hhash hash

/-- After a sweep. -/
lemma valid_expire (h : Refines c.server t) (now : ℤ) :
    Valid { c with server := Server.expire now c.server } ↔
      ((t.entries.filter fun e => !expired now e.2.2) = [] ∨
        c.selected_buffer < (t.entries.filter fun e => !expired now e.2.2).length) := by
  rw [valid_iff (c := { c with server := Server.expire now c.server }) (Server.expire_refines h now),
    Ne, imp_iff_not_or, not_not]
  rfl

/-- A client that the sweep drops is gone. -/
lemma notMem_expire (h : Refines c.server t) (now : ℤ) {e : Endpoint × Frame × ℤ}
    (he : e ∈ t.entries) (hold : expired now e.2.2 = true) :
    e.1 ∉ (Server.expire now c.server).endpoints := by
  rw [(Server.expire_refines h now).endpoints_eq, BoundedTable.keys, BoundedTable.entries_sweep]
  intro hmem
  rcases List.mem_map.mp hmem with ⟨e', he', heq⟩
  rw [List.mem_filter] at he'
  obtain rfl := List.inj_on_of_nodup_map t.nodup he'.1 he heq
  rw [hold] at he'
  exact absurd he'.2 (by decide)

/-- A client that the sweep leaves is still there. -/
lemma mem_expire (h : Refines c.server t) (now : ℤ) {e : Endpoint × Frame × ℤ}
    (he : e ∈ t.entries) (hold : expired now e.2.2 = false) :
    e.1 ∈ (Server.expire now c.server).endpoints := by
  rw [(Server.expire_refines h now).endpoints_eq]
  apply BoundedTable.mem_keys_of_mem
  refine List.mem_filter.mpr ⟨he, ?_⟩
  dsimp only
  rw [hold]
  rfl

/-- A client that the sweep leaves is still designated when nothing before it is dropped. -/
lemma designated_expire (h : Refines c.server t) (now : ℤ) {e : Endpoint × Frame × ℤ}
    (he : t.entries[c.selected_buffer]? = some e) (hold : expired now e.2.2 = false) :
    designated { c with server := Server.expire now c.server } = some e.1 ↔
      ∀ time ∈ c.server.times.take c.selected_buffer, expired now time = false := by
  have hkept := getElem?_filter_iff (p := fun e => !expired now e.2.2) t.nodup.of_map he
    (by rw [hold]; rfl)
  rw [designated_eq (c := { c with server := Server.expire now c.server })
    (Server.expire_refines h now), BoundedTable.entries_sweep, h.times_eq, ← List.map_take,
    List.forall_mem_map]
  simp only [Bool.not_eq_true'] at hkept
  rw [← hkept, Option.map_eq_some_iff]
  constructor
  · rintro ⟨e', he', heq⟩
    have hmem := List.mem_of_mem_filter (List.mem_of_getElem? he')
    obtain rfl := List.inj_on_of_nodup_map t.nodup hmem (List.mem_of_getElem? he) heq
    exact he'
  · intro hsame
    exact ⟨e, hsame, rfl⟩

/-- `Careful` in terms of the table. -/
lemma careful_expire_iff (h : Refines c.server t) (now : ℤ) : Careful c (.expire now) ↔
    if t.entries[c.selected_buffer]?.any fun e => expired now e.2.2 then
      (t.entries.filter fun e => !expired now e.2.2) = [] ∨
        c.selected_buffer < (t.entries.filter fun e => !expired now e.2.2).length
    else ∀ time ∈ c.server.times.take c.selected_buffer, expired now time = false := by
  have htime : c.server.times[c.selected_buffer]?
      = t.entries[c.selected_buffer]?.map fun e => e.2.2 := by
    rw [h.times_eq, List.getElem?_map]
  have hleft : (c.server.times.filter fun time => !expired now time)
      = (t.entries.filter fun e => !expired now e.2.2).map fun e => e.2.2 := by
    rw [h.times_eq, List.filter_map]
    rfl
  unfold Careful
  dsimp only
  rw [htime, hleft, List.map_eq_nil_iff, List.length_map, Option.any_map]

/-- While the selected client stays, the selection is right when it still designates it. -/
lemma right_expire_kept (h : Refines c.server t) (now : ℤ) {e : Endpoint × Frame × ℤ}
    (he : t.entries[c.selected_buffer]? = some e) (hold : expired now e.2.2 = false) :
    Right c (.expire now) { c with server := Server.expire now c.server } ↔
      designated { c with server := Server.expire now c.server } = some e.1 := by
  have hdesignated : c.designated = some e.1 := by
    rw [designated_eq h, he]
    rfl
  constructor
  · rintro ⟨-, hfollows⟩
    rcases hfollows e.1 hdesignated with hsame | hkey | ⟨now', hnow, hgone⟩
    · exact hsame
    · exact absurd hkey id
    · obtain rfl := Action.expire.inj hnow
      exact absurd (mem_expire h now (List.mem_of_getElem? he) hold) hgone
  · intro hsame
    refine ⟨(valid_expire h now).mpr (Or.inr ?_), fun e' hdes => Or.inl ?_⟩
    · rw [designated_eq (c := { c with server := Server.expire now c.server })
        (Server.expire_refines h now), Option.map_eq_some_iff] at hsame
      rcases hsame with ⟨e', he', -⟩
      exact (List.getElem?_eq_some_iff.mp he').1
    · exact hsame.trans (hdesignated.symm.trans hdes)

lemma right_expire (h : Refines c.server t) (hv : c.Valid) (now : ℤ) :
    Right c (.expire now) { c with server := Server.expire now c.server } ↔
      Careful c (.expire now) := by
  have hdesignated := designated_eq h
  rw [careful_expire_iff h, Right, valid_expire h]
  cases he : t.entries[c.selected_buffer]? with
  | none =>
    -- there is no client
    have hempty : t.entries = [] := by
      by_contra hne
      have hlt := (valid_iff h).mp hv hne
      exact absurd (List.getElem?_eq_none_iff.mp he) (by omega)
    rw [he] at hdesignated
    refine iff_of_true ⟨Or.inl (by rw [hempty]; rfl), fun e hdes => ?_⟩ ?_
    · rw [hdesignated] at hdes
      exact absurd hdes (by simp)
    · rw [h.times_eq, hempty]
      exact fun time htime => absurd htime (by simp)
  | some e =>
    rw [he] at hdesignated
    cases hold : expired now e.2.2 with
    | true =>
      -- the selected client is dropped
      rw [Option.any_some, hold, if_pos rfl, and_iff_left_iff_imp]
      intro _ e' hdes
      obtain rfl : e.1 = e' := Option.some.inj (hdesignated.symm.trans hdes)
      exact Or.inr (Or.inr ⟨now, rfl, notMem_expire h now (List.mem_of_getElem? he) hold⟩)
    | false =>
      -- the selected client stays
      rw [Option.any_some, hold, if_neg Bool.false_ne_true, ← designated_expire h now he hold,
        ← valid_expire h]
      exact right_expire_kept h now he hold

/-! ## Runs -/

/-- The table of the server is sound. -/
def Sound (c : Console) : Prop := ∃ t, Refines c.server t

lemma sound_step {a : Action} (hs : c.Sound) (h : step c a = some c') : c'.Sound := by
  rcases hs with ⟨t, ht⟩
  cases a with
  | key k =>
    rw [step, Option.ite_none_left_eq_some, Option.some.injEq] at h
    have hserver : (c.input k).server = c.server := by
      unfold input
      cases k <;> dsimp only <;> split_ifs <;> rfl
    exact ⟨t, by rw [← h.2, hserver]; exact ht⟩
  | increment =>
    rw [step] at h
    rw [← (ActionSystem.of_guard h).2]
    exact ⟨t, ht⟩
  | listen stale recv now =>
    obtain rfl := Option.some.inj h
    by_cases hash : header (recv.fill stale.recv_buf) = HASH
    · exact ⟨_, Server.listen_refines ht stale recv now hash⟩
    · refine ⟨t, ?_⟩
      rw [Server.listen_discard stale recv now hash]
      exact ht
  | expire now =>
    obtain rfl := Option.some.inj h
    exact ⟨_, Server.expire_refines ht now⟩

/-- **One step** leaves the selection right exactly when it is careful. -/
lemma right_iff_careful {a : Action} (hs : c.Sound) (hv : c.Valid) (h : step c a = some c') :
    Right c a c' ↔ Careful c a := by
  rcases hs with ⟨t, ht⟩
  cases a with
  | key k =>
    rw [step, Option.ite_none_left_eq_some, Option.some.injEq] at h
    rw [← h.2]
    exact iff_of_true (right_key hv k) trivial
  | increment =>
    rw [step] at h
    rw [← (ActionSystem.of_guard h).2]
    exact right_increment
  | listen stale recv now =>
    obtain rfl := Option.some.inj h
    exact right_listen ht hv stale recv now
  | expire now =>
    obtain rfl := Option.some.inj h
    exact right_expire ht hv now

end

lemma sound_init (raw : Uninit) (console_input : ℤ) : (init raw console_input).Sound :=
  ⟨BoundedTable.empty, Server.refines_init raw⟩

lemma sound_run {c c' : Console} {actions : List Action} (hs : c.Sound)
    (hrun : ActionSystem.run step c actions = some c') : c'.Sound :=
  ActionSystem.run_invariant hs (fun _ _ _ hmid _ ha => sound_step hmid ha)
    ActionSystem.meets_true hrun

/-- **When the selection designates a connected client.** In every run of the console, all
through it, exactly if every step is careful. -/
theorem selectionKept_iff (raw : Uninit) (console_input : ℤ) (actions : List Action) (c : Console)
    (hrun : ActionSystem.run step (init raw console_input) actions = some c) :
    SelectionKept (init raw console_input) actions ↔
      ActionSystem.Meets step Careful (init raw console_input) actions := by
  have hs := sound_init raw console_input
  have hvalid : (init raw console_input).Valid := fun hne => absurd rfl hne
  constructor
  · rintro ⟨hall, hfollows⟩ before a after mid hsplit hmid
    rw [hsplit, ActionSystem.run_append, hmid, Option.bind_some, ActionSystem.run_cons,
      Option.bind_eq_some_iff] at hrun
    rcases hrun with ⟨next, hnext, -⟩
    have hafter : ActionSystem.run step (init raw console_input) (before ++ [a]) = some next :=
      (ActionSystem.run_concat_eq_some step).mpr ⟨mid, hmid, hnext⟩
    have hv := hall before (a :: after) mid hsplit hmid
    have hv' := hall (before ++ [a]) after next (by rw [hsplit, List.append_assoc]; rfl) hafter
    exact (right_iff_careful (sound_run hs hmid) hv hnext).mp
      ⟨hv', hfollows before a after mid next hsplit hmid hnext⟩
  · intro hmeets
    have hall : ∀ before after mid, actions = before ++ after →
        ActionSystem.run step (init raw console_input) before = some mid → mid.Valid := by
      rintro before after mid rfl hmid
      have hinv := ActionSystem.run_invariant (I := fun c : Console => c.Sound ∧ c.Valid)
        ⟨hs, hvalid⟩ ?_ hmeets.before hmid
      · exact hinv.2
      · intro a mid next hmid hcareful hnext
        have hright := (right_iff_careful hmid.1 hmid.2 hnext).mpr hcareful
        exact ⟨sound_step hmid.1 hnext, hright.1⟩
    -- the selection follows in each step, since it is valid before it
    refine ⟨hall, ?_⟩
    intro before a after mid next hsplit hmid hnext
    have hv := hall before (a :: after) mid hsplit hmid
    exact ((right_iff_careful (sound_run hs hmid) hv hnext).mpr
      (hmeets before a after mid hsplit hmid)).2

/-! ## Two clients -/

/-- The server that has heard one source at time 0 and the other at `now`. -/
def heardBoth (now : ℤ) : Server :=
  (Server.listen default (.datagram secondSource (opaquePacket 1 200).1) now
    (Server.listen default (.datagram firstSource (opaquePacket 1 200).1) 0
      (Server.init default)).1).1

lemma refines_heardBoth (now : ℤ) : ∃ (t : SourceTable) (frame : Frame),
    Refines (heardBoth now) t ∧
      t.entries = [(firstSource, frame, 0), (secondSource, frame, now)] := by
  have hash (e : Endpoint) : header ((Server.Recv.datagram e (opaquePacket 1 200).1).fill
      (default : Server.Stale).recv_buf) = HASH := by
    rw [Server.fill_packet]
    exact Server.header_packet_iff.mpr (Server.accepted_opaquePacket 1 200)
  have hfirst := Server.listen_refines (Server.refines_init default) default _ 0 (hash firstSource)
  have hboth := Server.listen_refines hfirst default _ now (hash secondSource)
  have hentries := BoundedTable.entries_put_new (t := (BoundedTable.empty : SourceTable))
    (k := firstSource) List.not_mem_nil (by decide)
  rw [Server.fill_packet] at hfirst hboth
  refine ⟨_, Server.packetFrame (Server.packet (opaquePacket 1 200)), hboth, ?_⟩
  rw [Server.fill_packet, BoundedTable.entries_put_new, Server.Recv.remote_endpoint,
    Server.Recv.remote_endpoint, hentries]
  · rfl
  · rw [BoundedTable.keys, Server.Recv.remote_endpoint, hentries]
    decide
  · rw [Server.Recv.remote_endpoint, hentries]
    decide

lemma get_size_heardBoth (now : ℤ) : (heardBoth now).get_size = 2 := by
  rcases refines_heardBoth now with ⟨t, frame, ht, hentries⟩
  rw [Server.get_size, ht.length_buffers, hentries]
  rfl

/-- The console while the client list is shown. -/
def shown (server : Server) (selected_buffer : ℕ) (counted : Bool) : Console :=
  ⟨server, selected_buffer, .CLIENTS, 0, counted⟩

lemma step_down (now : ℤ) :
    step (shown (heardBoth now) 0 false) (.key .KEY_DOWN) = some (shown (heardBoth now) 0 true) := by
  have hsize : (heardBoth now).get_size = 2 := get_size_heardBoth now
  show some (input _ _) = _
  rw [input]
  exact congrArg some (if_pos ⟨rfl, hsize ▸ Nat.lt_succ_self 1⟩)

/-- Two sources, the second of which is selected, and a sweep at time 3. -/
def selectSecond (now : ℤ) : List Action :=
  [.listen default (.datagram firstSource (opaquePacket 1 200).1) 0,
   .listen default (.datagram secondSource (opaquePacket 1 200).1) now,
   .key .KEY_F4, .key .KEY_DOWN, .increment, .expire 3]

lemma run_selectSecond (now : ℤ) : ActionSystem.run step (init default 0) (selectSecond now)
    = some (shown (Server.expire 3 (heardBoth now)) 1 false) := by
  show ActionSystem.run step (shown (heardBoth now) 0 false)
    [.key .KEY_DOWN, .increment, .expire 3] = _
  rw [ActionSystem.run_cons, step_down]
  rfl

/-- The first source has been silent for too long: the sweep moves the selected one to the
slot before, and the selection is out of range. -/
theorem selection_out_of_range : ∃ c,
    ActionSystem.run step (init default 0) (selectSecond 2) = some c ∧
      ¬ SelectionKept (init default 0) (selectSecond 2) := by
  refine ⟨_, run_selectSecond 2, ?_⟩
  rintro ⟨hall, -⟩
  have hvalid := hall (selectSecond 2) [] _ (List.append_nil _).symm (run_selectSecond 2)
  rcases refines_heardBoth 2 with ⟨t, frame, ht, hentries⟩
  rw [shown, valid_iff (Server.expire_refines ht 3), BoundedTable.entries_sweep, hentries] at hvalid
  -- one client is left
  have hlt := hvalid (List.cons_ne_nil (secondSource, frame, 2) [])
  exact absurd hlt (lt_irrefl 1)

/-- Both sources have been silent for too long: the sweep leaves nothing. -/
theorem selectionKept_silent : SelectionKept (init default 0) (selectSecond 0) := by
  refine (selectionKept_iff default 0 (selectSecond 0) _ (run_selectSecond 0)).mpr ?_
  have hincrement : Careful (shown (heardBoth 0) 0 true) .increment := by
    right
    rw [shown, get_size_heardBoth 0]
    exact Nat.lt_succ_self 1
  have hsweep : Careful (shown (heardBoth 0) 1 false) (.expire 3) := by
    rcases refines_heardBoth 0 with ⟨t, frame, ht, hentries⟩
    rw [shown, careful_expire_iff ht, hentries]
    exact Or.inl rfl
  refine .cons (fun _ _ => rfl) rfl (.cons (fun _ _ => rfl) rfl (.cons trivial rfl ?_))
  exact .cons trivial (step_down 0) (.cons hincrement rfl (.cons hsweep rfl .nil))

end Console
end Syndilights.Frameserver
