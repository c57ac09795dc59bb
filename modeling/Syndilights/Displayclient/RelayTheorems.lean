import Syndilights.ActionSystem
import Syndilights.Displayclient.Relay
import Syndilights.Displayclient.WsUdpTheorems

/-!
# When the relay serves its viewers

As long as every handler returns, the registry is exactly the open connections, in the order
of acceptance. A handler throws for a viewer that does not ask for the protocol, and for a
binary message when somebody is connected.
-/

namespace Syndilights.Displayclient

open ActionSystem

namespace Relay

/-! ## Who is connected -/

/-- The number of connections that were accepted, and those of them that are open. -/
def viewers (events : List Event) : ℕ × List ℕ :=
  events.foldl (fun (n, opened) e => match e with
    | .request _ => (n + 1, opened ++ [n])
    | .close connection => (n, opened.filter (· ≠ connection))
    | .message _ _ => (n, opened)
    | .datagram _ => (n, opened)) (0, [])

abbrev accepted (events : List Event) : ℕ := (viewers events).1

abbrev opened (events : List Event) : List ℕ := (viewers events).2

/-- The relay keeps serving: no handler throws, no id is given twice, and every datagram is
handed once to every open connection and to no other. -/
structure Serves (skip : Utf8.Policy) (events : List Event) : Prop where
  returns : run (step skip) start events ≠ none
  ids : ∀ r, run (step skip) start events = some r → r.ids.Nodup
  delivers : ∀ before msg after r, events = before ++ .datagram msg :: after →
    run (step skip) start before = some r →
    ∃ calls, handle skip r (.datagram msg) = some (r, calls) ∧
      ∀ c d, calls.count (c, d) = if c ∈ opened before ∧ d = .buffer msg then 1 else 0

/-- The event does not make its handler throw: a viewer asks for the protocol, and a binary
message arrives only when nobody is connected any more. -/
def Harmless (before : List Event) : Event → Prop
  | .request requestedProtocols => "echo-protocol" ∈ requestedProtocols
  | .message connection (.binary _) => connection < accepted before → opened before = []
  | .message _ (.utf8 _) => True
  | .close _ => True
  | .datagram _ => True

/-! ## The viewers of a run -/

section
variable (events : List Event)

lemma viewers_request (ps : List String) : viewers (events ++ [.request ps])
    = (accepted events + 1, opened events ++ [accepted events]) := by
  rw [viewers, List.foldl_append]
  rfl

lemma viewers_close (c : ℕ) : viewers (events ++ [.close c])
    = (accepted events, (opened events).filter (· ≠ c)) := by
  rw [viewers, List.foldl_append]
  rfl

lemma viewers_message (c : ℕ) (m : Message) :
    viewers (events ++ [.message c m]) = viewers events := by
  rw [viewers, List.foldl_append]
  rfl

lemma viewers_datagram (msg : List UInt8) :
    viewers (events ++ [.datagram msg]) = viewers events := by
  rw [viewers, List.foldl_append]
  rfl

/-- The open connections are accepted ones, each once. -/
lemma opened_spec :
    (opened events).Pairwise (· < ·) ∧ ∀ c ∈ opened events, c < accepted events := by
  induction events using List.reverseRecOn with
  | nil => exact ⟨List.Pairwise.nil, fun c hc => absurd hc List.not_mem_nil⟩
  | append_singleton events e ih =>
    rcases ih with ⟨hsorted, hlt⟩
    unfold opened accepted
    cases e with
    -- a new client gets the highest number so far
    | request ps =>
      rw [viewers_request]
      constructor
      · rw [List.pairwise_append]
        refine ⟨hsorted, List.pairwise_singleton _ _, ?_⟩
        intro c hc n hn
        rw [List.mem_singleton.mp hn]
        exact hlt c hc
      · intro c hc
        rcases List.mem_append.mp hc with hold | hnew
        · exact (hlt c hold).trans (Nat.lt_succ_self _)
        · rw [List.mem_singleton.mp hnew]
          exact Nat.lt_succ_self _
    | close c =>
      rw [viewers_close]
      exact ⟨hsorted.filter _, fun c hc => hlt c (List.mem_filter.mp hc).1⟩
    | message c m =>
      rw [viewers_message]
      exact ⟨hsorted, hlt⟩
    | datagram msg =>
      rw [viewers_datagram]
      exact ⟨hsorted, hlt⟩

end

/-- The state after these events, if no handler threw. -/
def stateAfter (events : List Event) : Relay where
  count := accepted events
  clients := (opened events).map fun c => (c, c)
  ids := List.range (accepted events)

/-- The listeners of a connection have its number for their `id`. -/
lemma getElem?_ids (events : List Event) (c : ℕ) :
    (stateAfter events).ids[c]? = if c < accepted events then some c else none := by
  show (List.range (accepted events))[c]? = _
  split_ifs with hlt
  · rw [List.getElem?_range hlt]
  · rw [List.getElem?_eq_none (by rw [List.length_range]; omega)]

/-! ## The registry -/

/-- A key that is larger than all others goes to the end. -/
lemma setClient_of_lt {clients : List (ℕ × ℕ)} {id : ℕ} (h : ∀ c ∈ clients, c.1 < id)
    (connection : ℕ) : setClient clients id connection = clients ++ [(id, connection)] := by
  have hfilter : (clients.filter fun c => c.1 ≠ id) = clients := by
    rw [List.filter_eq_self]
    intro c hc
    have hlt := h c hc
    exact decide_eq_true (by omega)
  rw [setClient, hfilter]
  clear hfilter
  induction clients with
  | nil => rfl
  | cons c clients ih =>
    have hlt := h c List.mem_cons_self
    rw [List.orderedInsert_cons, if_neg (by dsimp only; omega),
      ih fun c hc => h c (List.mem_cons_of_mem _ hc), List.cons_append]

/-- Text and buffers can be sent. -/
lemma exists_sendUTF (skip : Utf8.Policy) {data : Data} (h : data ≠ .null) :
    ∃ frames, sendUTF skip data = some frames := by
  have hframes (payload : List UInt8) :
      ∃ frames, fragmentAndSend ⟨TEXT_FRAME, false, payload⟩ = some frames := by
    have hopcode : (⟨TEXT_FRAME, false, payload⟩ : WebSocketFrame).opcode = TEXT_FRAME := rfl
    rcases message_fragmentAndSend hopcode with ⟨frames, hsend, -⟩
    exact ⟨frames, hsend⟩
  cases data with
  | buffer bytes => exact hframes _
  | string text => exact hframes _
  | null => exact absurd rfl h

/-- Data that can be sent is handed to every client. -/
lemma broadcast_eq (skip : Utf8.Policy) {data : Data} (h : data ≠ .null)
    (clients : List (ℕ × ℕ)) :
    broadcast skip clients data = some (clients.map fun c => (c.2, data)) := by
  rcases exists_sendUTF skip h with ⟨frames, hframes⟩
  unfold broadcast
  rw [hframes]
  exact List.mapM_pure

/-- Data without `toString` makes the first call throw. -/
lemma broadcast_null (skip : Utf8.Policy) (clients : List (ℕ × ℕ)) :
    broadcast skip clients .null = if clients = [] then some [] else none := by
  cases clients with
  | nil => rfl
  | cons c clients => rfl

/-! ## One event -/

section
variable (skip : Utf8.Policy)

lemma step_request (r : Relay) (ps : List String) :
    step skip r (.request ps) =
      if "echo-protocol" ∈ ps then
        some ⟨r.count + 1, setClient r.clients r.count r.ids.length, r.ids ++ [r.count]⟩
      else none := by
  unfold step handle
  dsimp only
  by_cases hps : "echo-protocol" ∈ ps
  · rw [accept, if_pos hps, if_pos hps]
    rfl
  · rw [accept, if_neg hps, if_neg hps]
    rfl

lemma step_close (r : Relay) (c : ℕ) :
    step skip r (.close c)
      = some { r with clients := r.ids[c]?.elim r.clients (deleteClient r.clients) } := by
  unfold step handle
  dsimp only
  cases r.ids[c]? <;> rfl

lemma step_utf8 (r : Relay) (c : ℕ) (text : List Char) :
    step skip r (.message c (.utf8 text)) = some r := by
  unfold step handle
  dsimp only
  rw [Message.utf8Data, broadcast_eq skip (by simp)]
  cases r.ids[c]? <;> rfl

lemma step_binary (r : Relay) (c : ℕ) (bytes : List UInt8) :
    step skip r (.message c (.binary bytes))
      = if r.ids[c]? ≠ none ∧ r.clients ≠ [] then none else some r := by
  unfold step handle
  dsimp only
  rw [Message.utf8Data, broadcast_null]
  cases r.ids[c]? with
  | none => rfl
  | some id => by_cases hclients : r.clients = [] <;> simp [hclients]

lemma step_datagram (r : Relay) (msg : List UInt8) : step skip r (.datagram msg) = some r := by
  unfold step handle
  dsimp only
  rw [broadcast_eq skip (by simp)]
  rfl

/-- A new viewer goes to the end of the registry. -/
lemma stateAfter_request (events : List Event) (ps : List String) :
    stateAfter (events ++ [.request ps]) = ⟨(stateAfter events).count + 1,
      setClient (stateAfter events).clients (stateAfter events).count (stateAfter events).ids.length,
      (stateAfter events).ids ++ [(stateAfter events).count]⟩ := by
  have hclients : setClient (stateAfter events).clients (accepted events) (accepted events)
      = (opened events ++ [accepted events]).map fun c => (c, c) := by
    rw [setClient_of_lt, List.map_append]
    · rfl
    · intro c hc
      rcases List.mem_map.mp hc with ⟨n, hn, rfl⟩
      exact (opened_spec events).2 n hn
  have hlength : (stateAfter events).ids.length = accepted events := List.length_range
  rw [hlength]
  show _ = Relay.mk (accepted events + 1) (setClient _ (accepted events) _)
    (List.range (accepted events) ++ [accepted events])
  rw [hclients, ← List.range_succ, stateAfter, accepted, opened, viewers_request]

/-- A viewer that goes leaves the registry. -/
lemma stateAfter_close (events : List Event) (c : ℕ) :
    stateAfter (events ++ [.close c]) = { stateAfter events with
      clients := (stateAfter events).ids[c]?.elim (stateAfter events).clients
        (deleteClient (stateAfter events).clients) } := by
  have hclients : (stateAfter events).ids[c]?.elim (stateAfter events).clients
        (deleteClient (stateAfter events).clients)
      = ((opened events).filter (· ≠ c)).map fun c => (c, c) := by
    rw [getElem?_ids]
    split_ifs with hc
    · show ((opened events).map fun c => (c, c)).filter _ = _
      rw [List.filter_map]
      rfl
    · have hall : (opened events).filter (· ≠ c) = opened events := by
        rw [List.filter_eq_self]
        intro n hn
        have hlt := (opened_spec events).2 n hn
        exact decide_eq_true (by omega)
      rw [hall]
      rfl
  rw [hclients, stateAfter, accepted, opened, viewers_close]
  rfl

/-- The other events leave the registry alone. -/
lemma stateAfter_message (events : List Event) (c : ℕ) (m : Message) :
    stateAfter (events ++ [.message c m]) = stateAfter events := by
  rw [stateAfter, accepted, opened, viewers_message]
  rfl

lemma stateAfter_datagram (events : List Event) (msg : List UInt8) :
    stateAfter (events ++ [.datagram msg]) = stateAfter events := by
  rw [stateAfter, accepted, opened, viewers_datagram]
  rfl

/-- A binary message does harm exactly when an accepted connection sends it to somebody. -/
lemma not_harmless_binary (events : List Event) (c : ℕ) (bytes : List UInt8) :
    (stateAfter events).ids[c]? ≠ none ∧ (stateAfter events).clients ≠ [] ↔
      ¬ Harmless events (.message c (.binary bytes)) := by
  rw [getElem?_ids, Harmless, Classical.not_imp]
  show _ ∧ (opened events).map _ ≠ [] ↔ _
  rw [Ne, Ne, List.map_eq_nil_iff]
  apply and_congr_left
  intro _
  split_ifs with hc <;> simp [hc]

/-- One event: its handler returns exactly if the event is harmless. -/
lemma step_stateAfter (events : List Event) (e : Event) (r : Relay) :
    step skip (stateAfter events) e = some r ↔
      Harmless events e ∧ r = stateAfter (events ++ [e]) := by
  cases e with
  | request ps =>
    rw [step_request, Option.ite_none_right_eq_some, Option.some.injEq, stateAfter_request]
    exact and_congr_right fun _ => eq_comm
  | close c =>
    rw [step_close, stateAfter_close, Option.some.injEq, Harmless, true_and]
    exact eq_comm
  | message c m =>
    rw [stateAfter_message]
    cases m with
    | utf8 text =>
      rw [step_utf8, Option.some.injEq, Harmless, true_and]
      exact eq_comm
    | binary bytes =>
      rw [step_binary, Option.ite_none_left_eq_some, not_harmless_binary, not_not,
        Option.some.injEq]
      exact and_congr_right fun _ => eq_comm
  | datagram msg =>
    rw [step_datagram, stateAfter_datagram, Option.some.injEq, Harmless, true_and]
    exact eq_comm

end

/-! ## Runs -/

section
variable (skip : Utf8.Policy)

/-- All events of a run are harmless. -/
def AllHarmless (events : List Event) : Prop :=
  ∀ before e after, events = before ++ e :: after → Harmless before e

lemma allHarmless_concat {events : List Event} {e : Event} :
    AllHarmless (events ++ [e]) ↔ AllHarmless events ∧ Harmless events e := by
  constructor
  · intro h
    refine ⟨fun before e' after hsplit => h before e' (after ++ [e]) ?_, h events e [] rfl⟩
    rw [hsplit, List.append_assoc, List.cons_append]
  · rintro ⟨hall, hlast⟩ before e' after hsplit
    rcases List.eq_nil_or_concat after with rfl | ⟨front, last, rfl⟩
    · rcases List.append_inj' hsplit rfl with ⟨rfl, he⟩
      rw [← List.singleton_inj.mp he]
      exact hlast
    · rw [List.concat_eq_append, ← List.cons_append, ← List.append_assoc] at hsplit
      exact hall before e' front (List.append_inj' hsplit rfl).1

/-- A run returns exactly if all its events are harmless. -/
lemma run_eq_some_iff (events : List Event) (r : Relay) :
    run (step skip) start events = some r ↔ AllHarmless events ∧ r = stateAfter events := by
  induction events using List.reverseRecOn generalizing r with
  | nil =>
    have hnone : AllHarmless [] := fun before e after hsplit => absurd hsplit (by simp)
    rw [run_nil, Option.some.injEq, and_iff_right hnone]
    exact eq_comm
  | append_singleton events e ih =>
    rw [run_concat_eq_some, allHarmless_concat]
    constructor
    · rintro ⟨mid, hmid, hstep⟩
      rcases (ih mid).mp hmid with ⟨hall, rfl⟩
      rcases (step_stateAfter skip events e r).mp hstep with ⟨hlast, hr⟩
      exact ⟨⟨hall, hlast⟩, hr⟩
    · rintro ⟨⟨hall, hlast⟩, hr⟩
      exact ⟨_, (ih _).mpr ⟨hall, rfl⟩, (step_stateAfter skip events e r).mpr ⟨hlast, hr⟩⟩

/-- A datagram is handed once to every open connection. -/
lemma count_calls (events : List Event) (msg : List UInt8) (c : ℕ) (d : Data) :
    ((opened events).map fun c => ((c, .buffer msg) : Call)).count (c, d)
      = if c ∈ opened events ∧ d = .buffer msg then 1 else 0 := by
  have hnodup : (opened events).Nodup := (opened_spec events).1.imp fun h => h.ne
  have hinj : Function.Injective fun c : ℕ => ((c, .buffer msg) : Call) :=
    fun c c' h => congrArg Prod.fst h
  rw [(hnodup.map hinj).count]
  apply if_congr _ rfl rfl
  rw [List.mem_map]
  constructor
  · rintro ⟨n, hn, heq⟩
    rw [Prod.mk.injEq] at heq
    exact ⟨heq.1 ▸ hn, heq.2.symm⟩
  · rintro ⟨hc, rfl⟩
    exact ⟨c, hc, rfl⟩

/-- **When the relay serves its viewers.** It keeps serving exactly when every viewer asks for
the protocol and no binary message arrives while somebody is connected. -/
theorem serves_iff (skip : Utf8.Policy) (events : List Event) :
    Serves skip events ↔
      ∀ before e after, events = before ++ e :: after → Harmless before e := by
  constructor
  · intro h
    rcases Option.ne_none_iff_exists'.mp h.returns with ⟨r, hr⟩
    exact ((run_eq_some_iff skip events r).mp hr).1
  · intro hall
    -- what the relay has become is known, and so is what it does next
    have hrun := (run_eq_some_iff skip events _).mpr ⟨hall, rfl⟩
    constructor
    · rw [hrun]
      exact Option.some_ne_none _
    · intro r hr
      rw [((run_eq_some_iff skip events r).mp hr).2]
      exact List.nodup_range
    · intro before msg after r _ hr
      rw [((run_eq_some_iff skip before r).mp hr).2]
      refine ⟨(opened before).map fun c => (c, .buffer msg), ?_, count_calls before msg⟩
      unfold handle
      dsimp only
      rw [broadcast_eq skip (by simp)]
      show some (_, ((opened before).map fun c => (c, c)).map _) = _
      rw [List.map_map]
      rfl

end

/-- A viewer that does not ask for the protocol, and one that sends a binary message. -/
theorem relay_goes_down :
    ¬ Serves Utf8.maximalSubpart [.request []] ∧
    ¬ Serves Utf8.maximalSubpart [.request ["echo-protocol"], .message 0 (.binary [0])] := by
  constructor
  · intro h
    exact h.returns (by decide)
  · intro h
    exact h.returns rfl

end Relay

end Syndilights.Displayclient
