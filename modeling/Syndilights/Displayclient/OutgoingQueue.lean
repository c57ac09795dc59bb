import Mathlib.Tactic

/-!
# The queue in front of the socket

`sendFrame`, `processOutgoingFrameQueue` and `handleSocketDrain` of `WebSocketConnection.js`.
No buffer overtakes another, and none is left behind: as long as everything that leaves the
queue is written, a buffer in it waits for a tick or for the socket to drain.
-/

namespace Syndilights.Displayclient.WebSocket

/-! ## The handlers -/

/-- What `socket.write` does: it returns `true` or `false`, or throws. -/
inductive Write
  | flushed
  | full
  | threw
deriving DecidableEq

/-- What has become of a buffer: it was written, or the write threw, or the callback was told
that the connection is closed, or it was discarded with the queue. -/
inductive Fate
  | written
  | threw
  | refused
  | discarded
deriving DecidableEq

/-- The part of a connection that sends. A queued buffer comes with whether it has a callback. -/
structure Outgoing where
  connected : Bool
  outgoingFrameQueue : List (List UInt8 × Bool)
  outputPaused : Bool
  bytesWaitingToFlush : ℤ
  /-- The calls of the handler that are due in the next tick. -/
  ticks : ℕ
  /-- The buffers that have left the queue, in order. -/
  left : List (List UInt8 × Fate)
deriving DecidableEq

namespace Outgoing

/-- A new connection. -/
def start : Outgoing := ⟨true, [], false, 0, 0, []⟩

/-- The buffer has been taken from the queue. -/
def processBuffer (s : Outgoing) (write : Write) (buffer : List UInt8) (cb : Bool) : Outgoing :=
  if ¬ s.connected ∧ cb then { s with left := s.left ++ [(buffer, .refused)] }
  else
    match write with
    | .threw => { s with left := s.left ++ [(buffer, .threw)] }
    | .full => { s with
        left := s.left ++ [(buffer, .written)]
        bytesWaitingToFlush := s.bytesWaitingToFlush - buffer.length
        outputPaused := true }
    | .flushed => { s with
        left := s.left ++ [(buffer, .written)]
        bytesWaitingToFlush := s.bytesWaitingToFlush - buffer.length
        ticks := s.ticks + 1 }

/-- `processOutgoingFrameQueue`. -/
def processOutgoingFrameQueue (s : Outgoing) (write : Write) : Outgoing :=
  if s.outputPaused then s
  else
    match s.outgoingFrameQueue.getLast? with
    | none => s
    | some (buffer, cb) =>
      processBuffer { s with outgoingFrameQueue := s.outgoingFrameQueue.dropLast } write buffer cb

/-- `sendFrame`, for the buffer of the frame. -/
def sendFrame (s : Outgoing) (buffer : List UInt8) (cb force : Bool) (write : Write) : Outgoing :=
  let s := { s with
    outgoingFrameQueue := (buffer, cb) :: s.outgoingFrameQueue
    bytesWaitingToFlush := s.bytesWaitingToFlush + buffer.length }
  if ¬ s.outputPaused ∨ force then s.processOutgoingFrameQueue write else s

/-- `handleSocketDrain`. -/
def handleSocketDrain (s : Outgoing) (write : Write) : Outgoing :=
  processOutgoingFrameQueue { s with outputPaused := false } write

/-- What happens: a frame is sent, a tick is due, the socket drains, the connection is no
longer connected, or `outgoingFrameQueue = []`. -/
inductive Event
  | send (buffer : List UInt8) (cb force : Bool) (write : Write)
  | tick (write : Write)
  | drain (write : Write)
  | disconnect
  | discard
deriving DecidableEq

/-- One event; there is no tick that is not due. -/
def step (s : Outgoing) : Event → Outgoing
  | .send buffer cb force write => s.sendFrame buffer cb force write
  | .tick write =>
    if s.ticks = 0 then s
    else processOutgoingFrameQueue { s with ticks := s.ticks - 1 } write
  | .drain write => s.handleSocketDrain write
  | .disconnect => { s with connected := false }
  | .discard => { s with
      outgoingFrameQueue := []
      left := s.left ++ s.outgoingFrameQueue.reverse.map fun current => (current.1, .discarded) }

/-- The buffers that were sent. -/
def sent (events : List Event) : List (List UInt8) :=
  events.filterMap fun
    | .send buffer _ _ _ => some buffer
    | _ => none

/-! ## What is kept -/

/-- The bytes of buffers. -/
def bytes (buffers : List (List UInt8)) : ℤ := (buffers.map fun buffer => (buffer.length : ℤ)).sum

/-- The buffers that have left the queue without being written. -/
def lost (left : List (List UInt8 × Fate)) : List (List UInt8) :=
  (left.filter fun x => x.2 ≠ .written).map Prod.fst

/-- Nothing is overtaken; `bytesWaitingToFlush` counts what is queued, and what was lost; and a
buffer that waits waits for something, unless the last one was lost. -/
structure Inv (sent : List (List UInt8)) (s : Outgoing) : Prop where
  order : s.left.map Prod.fst ++ (s.outgoingFrameQueue.map Prod.fst).reverse = sent
  bytes : s.bytesWaitingToFlush = bytes (s.outgoingFrameQueue.map Prod.fst) + bytes (lost s.left)
  waits : s.outgoingFrameQueue ≠ [] → s.outputPaused = true ∨ 0 < s.ticks ∨
    ∃ x, s.left.getLast? = some x ∧ x.2 ≠ .written

lemma inv_start : Inv [] start where
  order := rfl
  bytes := rfl
  waits h := absurd rfl h

lemma bytes_append (buffers buffers' : List (List UInt8)) :
    bytes (buffers ++ buffers') = bytes buffers + bytes buffers' := by
  rw [bytes, List.map_append, List.sum_append]
  rfl

lemma bytes_singleton (buffer : List UInt8) : bytes [buffer] = buffer.length := by
  rw [bytes, List.map_singleton, List.sum_singleton]

lemma lost_append (left left' : List (List UInt8 × Fate)) :
    lost (left ++ left') = lost left ++ lost left' := by
  rw [lost, List.filter_append, List.map_append]
  rfl

variable {s : Outgoing} {sent : List (List UInt8)}

/-- A buffer leaves the queue. -/
lemma inv_leave {queue : List (List UInt8 × Bool)} {buffer : List UInt8} {cb : Bool}
    {s' : Outgoing} {fate : Fate}
    (horder : s.left.map Prod.fst ++ ((queue ++ [(buffer, cb)]).map Prod.fst).reverse = sent)
    (hbytes : s.bytesWaitingToFlush
      = bytes ((queue ++ [(buffer, cb)]).map Prod.fst) + bytes (lost s.left))
    (hqueue : s'.outgoingFrameQueue = queue) (hleft : s'.left = s.left ++ [(buffer, fate)])
    (hcount : s'.bytesWaitingToFlush
      = s.bytesWaitingToFlush - if fate = .written then (buffer.length : ℤ) else 0)
    (hwaits : s'.outputPaused = true ∨ 0 < s'.ticks ∨ fate ≠ .written) : Inv sent s' where
  order := by
    rw [hleft, hqueue, ← horder, List.map_append, List.map_append, List.reverse_append,
      List.append_assoc]
    rfl
  bytes := by
    have hlost : bytes (lost [(buffer, fate)])
        = if fate = .written then 0 else (buffer.length : ℤ) := by
      split_ifs with hfate
      · rw [hfate]
        rfl
      · rw [lost, List.filter_cons_of_pos (by simpa using hfate)]
        exact bytes_singleton buffer
    rw [hleft, hqueue, hcount, hbytes, lost_append, bytes_append, hlost, List.map_append,
      bytes_append, List.map_singleton, bytes_singleton]
    dsimp only
    split_ifs <;> omega
  waits _ := by
    refine hwaits.imp_right fun h => h.imp_right fun hfate => ⟨(buffer, fate), ?_, hfate⟩
    rw [hleft, List.getLast?_concat]

/-- The oldest buffer is processed. -/
lemma inv_processBuffer {buffer : List UInt8} {cb : Bool}
    (horder : s.left.map Prod.fst
      ++ ((s.outgoingFrameQueue ++ [(buffer, cb)]).map Prod.fst).reverse = sent)
    (hbytes : s.bytesWaitingToFlush
      = bytes ((s.outgoingFrameQueue ++ [(buffer, cb)]).map Prod.fst) + bytes (lost s.left))
    (write : Write) : Inv sent (s.processBuffer write buffer cb) := by
  rw [processBuffer.eq_def]
  by_cases hrefused : ¬ s.connected = true ∧ cb = true
  · rw [if_pos hrefused]
    exact inv_leave horder hbytes rfl rfl (sub_zero _).symm (.inr (.inr Fate.noConfusion))
  · rw [if_neg hrefused]
    cases write with
    | flushed => exact inv_leave horder hbytes rfl rfl rfl (.inr (.inl (Nat.succ_pos _)))
    | full => exact inv_leave horder hbytes rfl rfl rfl (.inl rfl)
    | threw => exact inv_leave horder hbytes rfl rfl (sub_zero _).symm (.inr (.inr Fate.noConfusion))

/-- The handler: only that a buffer waits for something need not hold before. -/
lemma inv_process
    (horder : s.left.map Prod.fst ++ (s.outgoingFrameQueue.map Prod.fst).reverse = sent)
    (hbytes : s.bytesWaitingToFlush
      = bytes (s.outgoingFrameQueue.map Prod.fst) + bytes (lost s.left))
    (write : Write) : Inv sent (s.processOutgoingFrameQueue write) := by
  rw [processOutgoingFrameQueue]
  split_ifs with hpaused
  · exact ⟨horder, hbytes, fun _ => .inl hpaused⟩
  · split
    · rename_i hnone
      rw [List.getLast?_eq_none_iff] at hnone
      exact ⟨horder, hbytes, fun hne => absurd hnone hne⟩
    · rename_i buffer cb hsome
      have hqueue := List.dropLast_append_getLast? _ hsome
      rw [← hqueue] at horder hbytes
      exact inv_processBuffer (s := { s with outgoingFrameQueue := s.outgoingFrameQueue.dropLast })
        horder hbytes write

/-- Nothing but the order and the count matters to the handler. -/
lemma inv_sendFrame (h : Inv sent s) (buffer : List UInt8) (cb force : Bool) (write : Write) :
    Inv (sent ++ [buffer]) (s.sendFrame buffer cb force write) := by
  have horder : s.left.map Prod.fst
      ++ (((buffer, cb) :: s.outgoingFrameQueue).map Prod.fst).reverse = sent ++ [buffer] := by
    rw [← h.order, List.map_cons, List.reverse_cons, List.append_assoc]
  have hbytes : s.bytesWaitingToFlush + buffer.length
      = bytes (((buffer, cb) :: s.outgoingFrameQueue).map Prod.fst) + bytes (lost s.left) := by
    rw [h.bytes, List.map_cons, ← List.singleton_append, bytes_append, bytes_singleton]
    dsimp only
    omega
  rw [sendFrame]
  dsimp only
  split_ifs with hprocess
  · exact inv_process horder hbytes write
  · have hpaused : s.outputPaused = true := by
      by_contra hnot
      exact hprocess (.inl hnot)
    exact ⟨horder, hbytes, fun _ => .inl hpaused⟩

/-- The whole queue is discarded. -/
lemma lost_discarded (queue : List (List UInt8 × Bool)) :
    lost (queue.map fun current => (current.1, .discarded)) = queue.map Prod.fst := by
  induction queue with
  | nil => rfl
  | cons current queue ih =>
    rw [List.map_cons, lost, List.filter_cons_of_pos (by simp), List.map_cons, List.map_cons]
    exact congrArg _ ih

lemma bytes_reverse (buffers : List (List UInt8)) : bytes buffers.reverse = bytes buffers := by
  rw [bytes, List.map_reverse, List.sum_reverse]
  rfl

lemma sent_append (events events' : List Event) :
    Outgoing.sent (events ++ events') = Outgoing.sent events ++ Outgoing.sent events' :=
  List.filterMap_append

/-- **One event.** -/
lemma inv_step {events : List Event} (h : Inv (Outgoing.sent events) s) (event : Event) :
    Inv (Outgoing.sent (events ++ [event])) (s.step event) := by
  rw [sent_append]
  cases event with
  | send buffer cb force write => exact inv_sendFrame h buffer cb force write
  | tick write =>
    show Inv (Outgoing.sent events ++ []) _
    rw [List.append_nil, step]
    split_ifs
    · exact h
    · exact inv_process (s := { s with ticks := s.ticks - 1 }) h.order h.bytes write
  | drain write =>
    show Inv (Outgoing.sent events ++ []) _
    rw [List.append_nil]
    exact inv_process (s := { s with outputPaused := false }) h.order h.bytes write
  | disconnect =>
    show Inv (Outgoing.sent events ++ []) _
    rw [List.append_nil]
    exact ⟨h.order, h.bytes, h.waits⟩
  | discard =>
    show Inv (Outgoing.sent events ++ []) _
    rw [List.append_nil]
    let discarded := s.outgoingFrameQueue.reverse.map fun current => (current.1, Fate.discarded)
    have hdiscarded : discarded.map Prod.fst = (s.outgoingFrameQueue.map Prod.fst).reverse := by
      rw [List.map_map, ← List.map_reverse]
      rfl
    refine ⟨?_, ?_, fun hne => absurd rfl hne⟩
    · show (s.left ++ discarded).map Prod.fst ++ [] = _
      rw [List.append_nil, List.map_append, hdiscarded, h.order]
    · show s.bytesWaitingToFlush = 0 + bytes (lost (s.left ++ discarded))
      rw [lost_append, bytes_append, lost_discarded, List.map_reverse, bytes_reverse, h.bytes]
      omega

/-- **The queue keeps the order and forgets nothing.** After any events in any order, what has
left the queue and what is still in it are the buffers that were sent, in the order in which
they were sent; `bytesWaitingToFlush` counts the bytes of those that are queued or were lost;
and a queued buffer waits for a tick or for the socket to drain, unless the last one was lost. -/
theorem outgoing_run (events : List Event) :
    Inv (Outgoing.sent events) (events.foldl step start) := by
  induction events using List.reverseRecOn with
  | nil => exact inv_start
  | append_singleton events event ih =>
    rw [List.foldl_concat]
    exact inv_step ih event

/-- When nothing was lost and nothing is awaited, everything is written. -/
theorem written_at_rest {events : List Event} {s : Outgoing} (hrun : events.foldl step start = s)
    (hleft : ∀ x ∈ s.left, x.2 = .written) (hpaused : s.outputPaused = false)
    (hticks : s.ticks = 0) :
    s.outgoingFrameQueue = [] ∧ s.left.map Prod.fst = Outgoing.sent events ∧
      s.bytesWaitingToFlush = 0 := by
  have hinv := outgoing_run events
  rw [hrun] at hinv
  have hempty : s.outgoingFrameQueue = [] := by
    by_contra hne
    rcases hinv.waits hne with hwait | hwait | ⟨x, hlast, hlost⟩
    · rw [hpaused] at hwait
      cases hwait
    · omega
    · exact hlost (hleft x (List.mem_of_getLast? hlast))
  have hlost : lost s.left = [] := by
    rw [lost, List.filter_eq_nil_iff.mpr fun x hx => by simp [hleft x hx]]
    rfl
  have horder := hinv.order
  have hbytes := hinv.bytes
  rw [hempty, List.map_nil, List.reverse_nil, List.append_nil] at horder
  rw [hempty, hlost] at hbytes
  exact ⟨hempty, horder, hbytes⟩

end Outgoing

end Syndilights.Displayclient.WebSocket
