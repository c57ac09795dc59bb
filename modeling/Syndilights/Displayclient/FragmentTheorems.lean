import Syndilights.Displayclient.WebSocketConnectionTheorems

/-!
# Fragments, and what a connection emits

The queue of fragments fills the buffer of its message exactly, so that nothing that happened
to be in memory gets into a message. Whatever bytes arrive, a connection emits messages and
answers pings until it ends, which it does once; only a frame with an rsv bit is handled after
the end.
-/

namespace Syndilights.Displayclient.WebSocket

open WebSocket.Frame

namespace Connection

/-! ## Assembling fragments -/

/-- The payloads of the frames. -/
def payloads (frames : List Frame) : List UInt8 := frames.flatMap Frame.binaryPayload

@[simp] lemma payloads_nil : payloads [] = [] := rfl

@[simp] lemma payloads_cons (frame : Frame) (frames : List Frame) :
    payloads (frame :: frames) = frame.binaryPayload ++ payloads frames := List.flatMap_cons

@[simp] lemma payloads_append (frames frames' : List Frame) :
    payloads (frames ++ frames') = payloads frames ++ payloads frames' := List.flatMap_append

/-- A payload is copied behind those before it. -/
lemma copy_splice {n : ℕ} (big : Buffer n) (front payload back : List UInt8) :
    copy payload (splice (front ++ (payload ++ back)) big 0 0 front.length) front.length 0
        payload.length
      = splice (front ++ (payload ++ back)) big 0 0 (front.length + payload.length) := by
  funext i
  rw [copy, splice, splice]
  by_cases hnew : front.length ≤ i ∧ (i : ℕ) < front.length
      + (min payload.length payload.length - 0)
  · have hbyte : (front ++ (payload ++ back)).getD (0 + (i - 0)) 0
        = payload.getD (0 + (i - front.length)) 0 :=
      BufferList.getD_append_middle front payload back (by omega) (by omega)
    rw [if_pos hnew, if_pos (by omega), hbyte]
  · rw [if_neg hnew]
    have hiff : (0 ≤ (i : ℕ) ∧ (i : ℕ) < 0 + (front.length - 0))
        ↔ (0 ≤ (i : ℕ) ∧ (i : ℕ) < 0 + (front.length + payload.length - 0)) := by omega
    simp only [hiff]

/-- The loop over the queue. -/
lemma foldl_copy {n : ℕ} (big : Buffer n) (front : List UInt8) (frames : List Frame) :
    frames.foldl (fun (binaryPayload, bytesCopied) currentFrame =>
        (copy currentFrame.binaryPayload binaryPayload bytesCopied 0
            currentFrame.binaryPayload.length,
          bytesCopied + currentFrame.binaryPayload.length))
        (splice (front ++ payloads frames) big 0 0 front.length, front.length)
      = (splice (front ++ payloads frames) big 0 0 (front ++ payloads frames).length,
        (front ++ payloads frames).length) := by
  induction frames generalizing front with
  | nil => rw [payloads_nil, List.append_nil]; rfl
  | cons frame frames ih =>
    rw [List.foldl_cons, payloads_cons]
    dsimp only
    rw [copy_splice]
    have hrest := ih (front ++ frame.binaryPayload)
    rw [List.append_assoc, List.length_append] at hrest
    exact hrest

/-- The buffer is filled, and nothing of what was in memory is left. -/
lemma assemble_eq (P : Platform) {frames : List Frame} {size : ℕ}
    (hsize : size = (payloads frames).length) : assemble P size frames = payloads frames := by
  subst hsize
  have hcopy := foldl_copy (newBuffer P.memory (payloads frames).length) [] frames
  rw [List.nil_append, List.length_nil,
    BufferList.splice_of_le _ _ _ _ (le_refl 0)] at hcopy
  rw [assemble, hcopy]
  exact ofFn_splice _ rfl

/-! ## Complete frames -/

lemma readHeader_max (f : Frame) :
    f.readHeader.2.maxReceivedFrameSize = f.maxReceivedFrameSize := by
  simp only [readHeader]
  split_ifs <;> rfl

lemma readHeader_failed {f f' : Frame} (h : f.readHeader = (true, f')) : f'.protocolError = true := by
  simp only [readHeader] at h
  split_ifs at h
  · obtain rfl := congrArg Prod.snd h
    rfl
  · obtain rfl := congrArg Prod.snd h
    rfl
  all_goals exact absurd (congrArg Prod.fst h) Bool.noConfusion

lemma readLength64_max (f : Frame) :
    f.readLength64.2.maxReceivedFrameSize = f.maxReceivedFrameSize := by
  simp only [readLength64]
  split_ifs <;> rfl

lemma readLength64_failed {f f' : Frame} (h : f.readLength64 = (true, f')) :
    f'.protocolError = true := by
  simp only [readLength64] at h
  split_ifs at h
  · obtain rfl := congrArg Prod.snd h
    rfl
  · exact absurd (congrArg Prod.fst h) Bool.noConfusion

lemma readPayload_max (f : Frame) (bytes : List UInt8) :
    (f.readPayload bytes).maxReceivedFrameSize = f.maxReceivedFrameSize := by
  simp only [readPayload]
  split_ifs <;> rfl

lemma readPayload_length (f : Frame) (bytes : List UInt8) :
    (f.readPayload bytes).length = f.length := by
  simp only [readPayload]
  split_ifs <;> rfl

lemma readPayload_payload (f : Frame) (bytes : List UInt8)
    (hopcode : (f.readPayload bytes).opcode ≠ 0x08) :
    (f.readPayload bytes).binaryPayload.length = bytes.length := by
  have hsame : (f.readPayload bytes).opcode = f.opcode := by
    simp only [readPayload]
    split_ifs <;> rfl
  rw [hsame] at hopcode
  simp only [readPayload, if_neg hopcode]
  split_ifs
  · exact length_xor _ _ _
  · rfl

/-- The limit stays what it is. -/
lemma phase_max {f f' : Frame} {x rest : List UInt8} {done : Bool}
    (h : phase f x = some (done, f', rest)) : f'.maxReceivedFrameSize = f.maxReceivedFrameSize := by
  rcases phase_eq_some_iff.mp h with ⟨-, hconsume, -⟩
  obtain rfl : (f.consume (x.take f.need)).2 = f' := by rw [hconsume]
  cases hcase : f.parseState with
  | DECODE_HEADER => simp only [consume, hcase, readHeader_max]
  | WAITING_FOR_16_BIT_LENGTH => simp only [consume, hcase, readLength16]
  | WAITING_FOR_64_BIT_LENGTH => simp only [consume, hcase, readLength64_max]
  | WAITING_FOR_MASK_KEY => simp only [consume, hcase]
  | WAITING_FOR_PAYLOAD =>
    simp only [consume, hcase]
    split_ifs
    · rfl
    · exact readPayload_max f _
  | COMPLETE => simp only [consume, hcase]

/-- A frame without an error is within the limit, and its length is that of its payload. -/
structure Whole (max : ℕ) (f : Frame) : Prop where
  limit : f.length ≤ max
  length : f.opcode ≠ 0x08 → f.binaryPayload.length = f.length

lemma phase_whole {f f' : Frame} {x rest : List UInt8} (h : phase f x = some (true, f', rest))
    (hprotocol : f'.protocolError = false) (hlarge : f'.frameTooLarge = false) :
    Whole f.maxReceivedFrameSize f' := by
  rcases phase_eq_some_iff.mp h with ⟨⟨-, hlen⟩, hconsume, -⟩
  cases hcase : f.parseState with
  | DECODE_HEADER =>
    simp only [consume, hcase] at hconsume
    rw [readHeader_failed hconsume] at hprotocol
    cases hprotocol
  | WAITING_FOR_16_BIT_LENGTH => simp only [consume, hcase, Prod.mk.injEq, Bool.false_eq_true,
      false_and] at hconsume
  | WAITING_FOR_64_BIT_LENGTH =>
    simp only [consume, hcase] at hconsume
    rw [readLength64_failed hconsume] at hprotocol
    cases hprotocol
  | WAITING_FOR_MASK_KEY => simp only [consume, hcase, Prod.mk.injEq, Bool.false_eq_true,
      false_and] at hconsume
  | WAITING_FOR_PAYLOAD =>
    simp only [consume, hcase, Prod.mk.injEq, true_and] at hconsume
    split_ifs at hconsume with hmax
    · rw [← hconsume] at hlarge
      cases hlarge
    · simp only [need, hcase, if_neg hmax] at hlen hconsume
      subst hconsume
      refine ⟨by rw [readPayload_length]; omega, ?_⟩
      intro hopcode
      rw [readPayload_payload f _ hopcode, readPayload_length, List.length_take]
      omega
  | COMPLETE => simp only [consume, hcase, Prod.mk.injEq, Bool.false_eq_true,
      false_and] at hconsume

/-! ## What is kept -/

/-- The longest message that is accepted. -/
def maxMessage (c : Connection) : ℕ := max c.maxReceivedFrameSize c.maxReceivedMessageSize

/-- The queue is the front of a message, and its size is known. While the connection is open
it does not wait for an answer to a close frame, and has not emitted `close`. -/
structure Inv (c : Connection) : Prop where
  limit : c.currentFrame.maxReceivedFrameSize = c.maxReceivedFrameSize
  first : ∀ first ∈ c.frameQueue.head?, first.opcode = 0x01 ∨ first.opcode = 0x02
  size : c.fragmentationSize = (payloads c.frameQueue).length
  bound : c.fragmentationSize ≤ c.maxMessage
  waiting : c.waitingForCloseResponse = false
  emitted : c.connected = true → c.closeEventEmitted = false

/-- What a connection does without ending: it emits a message of acceptable length, and of
valid text, or a frame, or answers a ping. -/
def Quiet (P : Platform) (max : ℕ) : Effect → Prop
  | .message (.binary binaryData) => binaryData.length ≤ max
  | .message (.utf8 utf8Data) =>
    ∃ bytes, P.isValidUTF8 bytes = true ∧ bytes.length ≤ max ∧ utf8Data = P.decode bytes
  | .frame _ => True
  | .sendFrame frame force => frame.opcode = 0x0A ∧ force = false
  | _ => False

/-- What a connection does when it ends, and after it. -/
def Final : Effect → Prop
  | .close _ _ => True
  | .sendFrame frame _ => frame.opcode = 0x08
  | .discardQueue => True
  | .endSocket => True
  | .destroySocket => True
  | _ => False

/-- `close` is emitted. -/
def isClose : Effect → Bool
  | .close _ _ => true
  | _ => false

/-- How often `close` is emitted. -/
def closes (effects : List Effect) : ℕ := effects.countP isClose

lemma closes_append (effects effects' : List Effect) :
    closes (effects ++ effects') = closes effects + closes effects' := List.countP_append

lemma closes_quiet {P : Platform} {max : ℕ} {effects : List Effect}
    (h : ∀ e ∈ effects, Quiet P max e) : closes effects = 0 := by
  rw [closes, List.countP_eq_zero]
  intro e he
  have hquiet := h e he
  cases e with
  | close => exact hquiet.elim
  | _ => exact Bool.false_ne_true

/-- A step of a connection: what it keeps, and what it does. -/
structure Step (P : Platform) (c : Connection) (r : Connection × List Effect) : Prop where
  inv : Inv r.1
  current : r.1.currentFrame = c.currentFrame
  frameSize : r.1.maxReceivedFrameSize = c.maxReceivedFrameSize
  messageSize : r.1.maxReceivedMessageSize = c.maxReceivedMessageSize
  emitted : r.1.closeEventEmitted = (c.closeEventEmitted || decide (0 < closes r.2))
  shape : ∃ quiet final, r.2 = quiet ++ final ∧ (∀ e ∈ quiet, Quiet P c.maxMessage e) ∧
    (∀ e ∈ final, Final e) ∧ closes final ≤ 1 ∧
    r.1.connected = (c.connected && decide (final = []))

section
variable {P : Platform} {c c₁ : Connection}

/-- A step that does nothing, or something quiet. -/
lemma step_quiet (hinv : Inv c₁) (hcurrent : c₁.currentFrame = c.currentFrame)
    (hframe : c₁.maxReceivedFrameSize = c.maxReceivedFrameSize)
    (hmessage : c₁.maxReceivedMessageSize = c.maxReceivedMessageSize)
    (hconnected : c₁.connected = c.connected)
    (hemitted : c₁.closeEventEmitted = c.closeEventEmitted) {effects : List Effect}
    (hquiet : ∀ e ∈ effects, Quiet P c.maxMessage e) : Step P c (c₁, effects) where
  inv := hinv
  current := hcurrent
  frameSize := hframe
  messageSize := hmessage
  emitted := by simp only [hemitted, closes_quiet hquiet, lt_irrefl, decide_false, Bool.or_false]
  shape := by
    refine ⟨effects, [], (List.append_nil _).symm, hquiet, ?_, Nat.zero_le _, ?_⟩
    · intro e he
      cases he
    · simp only [hconnected, decide_true, Bool.and_true]

/-- A step that drops the peer. -/
lemma step_drop (hlimit : c₁.currentFrame = c.currentFrame)
    (hframe : c₁.maxReceivedFrameSize = c.maxReceivedFrameSize)
    (hmessage : c₁.maxReceivedMessageSize = c.maxReceivedMessageSize)
    (hwaiting : c₁.waitingForCloseResponse = false) (hinv : Inv c) (reasonCode : ℤ)
    (description : Option String) : Step P c (c₁.drop reasonCode description false) where
  inv := {
    limit := by
      show c₁.currentFrame.maxReceivedFrameSize = c₁.maxReceivedFrameSize
      rw [hlimit, hframe, hinv.limit]
    first := by intro first hfirst; cases hfirst
    size := rfl
    bound := Nat.zero_le _
    waiting := hwaiting
    emitted := by intro h; cases h }
  current := hlimit
  frameSize := hframe
  messageSize := hmessage
  emitted := (Bool.or_true _).symm
  shape := by
    refine ⟨[], _, rfl, ?_, ?_, le_refl 1, (Bool.and_false _).symm⟩
    · intro e he
      cases he
    · intro e he
      simp only [List.mem_cons, List.mem_append, List.not_mem_nil, or_false,
        Bool.false_eq_true, if_false] at he
      rcases he with rfl | rfl | rfl | rfl
      · trivial
      · rfl
      · trivial
      · trivial

variable {frame : Frame} (hinv : Inv c) (hwhole : Whole c.maxReceivedFrameSize frame)
include hinv

/-- A step that changes the queue. -/
lemma step_queue {frames : List Frame} {size : ℕ}
    (hfirst : ∀ first ∈ frames.head?, first.opcode = 0x01 ∨ first.opcode = 0x02)
    (hsize : size = (payloads frames).length) (hbound : size ≤ c.maxMessage) {effects : List Effect}
    (hquiet : ∀ e ∈ effects, Quiet P c.maxMessage e) :
    Step P c ({ c with frameQueue := frames, fragmentationSize := size }, effects) := by
  have hnew : Inv { c with frameQueue := frames, fragmentationSize := size } :=
    ⟨hinv.limit, hfirst, hsize, hbound, hinv.waiting, hinv.emitted⟩
  exact step_quiet (c := c) hnew rfl rfl rfl rfl rfl hquiet

/-- The queue is emptied. -/
lemma step_empty {effects : List Effect} (hquiet : ∀ e ∈ effects, Quiet P c.maxMessage e) :
    Step P c ({ c with frameQueue := [], fragmentationSize := 0 }, effects) := by
  have hfirst : ∀ first ∈ ([] : List Frame).head?, first.opcode = 0x01 ∨ first.opcode = 0x02 := by
    intro first hfirst
    cases hfirst
  have hsize : 0 = (payloads []).length := rfl
  exact step_queue hinv hfirst hsize (Nat.zero_le _) hquiet

/-- A message in one frame. -/
lemma step_emitMessage {payload : List UInt8} (hlen : payload.length ≤ c.maxMessage) (opcode : ℕ) :
    Step P c (c.emitMessage P opcode payload) := by
  rw [emitMessage]
  split_ifs with hbinary hvalid
  · apply step_quiet hinv rfl rfl rfl rfl rfl
    intro e he
    rw [List.mem_singleton] at he
    exact he ▸ hlen
  · apply step_quiet hinv rfl rfl rfl rfl rfl
    intro e he
    rw [List.mem_singleton] at he
    exact he ▸ ⟨payload, hvalid, hlen, rfl⟩
  · exact step_drop rfl rfl rfl hinv.waiting hinv _ _

include hwhole

/-- A frame that starts a message. -/
lemma step_processData (hopcode : frame.opcode = 0x01 ∨ frame.opcode = 0x02)
    (hempty : c.frameQueue = []) : Step P c (c.processData P frame) := by
  have hlength := hwhole.length (by omega)
  have hlimit := hwhole.limit
  have hmax : frame.length ≤ c.maxMessage := le_trans hlimit (le_max_left _ _)
  rw [processData]
  split_ifs with hassemble hfin
  · exact step_emitMessage hinv (by omega) _
  · refine step_queue hinv ?_ ?_ hmax ?_
    · intro first hfirst
      rw [hempty] at hfirst
      obtain rfl : frame = first := by simpa using hfirst
      exact hopcode
    · rw [hempty, ← hlength, List.nil_append, payloads_cons, payloads_nil, List.append_nil]
    · intro e he
      cases he
  · apply step_quiet hinv rfl rfl rfl rfl rfl
    intro e he
    cases he

/-- A frame that continues a message. -/
lemma step_processContinuation (hopcode : frame.opcode = 0x00) :
    Step P c (c.processContinuation P frame) := by
  have hlength := hwhole.length (by omega)
  rw [processContinuation]
  by_cases hassemble : c.assembleFragments = true
  · rw [if_pos hassemble]
    split
    · exact step_drop rfl rfl rfl hinv.waiting hinv _ _
    · rename_i first rest hqueue
      dsimp only
      have hfirst := hinv.first first (by rw [hqueue]; rfl)
      have hsize : c.fragmentationSize + frame.length
          = (payloads (c.frameQueue ++ [frame])).length := by
        rw [payloads_append, List.length_append, hinv.size, payloads_cons, payloads_nil,
          List.append_nil, hlength]
      by_cases hlong : c.fragmentationSize + frame.length > c.maxReceivedMessageSize
      · rw [if_pos hlong]
        exact step_drop rfl rfl rfl hinv.waiting hinv _ _
      · have hmax : c.fragmentationSize + frame.length ≤ c.maxMessage :=
          le_trans (Nat.le_of_not_lt hlong) (le_max_right _ _)
        rw [if_neg hlong, assemble_eq P hsize]
        split_ifs with hfin hbinary htext hvalid
        · refine step_empty hinv ?_
          intro e he
          rw [List.mem_singleton] at he
          subst he
          show (payloads _).length ≤ _
          omega
        · refine step_empty hinv ?_
          intro e he
          rw [List.mem_singleton] at he
          subst he
          exact ⟨_, hvalid, by omega, rfl⟩
        · exact step_drop rfl rfl rfl hinv.waiting hinv _ _
        · -- the first frame of a queue is a text or a binary frame
          omega
        · refine step_queue hinv ?_ hsize hmax ?_
          · intro first' hfirst'
            apply hinv.first
            show first' ∈ c.frameQueue.head?
            rw [hqueue] at hfirst' ⊢
            exact hfirst'
          · intro e he
            cases he
  · rw [if_neg hassemble]
    refine step_quiet hinv rfl rfl rfl rfl rfl ?_
    intro e he
    cases he

omit hwhole in
/-- A close frame. -/
lemma step_processClose : Step P c (c.processClose P frame) := by
  rw [processClose, if_neg (by rw [hinv.waiting]; decide)]
  dsimp only
  by_cases hinvalid : frame.binaryPayload.length > 1 ∧ ¬ P.isValidUTF8 frame.binaryPayload = true
  · rw [if_pos hinvalid]
    exact step_drop rfl rfl rfl hinv.waiting hinv _ _
  · rw [if_neg hinvalid]
    exact {
      inv := ⟨hinv.limit, hinv.first, hinv.size, hinv.bound, hinv.waiting, fun h => by cases h⟩
      current := rfl
      frameSize := rfl
      messageSize := rfl
      emitted := (Bool.or_false _).symm
      shape := by
        refine ⟨[], _, rfl, ?_, ?_, Nat.zero_le 1, (Bool.and_false _).symm⟩
        · intro e he
          cases he
        · intro e he
          simp only [List.mem_cons, List.not_mem_nil, or_false] at he
          rcases he with rfl | rfl
          · rfl
          · trivial }

/-- **One frame.** -/
lemma step_processFrame : Step P c (c.processFrame P frame) := by
  rw [processFrame]
  by_cases hqueue : c.frameQueue ≠ [] ∧ 0x00 < frame.opcode ∧ frame.opcode < 0x08
  · rw [if_pos hqueue]
    exact step_drop rfl rfl rfl hinv.waiting hinv _ _
  rw [if_neg hqueue]
  split_ifs with hdata hcontinuation hping hpong hclose
  · apply step_processData hinv hwhole hdata.symm
    by_contra hne
    exact hqueue ⟨hne, by omega, by omega⟩
  · exact step_processContinuation hinv hwhole hcontinuation
  · refine step_quiet hinv rfl rfl rfl rfl rfl ?_
    intro e he
    rw [List.mem_singleton] at he
    exact he ▸ ⟨rfl, rfl⟩
  · refine step_quiet hinv rfl rfl rfl rfl rfl ?_
    intro e he
    cases he
  · exact step_processClose hinv
  · exact step_drop rfl rfl rfl hinv.waiting hinv _ _

end

end Connection

end Syndilights.Displayclient.WebSocket
