import Syndilights.Displayclient.WsUdp
import Syndilights.Displayclient.VisionneuseTheorems

/-!
# When the relay preserves a frame

The viewer gets the string that Node decodes from the datagram: fragmentation and the
second trip through UTF-8 change nothing, but the first decoding does.
-/

namespace Syndilights.Displayclient

/-! ## Fragmentation -/

/-- Consecutive pieces of a list, joined. -/
lemma flatMap_pieces {α : Type} (l : List α) (t n : ℕ) :
    (List.range n).flatMap (fun i => (l.drop (t * i)).take t) = l.take (t * n) := by
  induction n with
  | zero => rw [Nat.mul_zero, List.take_zero]; rfl
  | succ n ih =>
    rw [List.range_succ, List.flatMap_append, ih, List.flatMap_singleton, Nat.mul_succ,
      List.take_add]

section
variable (frame : WebSocketFrame) (n : ℕ)

/-- The pieces before the last one have the length of the threshold. -/
lemma binaryPayload_fragment {i : ℕ} (h : i < n) :
    (fragment frame (n + 1) (i + 1)).binaryPayload
      = (frame.binaryPayload.drop (fragmentationThreshold * i)).take fragmentationThreshold := by
  have hne : i + 1 ≠ n + 1 := by omega
  simp only [fragment, if_neg hne, Nat.add_sub_cancel]

/-- The last piece is the rest. -/
lemma binaryPayload_fragment_last :
    (fragment frame (n + 1) (n + 1)).binaryPayload
      = frame.binaryPayload.drop (fragmentationThreshold * n) := by
  rw [fragment, if_pos rfl, Nat.add_sub_cancel]
  apply List.take_of_length_le
  rw [List.length_drop]

/-- The pieces, joined, are the payload. -/
lemma flatMap_fragments :
    ((List.range (n + 1)).map fun i => fragment frame (n + 1) (i + 1)).flatMap
      WebSocketFrame.binaryPayload = frame.binaryPayload := by
  have hpieces : (List.range n).flatMap (fun i => (fragment frame (n + 1) (i + 1)).binaryPayload)
      = (List.range n).flatMap fun i =>
          (frame.binaryPayload.drop (fragmentationThreshold * i)).take fragmentationThreshold :=
    List.flatMap_congr fun i hi => binaryPayload_fragment frame n (List.mem_range.mp hi)
  rw [List.flatMap_map, List.range_succ, List.flatMap_append, hpieces, flatMap_pieces,
    List.flatMap_singleton, binaryPayload_fragment_last, List.take_append_drop]

/-- The first piece has the opcode, the others continue it. -/
lemma map_opcode_fragments :
    ((List.range (n + 1)).map fun i => fragment frame (n + 1) (i + 1)).map WebSocketFrame.opcode
      = frame.opcode :: List.replicate n 0x00 := by
  rw [List.range_succ_eq_map, List.map_cons, List.map_cons, List.map_map, List.map_map]
  congr 1
  rw [List.eq_replicate_iff]
  constructor
  · rw [List.length_map, List.length_range]
  · intro opcode hmem
    rcases List.mem_map.mp hmem with ⟨i, -, rfl⟩
    show (if i + 1 + 1 = 1 then frame.opcode else 0x00) = 0x00
    rw [if_neg (by omega)]

/-- The last piece is marked. -/
lemma map_fin_fragments :
    ((List.range (n + 1)).map fun i => fragment frame (n + 1) (i + 1)).map WebSocketFrame.fin
      = List.replicate n false ++ [true] := by
  rw [List.range_succ, List.map_append, List.map_append]
  congr 1
  · rw [List.eq_replicate_iff]
    constructor
    · rw [List.length_map, List.length_map, List.length_range]
    · intro fin hmem
      rw [List.map_map] at hmem
      rcases List.mem_map.mp hmem with ⟨i, hi, rfl⟩
      have hlt := List.mem_range.mp hi
      exact decide_eq_false (by omega)
  · exact congrArg (· :: []) (decide_eq_true rfl)

end

/-- The browser gets the payload of a text frame, however it was fragmented. -/
theorem message_fragmentAndSend {frame : WebSocketFrame} (h : frame.opcode = TEXT_FRAME) :
    ∃ frames, fragmentAndSend frame = some frames ∧ message frames = some frame.binaryPayload := by
  unfold fragmentAndSend
  rw [if_neg (by rw [h]; decide)]
  by_cases hlen : frame.binaryPayload.length > fragmentationThreshold
  · -- a positive number of pieces
    have hpos : 0 < (frame.binaryPayload.length + (fragmentationThreshold - 1))
        / fragmentationThreshold := by
      apply Nat.div_pos _ (by decide)
      omega
    rcases Nat.exists_eq_succ_of_ne_zero hpos.ne' with ⟨n, hn⟩
    refine ⟨_, if_pos hlen, ?_⟩
    show message ((List.range _).map fun i => fragment frame _ (i + 1)) = _
    rw [hn, message, if_pos, flatMap_fragments]
    rw [map_opcode_fragments, map_fin_fragments, h, List.length_map, List.length_range]
    exact ⟨rfl, rfl⟩
  · refine ⟨_, if_neg hlen, ?_⟩
    rw [message, if_pos]
    · exact congrArg some (List.append_nil _)
    · exact ⟨congrArg (· :: []) h, rfl⟩

/-! ## The string of a viewer -/

/-- Sending a string and receiving it again. -/
lemma eventData_sendUTF (skip skip' : Utf8.Policy) (msg : List UInt8) :
    ∃ frames, sendUTF skip (.buffer msg) = some frames ∧
      eventData skip' frames = some (Utf8.decode skip msg) := by
  let frame : WebSocketFrame := ⟨TEXT_FRAME, false, Utf8.encode (Utf8.decode skip msg)⟩
  obtain ⟨frames, hsend, hmessage⟩ := message_fragmentAndSend (show frame.opcode = TEXT_FRAME from rfl)
  refine ⟨frames, hsend, ?_⟩
  rw [eventData, hmessage, Option.map_some, Utf8.decode_encode]

/-- Every client is sent the same frames. -/
lemma onDatagram_eq {skip : Utf8.Policy} {msg : List UInt8} {frames : List WebSocketFrame}
    (h : sendUTF skip (.buffer msg) = some frames) (clients : List ℕ) :
    onDatagram skip clients msg = some (clients.map fun i => (i, frames)) := by
  unfold onDatagram
  induction clients with
  | nil => rfl
  | cons i clients ih =>
    rw [List.mapM_cons, ih, h]
    rfl

/-- The string has one character for each byte, with its code; so the colours that are
drawn are the bytes at their offsets. -/
structure Preserved (msg : List UInt8) (data : List Char) : Prop where
  chars : Utf8.units data = msg.map UInt8.toUInt16
  drawn : 800 ≤ msg.length → Visionneuse.onMessage (Utf8.units data)
    = (Visionneuse.allCalls fun k => (msg.getD k 0).toUInt16, true)

/-- Every connected viewer receives the frame. -/
def PreservesFrame (skip skip' : Utf8.Policy) (clients : List ℕ) (msg : List UInt8) : Prop :=
  ∃ sent, onDatagram skip clients msg = some sent ∧
    ∀ i ∈ clients, ∃ frames data, (i, frames) ∈ sent ∧ eventData skip' frames = some data ∧
      Preserved msg data

/-- The colours follow from the characters. -/
lemma preserved_of_chars {msg : List UInt8} {data : List Char}
    (h : Utf8.units data = msg.map UInt8.toUInt16) : Preserved msg data where
  chars := h
  drawn hlen := by
    rw [h, Visionneuse.onMessage_eq (by rw [List.length_map]; exact hlen)]
    have hcolour (k : ℕ) : (msg.map UInt8.toUInt16).getD k 0 = (msg.getD k 0).toUInt16 := by
      rw [List.getD_eq_getElem?_getD, List.getD_eq_getElem?_getD, List.getElem?_map]
      cases msg[k]? <;> rfl
    simp only [hcolour]

/-- What a viewer gets unchanged is ASCII. -/
lemma ascii_of_preservesFrame {skip skip' : Utf8.Policy} {clients : List ℕ} {msg : List UInt8}
    {i : ℕ} (hi : i ∈ clients) (h : PreservesFrame skip skip' clients msg) :
    ∀ b ∈ msg, b < 128 := by
  rcases eventData_sendUTF skip skip' msg with ⟨frames, hsend, hdata⟩
  rcases h with ⟨sent, hsent, hall⟩
  rcases hall i hi with ⟨frames', data, hmem, hdata', hpres⟩
  obtain rfl : clients.map (fun i => (i, frames)) = sent :=
    Option.some.inj ((onDatagram_eq hsend clients).symm.trans hsent)
  -- all clients get one list of frames
  rcases List.mem_map.mp hmem with ⟨j, -, hj⟩
  obtain rfl : frames = frames' := congrArg Prod.snd hj
  obtain rfl : Utf8.decode skip msg = data := Option.some.inj (hdata.symm.trans hdata')
  exact (Utf8.units_decode_eq_iff skip msg).mp hpres.chars

/-- **Exactly when the relay preserves a datagram.** Nobody is connected, or every byte is
ASCII; how the decoders replace invalid bytes does not matter. -/
theorem preservesFrame_iff (skip skip' : Utf8.Policy) (clients : List ℕ) (msg : List UInt8) :
    PreservesFrame skip skip' clients msg ↔ clients = [] ∨ ∀ b ∈ msg, b < 128 := by
  constructor
  · intro h
    cases clients with
    | nil => exact Or.inl rfl
    | cons i clients => exact Or.inr (ascii_of_preservesFrame List.mem_cons_self h)
  · intro hcond
    rcases eventData_sendUTF skip skip' msg with ⟨frames, hsend, hdata⟩
    refine ⟨_, onDatagram_eq hsend clients, fun i hi => ?_⟩
    refine ⟨frames, _, List.mem_map_of_mem hi, hdata, ?_⟩
    rcases hcond with rfl | hascii
    · exact absurd hi List.not_mem_nil
    · exact preserved_of_chars ((Utf8.units_decode_eq_iff skip msg).mpr hascii)

/-- A datagram whose first window is fully red, and one viewer. -/
theorem full_red_is_lost :
    ¬ PreservesFrame Utf8.maximalSubpart Utf8.maximalSubpart [0]
      (List.replicate 12 0 ++ 255 :: List.replicate 787 0) := by
  intro h
  have hascii := ascii_of_preservesFrame List.mem_cons_self h 255
    (List.mem_append_right _ List.mem_cons_self)
  exact absurd hascii (by decide)

end Syndilights.Displayclient
