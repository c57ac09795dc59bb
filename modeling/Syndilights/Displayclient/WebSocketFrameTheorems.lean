import Syndilights.Displayclient.BufferListTheorems
import Syndilights.Displayclient.WebSocketFrame

/-!
# Reading a frame as it arrives

`addData` makes as many steps as the bytes at hand allow, one for each parse state. What
`toBuffer` has written it reads back, in whatever pieces it arrives.
-/

namespace Syndilights.Displayclient.WebSocket

/-- Only the bytes before the end of the range are read. -/
lemma splice_take {n : ℕ} (x : List UInt8) (target : Buffer n) (targetStart s e : ℕ) :
    splice (x.take e) target targetStart s e = splice x target targetStart s e := by
  funext i
  rw [splice, splice]
  split_ifs with hrange
  · rw [List.getD_eq_getElem?_getD, List.getElem?_take_of_lt (by omega),
      List.getD_eq_getElem?_getD]
  · rfl

namespace Frame

open BufferList

/-! ## One step for each state -/

/-- The bytes that a step takes. -/
def need (f : Frame) : ℕ :=
  match f.parseState with
  | .DECODE_HEADER => 2
  | .WAITING_FOR_16_BIT_LENGTH => 2
  | .WAITING_FOR_64_BIT_LENGTH => 8
  | .WAITING_FOR_MASK_KEY => if f.mask then 4 else 0
  | .WAITING_FOR_PAYLOAD => if f.length > f.maxReceivedFrameSize then 0 else f.length
  | .COMPLETE => 0

/-- The step with these bytes: whether the frame is complete or in error, and the frame. -/
def consume (f : Frame) (bytes : List UInt8) : Bool × Frame :=
  match f.parseState with
  | .DECODE_HEADER => { f with frameHeader := splice bytes f.frameHeader 0 0 2 }.readHeader
  | .WAITING_FOR_16_BIT_LENGTH =>
    (false, { f with frameHeader := splice bytes f.frameHeader 2 0 2 }.readLength16)
  | .WAITING_FOR_64_BIT_LENGTH =>
    { f with frameHeader := splice bytes f.frameHeader 2 0 8 }.readLength64
  | .WAITING_FOR_MASK_KEY =>
    (false, { f with
      maskBytes := if f.mask then splice bytes f.maskBytes 0 0 4 else f.maskBytes
      parseState := .WAITING_FOR_PAYLOAD })
  | .WAITING_FOR_PAYLOAD =>
    (true, if f.length > f.maxReceivedFrameSize then f.refuseLength else f.readPayload bytes)
  | .COMPLETE => (false, f)

/-- A step, if the bytes at hand are enough, and the bytes it leaves. -/
def phase (f : Frame) (x : List UInt8) : Option (Bool × Frame × List UInt8) :=
  if f.parseState ≠ .COMPLETE ∧ f.need ≤ x.length then
    some ((f.consume (x.take f.need)).1, (f.consume (x.take f.need)).2, x.drop f.need)
  else none

lemma phase_eq_some_iff {f f' : Frame} {x rest : List UInt8} {done : Bool} :
    phase f x = some (done, f', rest) ↔ (f.parseState ≠ .COMPLETE ∧ f.need ≤ x.length) ∧
      f.consume (x.take f.need) = (done, f') ∧ x.drop f.need = rest := by
  rw [phase, Option.ite_none_right_eq_some, Option.some.injEq, Prod.mk.injEq, Prod.mk.injEq,
    Prod.ext_iff, and_assoc (c := _ = rest)]

/-- More bytes do not change a step. -/
lemma phase_append {f f' : Frame} {x rest : List UInt8} {done : Bool}
    (h : phase f x = some (done, f', rest)) (y : List UInt8) :
    phase f (x ++ y) = some (done, f', rest ++ y) := by
  rcases phase_eq_some_iff.mp h with ⟨⟨hstate, hlen⟩, hconsume, rfl⟩
  rw [phase_eq_some_iff, List.take_append_of_le_length hlen, List.drop_append_of_le_length hlen,
    List.length_append]
  exact ⟨⟨hstate, by omega⟩, hconsume, rfl⟩

/-! ## `addData` -/

/-- What the steps come to: a frame that waits for more bytes, or one that is complete or in
error. -/
inductive Outcome : Frame → List UInt8 → Bool → Frame → List UInt8 → Prop
  | wait {f x} : phase f x = none → Outcome f x false f x
  | done {f x f' x'} : phase f x = some (true, f', x') → Outcome f x true f' x'
  | more {f x f₁ x₁ r f' x'} : phase f x = some (false, f₁, x₁) → Outcome f₁ x₁ r f' x' →
      Outcome f x r f' x'

/-- The steps come to what is returned. -/
def Returns (f : Frame) (l : BufferList) (result : Option (Bool × Frame × BufferList)) : Prop :=
  ∃ r f' l', result = some (r, f', l') ∧ l'.Wf ∧ Outcome f l.contents r f' l'.contents

section
variable (memory : ℕ → UInt8)

/-- The blocks behind the one for the length. -/
def afterLength (f : Frame) (l : BufferList) : Option (Bool × Frame × BufferList) := do
  let (f, l) ← decodeMaskKey f l
  return decodePayload memory f l

/-- The blocks behind the one for the header. -/
def afterHeader (f : Frame) (l : BufferList) : Option (Bool × Frame × BufferList) := do
  match ← decodeLength f l with
  | (true, f, l) => return (true, f, l)
  | (false, f, l) => afterLength memory f l

variable {f : Frame} {l : BufferList} (h : l.Wf)
include h

/-- The bytes are not there yet. -/
lemma returns_wait (hneed : ¬ f.need ≤ l.contents.length) : Returns f l (some (false, f, l)) :=
  ⟨_, _, _, rfl, h, .wait (if_neg fun hphase => hneed hphase.2)⟩

/-- The bytes are taken, and the frame is complete or in error. -/
lemma returns_done (hstate : f.parseState ≠ .COMPLETE) (hneed : f.need ≤ l.contents.length)
    {g : Frame} (hconsume : f.consume (l.contents.take f.need) = (true, g)) :
    Returns f l (some (true, g, l.advance f.need)) := by
  refine ⟨_, _, _, rfl, wf_advance h hneed, .done ?_⟩
  rw [phase_eq_some_iff, contents_advance]
  exact ⟨⟨hstate, hneed⟩, hconsume, rfl⟩

/-- The bytes are taken, and other steps follow. -/
lemma returns_more (hstate : f.parseState ≠ .COMPLETE) (hneed : f.need ≤ l.contents.length)
    {g : Frame} (hconsume : f.consume (l.contents.take f.need) = (false, g))
    {result : Option (Bool × Frame × BufferList)}
    (hrest : (l.advance f.need).Wf → Returns g (l.advance f.need) result) :
    Returns f l result := by
  rcases hrest (wf_advance h hneed) with ⟨r, f', l', hresult, hwf, hout⟩
  refine ⟨r, f', l', hresult, hwf, .more ?_ hout⟩
  rw [phase_eq_some_iff, contents_advance]
  exact ⟨⟨hstate, hneed⟩, hconsume, rfl⟩

/-- Nothing is advanced. -/
lemma advance_zero : l.advance 0 = l := by
  have hhead := h.offset
  rw [BufferList.advance, Nat.add_zero]
  rcases l with ⟨_ | ⟨head, next⟩, offset, length⟩
  · simp only [advance.loop, Nat.cast_zero, sub_zero]
  · simp only [advance.loop, if_neg (Nat.not_le_of_lt hhead), Nat.cast_zero, sub_zero]

omit h in
/-- No payload. -/
lemma readPayload_nil (hzero : f.length = 0) :
    f.readPayload [] = { f with binaryPayload := [], parseState := .COMPLETE } := by
  have hone : ¬ f.length = 1 := by omega
  have htwo : ¬ f.length ≥ 2 := by omega
  simp only [readPayload, xor, ite_self, if_neg hone, if_neg htwo]

/-- In the last state nothing happens. -/
lemma returns_complete (hstate : f.parseState = .COMPLETE) : Returns f l (some (false, f, l)) :=
  ⟨_, _, _, rfl, h, .wait (if_neg fun hphase => hphase.1 hstate)⟩

/-- The payload. -/
lemma returns_payload (hstate : f.parseState = .WAITING_FOR_PAYLOAD) :
    Returns f l (some (decodePayload memory f l)) := by
  have hne : f.parseState ≠ .COMPLETE := by rw [hstate]; decide
  rw [decodePayload, if_pos hstate]
  by_cases hmax : f.length > f.maxReceivedFrameSize
  · have hneed : f.need = 0 := by simp only [need, hstate, if_pos hmax]
    have hdone := returns_done h hne (g := f.refuseLength) (by omega)
      (by simp only [consume, hstate, if_pos hmax])
    rw [hneed, advance_zero h] at hdone
    rw [if_pos hmax]
    exact hdone
  · have hneed : f.need = f.length := by simp only [need, hstate, if_neg hmax]
    rw [if_neg hmax]
    by_cases hlen : f.need ≤ l.contents.length
    · have hdone := returns_done h hne hlen (g := f.readPayload (l.contents.take f.need))
        (by simp only [consume, hstate, if_neg hmax])
      split_ifs with hzero hge
      · -- no payload: nothing is taken
        rw [hneed, hzero, List.take_zero, advance_zero h, readPayload_nil hzero] at hdone
        exact hdone
      · rw [take_eq h memory (hneed ▸ hlen), ← hneed]
        exact hdone
      · rw [h.length] at hge
        omega
    · have hzero : f.length ≠ 0 := by omega
      have hge : ¬ l.length ≥ f.length := by
        rw [h.length]
        omega
      rw [if_neg hzero, if_neg hge]
      exact returns_wait h hlen

/-- The mask key, and the payload. -/
lemma returns_maskKey (hstate : f.parseState = .WAITING_FOR_MASK_KEY) :
    Returns f l (afterLength memory f l) := by
  have hne : f.parseState ≠ .COMPLETE := by rw [hstate]; decide
  have hnot : f.parseState ≠ .WAITING_FOR_PAYLOAD := by rw [hstate]; decide
  rw [afterLength, decodeMaskKey, if_pos hstate]
  by_cases hmask : f.mask
  · have hneed : f.need = 4 := by simp only [need, hstate, if_pos hmask]
    rw [if_pos hmask]
    by_cases hlen : f.need ≤ l.contents.length
    · have hge : l.length ≥ 4 := by
        rw [h.length]
        omega
      rw [if_pos hge, joinInto_eq h f.maskBytes (by omega) (by omega) (by omega)]
      apply returns_more h hne hlen
        (g := { f with
          maskBytes := splice l.contents f.maskBytes 0 0 4
          parseState := .WAITING_FOR_PAYLOAD })
      · simp only [consume, hstate, if_pos hmask, hneed, splice_take]
      · rw [hneed]
        exact fun hwf => returns_payload memory hwf rfl
    · have hge : ¬ l.length ≥ 4 := by
        rw [h.length]
        omega
      rw [if_neg hge]
      show Returns f l (some (decodePayload memory f l))
      rw [decodePayload, if_neg hnot]
      exact returns_wait h hlen
  · have hneed : f.need = 0 := by simp only [need, hstate, if_neg hmask]
    rw [if_neg hmask]
    apply returns_more h hne (by omega) (g := { f with parseState := .WAITING_FOR_PAYLOAD })
    · simp only [consume, hstate, if_neg hmask]
    · rw [hneed, advance_zero h]
      exact fun hwf => returns_payload memory hwf rfl

/-- The states behind the one for the length. -/
lemma returns_afterLength (hstate : f.parseState = .WAITING_FOR_MASK_KEY ∨
    f.parseState = .WAITING_FOR_PAYLOAD ∨ f.parseState = .COMPLETE) :
    Returns f l (afterLength memory f l) := by
  rcases hstate with hstate | hstate | hstate
  · exact returns_maskKey memory h hstate
  · rw [afterLength, decodeMaskKey, if_neg (by rw [hstate]; decide)]
    exact returns_payload memory h hstate
  · rw [afterLength, decodeMaskKey, if_neg (by rw [hstate]; decide)]
    show Returns f l (some (decodePayload memory f l))
    rw [decodePayload, if_neg (by rw [hstate]; decide)]
    exact returns_complete h hstate

omit h in
/-- Before that state the blocks do nothing. -/
lemma afterLength_eq (hmask : f.parseState ≠ .WAITING_FOR_MASK_KEY)
    (hpayload : f.parseState ≠ .WAITING_FOR_PAYLOAD) :
    afterLength memory f l = some (false, f, l) := by
  rw [afterLength, decodeMaskKey, if_neg hmask]
  show some (decodePayload memory f l) = _
  rw [decodePayload, if_neg hpayload]

omit h in
/-- Behind an acceptable length. -/
lemma readLength64_state {f₁ : Frame} (hread : f.readLength64 = (false, f₁)) :
    f₁.parseState = .WAITING_FOR_MASK_KEY := by
  simp only [readLength64] at hread
  split_ifs at hread
  · exact absurd (congrArg Prod.fst hread) Bool.noConfusion
  · obtain rfl := congrArg Prod.snd hread
    rfl

/-- A length of two bytes. -/
lemma returns_length16 (hstate : f.parseState = .WAITING_FOR_16_BIT_LENGTH) :
    Returns f l (afterHeader memory f l) := by
  have hne : f.parseState ≠ .COMPLETE := by rw [hstate]; decide
  have hneed : f.need = 2 := by simp only [need, hstate]
  rw [afterHeader, decodeLength, if_pos hstate]
  by_cases hlen : f.need ≤ l.contents.length
  · have hge : l.length ≥ 2 := by
      rw [h.length]
      omega
    rw [if_pos hge, joinInto_eq h f.frameHeader (by omega) (by omega) (by omega)]
    apply returns_more h hne hlen
      (g := { f with frameHeader := splice l.contents f.frameHeader 2 0 2 }.readLength16)
    · simp only [consume, hstate, hneed, splice_take]
    · rw [hneed]
      exact fun hwf => returns_afterLength memory hwf (Or.inl rfl)
  · have hge : ¬ l.length ≥ 2 := by
      rw [h.length]
      omega
    rw [if_neg hge]
    show Returns f l (afterLength memory f l)
    rw [afterLength_eq memory (by rw [hstate]; decide) (by rw [hstate]; decide)]
    exact returns_wait h hlen

/-- A length of eight bytes. -/
lemma returns_length64 (hstate : f.parseState = .WAITING_FOR_64_BIT_LENGTH) :
    Returns f l (afterHeader memory f l) := by
  have hne : f.parseState ≠ .COMPLETE := by rw [hstate]; decide
  have hneed : f.need = 8 := by simp only [need, hstate]
  rw [afterHeader, decodeLength, if_neg (by rw [hstate]; decide), if_pos hstate]
  by_cases hlen : f.need ≤ l.contents.length
  · have hge : l.length ≥ 8 := by
      rw [h.length]
      omega
    rw [if_pos hge, joinInto_eq h f.frameHeader (by omega) (by omega) (by omega)]
    have hconsume : f.consume (l.contents.take f.need)
        = { f with frameHeader := splice l.contents f.frameHeader 2 0 8 }.readLength64 := by
      simp only [consume, hstate, hneed, splice_take]
    rcases hread : { f with frameHeader := splice l.contents f.frameHeader 2 0 8 }.readLength64
      with ⟨done, f₁⟩
    rw [hread] at hconsume
    simp only [Option.bind_eq_bind, Option.bind_some, hread, Option.pure_def]
    cases done with
    | true => exact hneed ▸ returns_done h hne hlen hconsume
    | false =>
      apply returns_more h hne hlen hconsume
      rw [hneed]
      exact fun hwf => returns_afterLength memory hwf (Or.inl (readLength64_state hread))
  · have hge : ¬ l.length ≥ 8 := by
      rw [h.length]
      omega
    rw [if_neg hge]
    show Returns f l (afterLength memory f l)
    rw [afterLength_eq memory (by rw [hstate]; decide) (by rw [hstate]; decide)]
    exact returns_wait h hlen

omit h in
/-- Behind an acceptable header. -/
lemma readHeader_state {f₁ : Frame} (hread : f.readHeader = (false, f₁)) :
    f₁.parseState ≠ .DECODE_HEADER := by
  simp only [readHeader] at hread
  split_ifs at hread
  · exact absurd (congrArg Prod.fst hread) Bool.noConfusion
  · exact absurd (congrArg Prod.fst hread) Bool.noConfusion
  all_goals
    obtain rfl := congrArg Prod.snd hread
    exact ParseState.noConfusion

/-- The states behind the one for the header. -/
lemma returns_afterHeader (hstate : f.parseState ≠ .DECODE_HEADER) :
    Returns f l (afterHeader memory f l) := by
  by_cases h16 : f.parseState = .WAITING_FOR_16_BIT_LENGTH
  · exact returns_length16 memory h h16
  by_cases h64 : f.parseState = .WAITING_FOR_64_BIT_LENGTH
  · exact returns_length64 memory h h64
  rw [afterHeader, decodeLength, if_neg h16, if_neg h64]
  apply returns_afterLength memory h
  cases hcases : f.parseState <;> simp_all

/-- **What `addData` returns.** It does not throw, and makes all the steps that the bytes
allow. -/
theorem addData_returns : Returns f l (addData memory f l) := by
  by_cases hstate : f.parseState = .DECODE_HEADER
  · have hne : f.parseState ≠ .COMPLETE := by rw [hstate]; decide
    have hneed : f.need = 2 := by simp only [need, hstate]
    rw [addData, decodeHeader]
    by_cases hlen : f.need ≤ l.contents.length
    · have hge : l.length ≥ 2 := by
        rw [h.length]
        omega
      rw [if_pos ⟨hstate, hge⟩, joinInto_eq h f.frameHeader (by omega) (by omega) (by omega)]
      have hconsume : f.consume (l.contents.take f.need)
          = { f with frameHeader := splice l.contents f.frameHeader 0 0 2 }.readHeader := by
        simp only [consume, hstate, hneed, splice_take]
      rcases hread : { f with frameHeader := splice l.contents f.frameHeader 0 0 2 }.readHeader
        with ⟨done, f₁⟩
      rw [hread] at hconsume
      simp only [Option.bind_eq_bind, Option.bind_some, hread, Option.pure_def]
      cases done with
      | true => exact hneed ▸ returns_done h hne hlen hconsume
      | false =>
        apply returns_more h hne hlen hconsume
        rw [hneed]
        exact fun hwf => returns_afterHeader memory hwf (readHeader_state hread)
    · have hge : ¬ (f.parseState = .DECODE_HEADER ∧ l.length ≥ 2) := by
        rw [h.length]
        omega
      rw [if_neg hge]
      show Returns f l (afterHeader memory f l)
      rw [afterHeader, decodeLength, if_neg (by rw [hstate]; decide),
        if_neg (by rw [hstate]; decide)]
      show Returns f l (afterLength memory f l)
      rw [afterLength_eq memory (by rw [hstate]; decide) (by rw [hstate]; decide)]
      exact returns_wait h hlen
  · rw [addData, decodeHeader, if_neg fun hboth => hstate hboth.1]
    exact returns_afterHeader memory h hstate

end

end Frame

end Syndilights.Displayclient.WebSocket
