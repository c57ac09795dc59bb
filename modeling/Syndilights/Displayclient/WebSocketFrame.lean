import Syndilights.Displayclient.BufferList

/-!
# The frames of a websocket connection

`WebSocketFrame.js`: `toBuffer` writes the bytes of a frame, and `addData` reads them as they
arrive. An exception is `none`.
-/

namespace Syndilights.Displayclient.WebSocket

/-! ## Numbers in buffers -/

/-- `ruint16(buffer, 'big', offset)`. -/
def ruint16 (buffer : List UInt8) (offset : ℕ) : ℕ :=
  (buffer.getD offset 0).toNat <<< 8 ||| (buffer.getD (offset + 1) 0).toNat

/-- `fixu32`. -/
def fixu32 (upper lower : ℕ) : ℕ := (1 <<< 24) * upper + lower

/-- `ruint32(buffer, 'big', offset)`. -/
def ruint32 (buffer : List UInt8) (offset : ℕ) : ℕ :=
  fixu32 (buffer.getD offset 0).toNat ((buffer.getD (offset + 1) 0).toNat <<< 16 |||
    (buffer.getD (offset + 2) 0).toNat <<< 8 ||| (buffer.getD (offset + 3) 0).toNat)

/-- `ruint64(buffer, 'big', offset)`: the two halves. -/
def ruint64 (buffer : List UInt8) (offset : ℕ) : ℕ × ℕ :=
  (ruint32 buffer offset, ruint32 buffer (offset + 4))

/-- `prepuint`, which throws for a value that is out of range. -/
def prepuint (value : ℤ) (max : ℕ) : Option ℕ :=
  if value < 0 then none else if value > max then none else some value.toNat

/-- The bytes that `wuint16(value, 'big', buffer, offset)` writes. -/
def wuint16 (value : ℤ) : Option (List UInt8) := do
  let val ← prepuint value 0xffff
  return [((val &&& 0xff00) >>> (8 : ℕ)).toUInt8, (val &&& 0x00ff).toUInt8]

/-- The bytes that `wuint32(value, 'big', buffer, offset)` writes. -/
def wuint32 (value : ℤ) : Option (List UInt8) := do
  let val ← prepuint value 0xffffffff
  return [((val - (val &&& 0x00ffffff)) / 2 ^ 24).toUInt8, ((val >>> (16 : ℕ)) &&& 0xff).toUInt8,
    ((val >>> (8 : ℕ)) &&& 0xff).toUInt8, (val &&& 0xff).toUInt8]

/-- The bytes that `wuint64(value, 'big', buffer, offset)` writes, for the two halves. -/
def wuint64 (value : ℤ × ℤ) : Option (List UInt8) := do
  let high ← wuint32 value.1
  let low ← wuint32 value.2
  return high ++ low

/-- `xor(payload, maskBytes, maskPos)`. -/
def xor (maskBytes : List UInt8) : List UInt8 → ℕ → List UInt8
  | [], _ => []
  | byte :: payload, maskPos =>
    (byte ^^^ maskBytes.getD maskPos 0) :: xor maskBytes payload ((maskPos + 1) &&& 3)

/-! ## Frames -/

/-- What `addData` waits for. -/
inductive ParseState
  | DECODE_HEADER
  | WAITING_FOR_16_BIT_LENGTH
  | WAITING_FOR_64_BIT_LENGTH
  | WAITING_FOR_MASK_KEY
  | WAITING_FOR_PAYLOAD
  | COMPLETE
deriving DecidableEq

/-- `WebSocketFrame`. The two buffers belong to the connection, which hands them from frame
to frame. -/
structure Frame where
  maskBytes : Buffer 4
  frameHeader : Buffer 10
  maxReceivedFrameSize : ℕ
  protocolError : Bool
  frameTooLarge : Bool
  invalidCloseFrameLength : Bool
  dropReason : Option String
  parseState : ParseState
  closeStatus : ℤ
  fin : Bool
  rsv1 : Bool
  rsv2 : Bool
  rsv3 : Bool
  mask : Bool
  opcode : ℕ
  length : ℕ
  binaryPayload : List UInt8
deriving DecidableEq

namespace Frame

/-- The constructor; what it does not set is undefined, which counts as false. -/
def new (maskBytes : Buffer 4) (frameHeader : Buffer 10) (maxReceivedFrameSize : ℕ) : Frame where
  maskBytes := maskBytes
  frameHeader := frameHeader
  maxReceivedFrameSize := maxReceivedFrameSize
  protocolError := false
  frameTooLarge := false
  invalidCloseFrameLength := false
  dropReason := none
  parseState := .DECODE_HEADER
  closeStatus := -1
  fin := false
  rsv1 := false
  rsv2 := false
  rsv3 := false
  mask := false
  opcode := 0
  length := 0
  binaryPayload := []

/-! ## Reading -/

/-- The error for which the connection is dropped. -/
def fail (f : Frame) (reason : String) : Frame :=
  { f with protocolError := true, dropReason := some reason }

/-- The two bytes of a header: `true` if they are not acceptable. -/
def readHeader (f : Frame) : Bool × Frame :=
  let firstByte := f.frameHeader 0
  let secondByte := f.frameHeader 1
  let f := { f with
    fin := firstByte &&& 0x80 ≠ 0
    rsv1 := firstByte &&& 0x40 ≠ 0
    rsv2 := firstByte &&& 0x20 ≠ 0
    rsv3 := firstByte &&& 0x10 ≠ 0
    mask := secondByte &&& 0x80 ≠ 0
    opcode := (firstByte &&& 0x0F).toNat
    length := (secondByte &&& 0x7F).toNat }
  -- control frame sanity check
  if f.opcode ≥ 0x08 ∧ f.length > 125 then
    (true, f.fail "Illegal control frame longer than 125 bytes.")
  else if f.opcode ≥ 0x08 ∧ ¬ f.fin then (true, f.fail "Control frames must not be fragmented.")
  else if f.length = 126 then (false, { f with parseState := .WAITING_FOR_16_BIT_LENGTH })
  else if f.length = 127 then (false, { f with parseState := .WAITING_FOR_64_BIT_LENGTH })
  else (false, { f with parseState := .WAITING_FOR_MASK_KEY })

/-- A length of two bytes. -/
def readLength16 (f : Frame) : Frame :=
  { f with
    length := ruint16 (List.ofFn f.frameHeader) 2
    parseState := .WAITING_FOR_MASK_KEY }

/-- A length of eight bytes: `true` if it does not fit in the lower four. -/
def readLength64 (f : Frame) : Bool × Frame :=
  let lengthPair := ruint64 (List.ofFn f.frameHeader) 2
  if lengthPair.1 ≠ 0 then (true, f.fail "Unsupported 64-bit length frame received")
  else (false, { f with length := lengthPair.2, parseState := .WAITING_FOR_MASK_KEY })

/-- The frame is longer than the limit. -/
def refuseLength (f : Frame) : Frame :=
  { f with
    frameTooLarge := true
    dropReason := some ("Frame size of " ++ toString f.length ++
      " bytes exceeds maximum accepted frame size") }

/-- The payload, as it was received. -/
def readPayload (f : Frame) (binaryPayload : List UInt8) : Frame :=
  let payload := if f.mask then xor (List.ofFn f.maskBytes) binaryPayload 0 else binaryPayload
  let f := { f with binaryPayload := payload, parseState := .COMPLETE }
  if f.opcode = 0x08 then
    -- invalid length for a close frame, must be zero or at least two
    if f.length = 1 then { f with binaryPayload := [], invalidCloseFrameLength := true }
    else if f.length ≥ 2 then
      { f with closeStatus := ruint16 payload 0, binaryPayload := payload.drop 2 }
    else f
  else f

/-- The block of `addData` in state `DECODE_HEADER`; `true` stands for its `return true`. -/
def decodeHeader (f : Frame) (l : BufferList) : Option (Bool × Frame × BufferList) :=
  if f.parseState = .DECODE_HEADER ∧ l.length ≥ 2 then do
    let frameHeader ← l.joinInto f.frameHeader 0 0 2
    let (done, f) := { f with frameHeader }.readHeader
    return (done, f, l.advance 2)
  else some (false, f, l)

/-- The blocks in the two states for a longer length. -/
def decodeLength (f : Frame) (l : BufferList) : Option (Bool × Frame × BufferList) :=
  if f.parseState = .WAITING_FOR_16_BIT_LENGTH then
    if l.length ≥ 2 then do
      let frameHeader ← l.joinInto f.frameHeader 2 0 2
      return (false, { f with frameHeader }.readLength16, l.advance 2)
    else some (false, f, l)
  else if f.parseState = .WAITING_FOR_64_BIT_LENGTH then
    if l.length ≥ 8 then do
      let frameHeader ← l.joinInto f.frameHeader 2 0 8
      let (done, f) := { f with frameHeader }.readLength64
      return (done, f, l.advance 8)
    else some (false, f, l)
  else some (false, f, l)

/-- The block in state `WAITING_FOR_MASK_KEY`. -/
def decodeMaskKey (f : Frame) (l : BufferList) : Option (Frame × BufferList) :=
  if f.parseState = .WAITING_FOR_MASK_KEY then
    if f.mask then
      if l.length ≥ 4 then do
        let maskBytes ← l.joinInto f.maskBytes 0 0 4
        return ({ f with maskBytes, parseState := .WAITING_FOR_PAYLOAD }, l.advance 4)
      else some (f, l)
    else some ({ f with parseState := .WAITING_FOR_PAYLOAD }, l)
  else some (f, l)

/-- The block in state `WAITING_FOR_PAYLOAD`, with the `return false` at the end. -/
def decodePayload (memory : ℕ → UInt8) (f : Frame) (l : BufferList) : Bool × Frame × BufferList :=
  if f.parseState = .WAITING_FOR_PAYLOAD then
    if f.length > f.maxReceivedFrameSize then (true, f.refuseLength, l)
    else if f.length = 0 then (true, { f with binaryPayload := [], parseState := .COMPLETE }, l)
    else if l.length ≥ f.length then
      (true, f.readPayload (l.take memory f.length), l.advance f.length)
    else (false, f, l)
  else (false, f, l)

/-- `addData`: whether the frame is complete, or in error. -/
def addData (memory : ℕ → UInt8) (f : Frame) (l : BufferList) :
    Option (Bool × Frame × BufferList) := do
  match ← decodeHeader f l with
  | (true, f, l) => return (true, f, l)
  | (false, f, l) =>
    match ← decodeLength f l with
    | (true, f, l) => return (true, f, l)
    | (false, f, l) =>
      let (f, l) ← decodeMaskKey f l
      return decodePayload memory f l

/-! ## A complete frame takes bytes -/

/-- How many steps a state leaves that take no bytes. -/
def rank : ParseState → ℕ
  | .DECODE_HEADER => 0
  | .WAITING_FOR_16_BIT_LENGTH => 3
  | .WAITING_FOR_64_BIT_LENGTH => 3
  | .WAITING_FOR_MASK_KEY => 2
  | .WAITING_FOR_PAYLOAD => 1
  | .COMPLETE => 0

section
variable {memory : ℕ → UInt8} {f f' : Frame} {l l' : BufferList} {done : Bool}

lemma decodeHeader_lt (h : decodeHeader f l = some (done, f', l')) :
    l'.length.toNat < l.length.toNat ∨ (done, f', l') = (false, f, l) := by
  rw [decodeHeader] at h
  split_ifs at h with hlen
  · simp only [Option.bind_eq_bind, Option.bind_eq_some_iff] at h
    rcases h with ⟨frameHeader, -, heq⟩
    cases heq
    left
    simp only [BufferList.advance]
    omega
  · cases h
    exact Or.inr rfl

lemma decodeLength_lt (h : decodeLength f l = some (done, f', l')) :
    l'.length.toNat < l.length.toNat ∨ (done, f', l') = (false, f, l) := by
  rw [decodeLength] at h
  split_ifs at h with _ hlen _ hlen
  case pos | pos =>
    simp only [Option.bind_eq_bind, Option.bind_eq_some_iff] at h
    rcases h with ⟨frameHeader, -, heq⟩
    cases heq
    left
    simp only [BufferList.advance]
    omega
  all_goals
    cases h
    exact Or.inr rfl

lemma decodeMaskKey_lt (h : decodeMaskKey f l = some (f', l')) :
    l'.length.toNat < l.length.toNat ∨ (f', l') = (f, l) ∨
      f.parseState = .WAITING_FOR_MASK_KEY ∧ l' = l := by
  rw [decodeMaskKey] at h
  split_ifs at h with hstate hmask hlen
  · simp only [Option.bind_eq_bind, Option.bind_eq_some_iff] at h
    rcases h with ⟨maskBytes, -, heq⟩
    cases heq
    left
    simp only [BufferList.advance]
    omega
  · cases h
    exact Or.inr (Or.inl rfl)
  · cases h
    exact Or.inr (Or.inr ⟨hstate, rfl⟩)
  · cases h
    exact Or.inr (Or.inl rfl)

lemma decodePayload_le (h : decodePayload memory f l = (true, f', l')) :
    f.parseState = .WAITING_FOR_PAYLOAD ∧ l'.length.toNat ≤ l.length.toNat := by
  rw [decodePayload] at h
  split_ifs at h with hstate hmax hzero hlen
  · cases h
    exact ⟨hstate, le_refl _⟩
  · cases h
    exact ⟨hstate, le_refl _⟩
  · cases h
    refine ⟨hstate, ?_⟩
    simp only [BufferList.advance]
    omega
  · cases h
  · cases h

/-- A call that returns `true` has taken bytes, or has had only such steps left. -/
lemma addData_lt (h : addData memory f l = some (true, f', l')) :
    4 * l'.length.toNat < 4 * l.length.toNat + rank f.parseState := by
  simp only [addData, Option.bind_eq_bind, Option.bind_eq_some_iff] at h
  rcases h with ⟨⟨done₁, f₁, l₁⟩, hheader, h⟩
  have hstep₁ := decodeHeader_lt hheader
  cases done₁ with
  | true =>
    cases h
    rcases hstep₁ with hlt | heq
    · omega
    · cases heq
  | false =>
    simp only [Option.bind_eq_some_iff] at h
    rcases h with ⟨⟨done₂, f₂, l₂⟩, hlength, h⟩
    have hstep₂ := decodeLength_lt hlength
    cases done₂ with
    | true =>
      cases h
      rcases hstep₁ with hlt₁ | heq₁ <;> rcases hstep₂ with hlt₂ | heq₂
      · omega
      · cases heq₂
      · cases heq₁
        omega
      · cases heq₂
    | false =>
      simp only [Option.bind_eq_some_iff] at h
      rcases h with ⟨⟨f₃, l₃⟩, hmask, h⟩
      obtain ⟨hstate, hle⟩ := decodePayload_le (Option.some.inj h)
      dsimp only at hstate hle
      -- as long as nothing was taken, it is one frame
      have hlt₃ : 4 * l₃.length.toNat < 4 * l₂.length.toNat + rank f₂.parseState := by
        rcases decodeMaskKey_lt hmask with hlt | heq | ⟨hstate₂, rfl⟩
        · omega
        · cases heq
          rw [hstate, rank]
          omega
        · rw [hstate₂, rank]
          omega
      have hlt₂ : 4 * l₃.length.toNat < 4 * l₁.length.toNat + rank f₁.parseState := by
        rcases hstep₂ with hlt | heq
        · have hrank : rank f₂.parseState ≤ 3 := by cases f₂.parseState <;> decide
          omega
        · cases heq
          exact hlt₃
      rcases hstep₁ with hlt | heq
      · have hrank : rank f₁.parseState ≤ 3 := by cases f₁.parseState <;> decide
        omega
      · cases heq
        omega

end

/-! ## Writing -/

/-- The close status, which is prepended to the payload data of a close frame. -/
def statusBytes (f : Frame) : Option (List UInt8) :=
  if f.opcode = 0x08 then wuint16 f.closeStatus else some []

/-- The bytes behind the header for a length that is not written directly into it. -/
def lengthBytes (length : ℕ) : Option (List UInt8) :=
  if length ≤ 125 then some []
  else if length ≤ 0xFFFF then wuint16 length
  else wuint64 (0x00000000, length)

/-- The mask key and the data. The key is a random number; a masked frame without data gets
four bytes that nothing is written to. -/
def payloadBytes (memory : ℕ → UInt8) (maskKey : ℕ) (f : Frame) (data : List UInt8) :
    Option (List UInt8) :=
  if data.length > 0 then
    if f.mask then do
      let maskBytes ← wuint32 maskKey
      return maskBytes ++ xor maskBytes data 0
    else some data
  else if f.mask then some ((List.range 4).map fun i => memory (2 + i))
  else some []

/-- The flags and the opcode. -/
def firstByte (f : Frame) : UInt8 :=
  (if f.fin then 0x80 else 0) ||| (if f.rsv1 then 0x40 else 0) ||| (if f.rsv2 then 0x20 else 0) |||
    (if f.rsv3 then 0x10 else 0) ||| (f.opcode &&& 0x0F).toUInt8

/-- The mask flag and the length, or how long it is written. -/
def secondByte (f : Frame) (length : ℕ) : UInt8 :=
  (if f.mask then 0x80 else 0) |||
    (if length ≤ 125 then (length &&& 0x7F).toUInt8 else if length ≤ 0xFFFF then 126 else 127)

/-- `toBuffer`. -/
def toBuffer (memory : ℕ → UInt8) (maskKey : ℕ) (f : Frame) : Option (List UInt8) := do
  let close ← f.statusBytes
  let data := close ++ f.binaryPayload
  let extended ← lengthBytes data.length
  let body ← f.payloadBytes memory maskKey data
  return f.firstByte :: f.secondByte data.length :: (extended ++ body)

end Frame

end Syndilights.Displayclient.WebSocket
