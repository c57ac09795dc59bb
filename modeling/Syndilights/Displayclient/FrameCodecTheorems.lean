import Syndilights.Displayclient.WebSocketFrameTheorems

/-!
# What is written is read back

`addData` gets from the bytes of `toBuffer` the frame they were made of, and it is complete
with the last of them and not before.
-/

namespace Syndilights.Displayclient.WebSocket

/-! ## Numbers -/

/-- The low bytes of a number below `2 ^ 32`. -/
lemma toNat_toUInt8_mod (v : ℕ) : (v % 256).toUInt8.toNat = v % 256 := by
  simp

lemma and_ff (v : ℕ) : v &&& 0xff = v % 256 := Nat.and_two_pow_sub_one_eq_mod v 8

/-- Two bytes hold a number below `2 ^ 16`. -/
lemma ruint16_wuint16 {value : ℤ} {bytes : List UInt8} (h : wuint16 value = some bytes) :
    bytes.length = 2 ∧ (ruint16 bytes 0 : ℤ) = value := by
  simp only [wuint16, Option.bind_eq_bind, Option.bind_eq_some_iff, prepuint] at h
  rcases h with ⟨val, hval, hbytes⟩
  split_ifs at hval with hneg hmax
  obtain rfl := Option.some.inj hval
  obtain rfl := Option.some.inj hbytes
  have hhigh : (value.toNat &&& 0xff00) >>> (8 : ℕ) = value.toNat / 256 % 256 := by
    rw [Nat.shiftRight_and_distrib, Nat.shiftRight_eq_div_pow]
    exact and_ff _
  refine ⟨rfl, ?_⟩
  simp only [ruint16, List.getD_cons_zero, List.getD_cons_succ, hhigh, and_ff, toNat_toUInt8_mod]
  rw [← Nat.shiftLeft_add_eq_or_of_lt (by omega), Nat.shiftLeft_eq]
  omega

/-- The four parts of a number below `2 ^ 32`. -/
lemma fixu32_parts (v : ℕ) :
    fixu32 (v / 2 ^ 24) ((v / 2 ^ 16 % 256) <<< 16 ||| (v / 2 ^ 8 % 256) <<< 8 ||| v % 256) = v := by
  have hlow : (v / 2 ^ 8 % 256) <<< 8 ||| v % 256 = v % 2 ^ 16 := by
    rw [← Nat.shiftLeft_add_eq_or_of_lt (by omega), Nat.shiftLeft_eq]
    omega
  have hmiddle : (v / 2 ^ 16 % 256) <<< 16 ||| v % 2 ^ 16 = v % 2 ^ 24 := by
    rw [← Nat.shiftLeft_add_eq_or_of_lt (Nat.mod_lt _ (by positivity)), Nat.shiftLeft_eq]
    omega
  rw [Nat.or_assoc, hlow, hmiddle, fixu32, Nat.one_shiftLeft]
  omega

/-- Four bytes hold such a number. -/
lemma ruint32_wuint32 {value : ℤ} {bytes : List UInt8} (h : wuint32 value = some bytes) :
    bytes.length = 4 ∧ (ruint32 bytes 0 : ℤ) = value := by
  simp only [wuint32, Option.bind_eq_bind, Option.bind_eq_some_iff, prepuint] at h
  rcases h with ⟨val, hval, hbytes⟩
  split_ifs at hval with hneg hmax
  obtain rfl := Option.some.inj hval
  obtain rfl := Option.some.inj hbytes
  have hlow : value.toNat &&& 0x00ffffff = value.toNat % 2 ^ 24 :=
    Nat.and_two_pow_sub_one_eq_mod value.toNat 24
  have htop : (value.toNat - value.toNat % 2 ^ 24) / 2 ^ 24 = value.toNat / 2 ^ 24 % 256 := by
    omega
  refine ⟨rfl, ?_⟩
  simp only [ruint32, List.getD_cons_zero, List.getD_cons_succ, hlow, htop, and_ff,
    Nat.shiftRight_eq_div_pow, toNat_toUInt8_mod]
  rw [Nat.mod_eq_of_lt (by omega : value.toNat / 2 ^ 24 < 256), fixu32_parts]
  omega

/-- Numbers are read where they are. -/
lemma ruint32_append (front bytes back : List UInt8) (h : bytes.length = 4) :
    ruint32 (front ++ (bytes ++ back)) front.length = ruint32 bytes 0 := by
  have hbyte {k : ℕ} (hk : k < 4) :
      (front ++ (bytes ++ back)).getD (front.length + k) 0 = bytes.getD k 0 :=
    BufferList.getD_append_middle front bytes back (by omega) rfl
  have h0 := hbyte (k := 0) (by omega)
  rw [Nat.add_zero] at h0
  simp only [ruint32, h0, hbyte (k := 1) (by omega), hbyte (k := 2) (by omega),
    hbyte (k := 3) (by omega), Nat.zero_add]

/-- Eight bytes with a number in the lower four. -/
lemma ruint64_wuint64 {value : ℤ} {bytes : List UInt8} (h : wuint64 (0, value) = some bytes) :
    bytes.length = 8 ∧ (ruint64 bytes 0).1 = 0 ∧ ((ruint64 bytes 0).2 : ℤ) = value := by
  simp only [wuint64, Option.bind_eq_bind, Option.bind_eq_some_iff] at h
  rcases h with ⟨high, hhigh, low, hlow, hbytes⟩
  obtain rfl := Option.some.inj hbytes
  rcases ruint32_wuint32 hhigh with ⟨hhighlen, hhighval⟩
  rcases ruint32_wuint32 hlow with ⟨hlowlen, hlowval⟩
  refine ⟨by rw [List.length_append]; omega, ?_, ?_⟩
  · have hread := ruint32_append [] high low hhighlen
    rw [List.nil_append, List.length_nil] at hread
    show ruint32 (high ++ low) 0 = 0
    omega
  · have hread := ruint32_append high low [] hlowlen
    rw [List.append_nil, hhighlen] at hread
    show (ruint32 (high ++ low) 4 : ℤ) = value
    rw [hread, hlowval]

/-- The mask is undone by masking again. -/
lemma xor_xor (maskBytes payload : List UInt8) (maskPos : ℕ) :
    xor maskBytes (xor maskBytes payload maskPos) maskPos = payload := by
  induction payload generalizing maskPos with
  | nil => rfl
  | cons byte payload ih =>
    rw [xor, xor, ih, UInt8.xor_assoc, UInt8.xor_self, UInt8.xor_zero]

lemma length_xor (maskBytes payload : List UInt8) (maskPos : ℕ) :
    (xor maskBytes payload maskPos).length = payload.length := by
  induction payload generalizing maskPos with
  | nil => rfl
  | cons byte payload ih => rw [xor, List.length_cons, List.length_cons, ih]

/-! ## The header -/

/-- The first byte of a header. -/
lemma firstByte_bits : ∀ (fin rsv1 rsv2 rsv3 : Bool) (opcode : Fin 16),
    let byte : UInt8 := (if fin then 0x80 else 0) ||| (if rsv1 then 0x40 else 0) |||
      (if rsv2 then 0x20 else 0) ||| (if rsv3 then 0x10 else 0) ||| (opcode.val &&& 0x0F).toUInt8
    decide (byte &&& 0x80 ≠ 0) = fin ∧ decide (byte &&& 0x40 ≠ 0) = rsv1 ∧
      decide (byte &&& 0x20 ≠ 0) = rsv2 ∧ decide (byte &&& 0x10 ≠ 0) = rsv3 ∧
      (byte &&& 0x0F).toNat = opcode := by
  decide +kernel

/-- The second byte of a header. -/
lemma secondByte_bits : ∀ (mask : Bool) (length : Fin 128),
    let byte : UInt8 := (if mask then 0x80 else 0) ||| length.val.toUInt8
    decide (byte &&& 0x80 ≠ 0) = mask ∧ (byte &&& 0x7F).toNat = length := by
  decide +kernel

/-- Bytes that were written behind the two of a header are read where they are. -/
lemma getD_ofFn_splice (x : List UInt8) (target : Buffer 10) {e k : ℕ} (he : e ≤ 8) (hk : k < e) :
    (List.ofFn (splice x target 2 0 e)).getD (2 + k) 0 = x.getD k 0 := by
  have hlt : 2 + k < 10 := by omega
  have hrange : 2 ≤ 2 + k ∧ 2 + k < 2 + (e - 0) := by omega
  rw [List.getD_eq_getElem?_getD, List.getElem?_ofFn, dif_pos hlt, Option.getD_some, splice,
    if_pos hrange, Nat.zero_add, Nat.add_sub_cancel_left]

lemma ruint16_splice (x : List UInt8) (target : Buffer 10) :
    ruint16 (List.ofFn (splice x target 2 0 2)) 2 = ruint16 x 0 := by
  have hbyte {k : ℕ} (hk : k < 2) := getD_ofFn_splice x target (by omega : 2 ≤ 8) hk
  have h0 := hbyte (k := 0) (by omega)
  have h1 := hbyte (k := 1) (by omega)
  rw [ruint16, ruint16, h1]
  exact congrArg (fun b : UInt8 => b.toNat <<< 8 ||| _) h0

lemma ruint64_splice (x : List UInt8) (target : Buffer 10) :
    ruint64 (List.ofFn (splice x target 2 0 8)) 2 = ruint64 x 0 := by
  have hbyte {k : ℕ} (hk : k < 8) := getD_ofFn_splice x target (le_refl 8) hk
  have h0 := hbyte (k := 0) (by omega)
  rw [Nat.add_zero] at h0
  simp only [ruint64, ruint32, Nat.reduceAdd, h0, hbyte (k := 1) (by omega),
    hbyte (k := 2) (by omega), hbyte (k := 3) (by omega), hbyte (k := 4) (by omega),
    hbyte (k := 5) (by omega), hbyte (k := 6) (by omega), hbyte (k := 7) (by omega)]

namespace Frame

variable {memory : ℕ → UInt8} {maskKey : ℕ} {f r : Frame} {bytes rest : List UInt8}

/-! ## The steps for a frame that was written -/

/-- The bytes of the payload, with the close status in front. -/
def dataLength (f : Frame) : ℕ := f.binaryPayload.length + if f.opcode = 0x08 then 2 else 0

/-- A frame that a receiver with this limit accepts. -/
structure Sendable (maxReceivedFrameSize : ℕ) (f : Frame) : Prop where
  opcode : f.opcode < 16
  control : 0x08 ≤ f.opcode → f.fin = true ∧ f.dataLength ≤ 125
  size : f.dataLength ≤ maxReceivedFrameSize

/-- The header of a frame has been read, and nothing was wrong with it. -/
structure HasHeader (f r : Frame) : Prop where
  fin : r.fin = f.fin
  rsv1 : r.rsv1 = f.rsv1
  rsv2 : r.rsv2 = f.rsv2
  rsv3 : r.rsv3 = f.rsv3
  mask : r.mask = f.mask
  opcode : r.opcode = f.opcode
  protocolError : r.protocolError = false
  frameTooLarge : r.frameTooLarge = false

/-- The frame has been read. -/
structure Received (f r : Frame) : Prop extends HasHeader f r where
  parseState : r.parseState = .COMPLETE
  invalidCloseFrameLength : r.invalidCloseFrameLength = false
  length : r.length = f.dataLength
  binaryPayload : r.binaryPayload = f.binaryPayload
  closeStatus : r.closeStatus = if f.opcode = 0x08 then f.closeStatus else -1

/-- A frame that is being read, with nothing wrong so far. -/
structure Reading (f r : Frame) (state : ParseState) : Prop extends HasHeader f r where
  parseState : r.parseState = state
  invalidCloseFrameLength : r.invalidCloseFrameLength = false
  closeStatus : r.closeStatus = -1

section
variable {close key : List UInt8}

/-- The bytes in front of a payload are those of the close status. -/
lemma length_close (hclose : f.statusBytes = some close) : (close ++ f.binaryPayload).length = f.dataLength := by
  rw [List.length_append, dataLength]
  rw [statusBytes] at hclose
  split_ifs at hclose ⊢ with hopcode
  · rw [(ruint16_wuint16 hclose).1]
    omega
  · obtain rfl := Option.some.inj hclose
    rw [List.length_nil]
    omega

/-- The payload, as it is on the wire. -/
def masked (f : Frame) (key data : List UInt8) : List UInt8 := if f.mask then xor key data 0 else data

lemma length_masked (key data : List UInt8) : (f.masked key data).length = data.length := by
  rw [masked]
  split_ifs
  · exact length_xor _ _ _
  · rfl

/-- The payload completes the frame. -/
lemma outcome_payload (hreading : Reading f r .WAITING_FOR_PAYLOAD)
    (hclose : f.statusBytes = some close)
    (hlen : r.length = f.dataLength) (hmax : r.length ≤ r.maxReceivedFrameSize)
    (hkey : f.mask = true → List.ofFn r.maskBytes = key) :
    ∃ f', Outcome r (f.masked key (close ++ f.binaryPayload) ++ rest) true f' rest ∧
      Received f f' := by
  have hstate := hreading.parseState
  have hneed : r.need = (f.masked key (close ++ f.binaryPayload)).length := by
    simp only [need, hstate, if_neg (Nat.not_lt_of_le hmax)]
    rw [length_masked, length_close hclose, hlen]
  -- the payload is what was masked
  have hpayload : (if r.mask then xor (List.ofFn r.maskBytes) (f.masked key (close ++
      f.binaryPayload)) 0 else f.masked key (close ++ f.binaryPayload))
      = close ++ f.binaryPayload := by
    rw [hreading.mask, masked]
    split_ifs with hmask
    · rw [hkey hmask, xor_xor]
    · rfl
  refine ⟨r.readPayload (f.masked key (close ++ f.binaryPayload)), .done ?_, ?_⟩
  · rw [phase_eq_some_iff, hneed, List.take_left' rfl, List.drop_left' rfl, List.length_append]
    refine ⟨⟨by rw [hstate]; decide, by omega⟩, ?_, rfl⟩
    simp only [consume, hstate, if_neg (Nat.not_lt_of_le hmax)]
  · simp only [readPayload, hpayload]
    have hdata := length_close hclose
    by_cases hopcode : f.opcode = 0x08
    · rw [statusBytes, if_pos hopcode] at hclose
      rcases ruint16_wuint16 hclose with ⟨htwo, hvalue⟩
      have hge : 2 ≤ f.dataLength := by
        rw [dataLength, if_pos hopcode]
        omega
      rw [if_pos (hreading.opcode.trans hopcode), if_neg (by omega), if_pos (by omega)]
      refine ⟨⟨hreading.fin, hreading.rsv1, hreading.rsv2, hreading.rsv3, hreading.mask,
        hreading.opcode, hreading.protocolError, hreading.frameTooLarge⟩, rfl,
        hreading.invalidCloseFrameLength, hlen, List.drop_left' htwo, ?_⟩
      rw [if_pos hopcode, ← hvalue]
      simp only [ruint16]
      rw [List.getD_eq_getElem?_getD, List.getElem?_append_left (by omega),
        List.getD_eq_getElem?_getD, List.getElem?_append_left (by omega),
        List.getD_eq_getElem?_getD, List.getD_eq_getElem?_getD]
    · rw [statusBytes, if_neg hopcode] at hclose
      obtain rfl := Option.some.inj hclose
      rw [if_neg (by rw [hreading.opcode]; exact hopcode)]
      refine ⟨⟨hreading.fin, hreading.rsv1, hreading.rsv2, hreading.rsv3, hreading.mask,
        hreading.opcode, hreading.protocolError, hreading.frameTooLarge⟩, rfl,
        hreading.invalidCloseFrameLength, hlen, rfl, ?_⟩
      rw [if_neg hopcode]
      exact hreading.closeStatus

/-- A step takes exactly the bytes it needs. -/
lemma outcome_more {front x : List UInt8} {f₁ f' : Frame} {result : Bool}
    (hstate : r.parseState ≠ .COMPLETE) (hneed : r.need = front.length)
    (hconsume : r.consume front = (false, f₁)) (hrest : Outcome f₁ x result f' rest) :
    Outcome r (front ++ x) result f' rest := by
  refine .more ?_ hrest
  rw [phase_eq_some_iff, hneed, List.take_left' rfl, List.drop_left' rfl, List.length_append]
  exact ⟨⟨hstate, by omega⟩, hconsume, rfl⟩

/-- A whole buffer is overwritten. -/
lemma ofFn_splice {n : ℕ} (target : Buffer n) (h : key.length = n) :
    List.ofFn (splice key target 0 0 n) = key := by
  apply List.ext_getElem
  · rw [List.length_ofFn, h]
  · intro i hi _
    rw [List.length_ofFn] at hi
    rw [List.getElem_ofFn, splice, if_pos (by constructor <;> simp only <;> omega), Nat.zero_add,
      Nat.sub_zero, List.getD_eq_getElem?_getD, List.getElem?_eq_getElem (by omega),
      Option.getD_some]

/-- The mask key comes before the payload. -/
lemma outcome_maskKey (hreading : Reading f r .WAITING_FOR_MASK_KEY)
    (hclose : f.statusBytes = some close)
    (hlen : r.length = f.dataLength) (hmax : r.length ≤ r.maxReceivedFrameSize)
    (hkey : key.length = if f.mask then 4 else 0) :
    ∃ f', Outcome r (key ++ (f.masked key (close ++ f.binaryPayload) ++ rest)) true f' rest ∧
      Received f f' := by
  have hstate := hreading.parseState
  have hneed : r.need = key.length := by
    simp only [need, hstate, hkey, hreading.mask]
  let r₁ : Frame := { r with
    maskBytes := if r.mask then splice key r.maskBytes 0 0 4 else r.maskBytes
    parseState := .WAITING_FOR_PAYLOAD }
  have hreading₁ : Reading f r₁ .WAITING_FOR_PAYLOAD := ⟨⟨hreading.fin, hreading.rsv1,
    hreading.rsv2, hreading.rsv3, hreading.mask, hreading.opcode, hreading.protocolError,
    hreading.frameTooLarge⟩, rfl, hreading.invalidCloseFrameLength, hreading.closeStatus⟩
  have hkey₁ : f.mask = true → List.ofFn r₁.maskBytes = key := by
    intro hmask
    rw [if_pos hmask] at hkey
    show List.ofFn (if r.mask then splice key r.maskBytes 0 0 4 else r.maskBytes) = key
    rw [if_pos (hreading.mask.trans hmask), ofFn_splice _ hkey]
  rcases outcome_payload hreading₁ hclose hlen hmax hkey₁ with ⟨f', hout, hreceived⟩
  refine ⟨f', outcome_more (by rw [hstate]; decide) hneed ?_ hout, hreceived⟩
  simp only [consume, hstate, r₁]

/-- How the length of a payload is written. -/
def lengthState (n : ℕ) : ParseState :=
  if n ≤ 125 then .WAITING_FOR_MASK_KEY
  else if n ≤ 0xFFFF then .WAITING_FOR_16_BIT_LENGTH else .WAITING_FOR_64_BIT_LENGTH

/-- The longer forms of the length come before the mask key. -/
lemma outcome_length {extended : List UInt8} (hreading : Reading f r (lengthState f.dataLength))
    (hclose : f.statusBytes = some close)
    (hextended : lengthBytes f.dataLength = some extended)
    (hlen : f.dataLength ≤ 125 → r.length = f.dataLength)
    (hmax : f.dataLength ≤ r.maxReceivedFrameSize)
    (hkey : key.length = if f.mask then 4 else 0) :
    ∃ f', Outcome r (extended ++ (key ++ (f.masked key (close ++ f.binaryPayload) ++ rest))) true
      f' rest ∧ Received f f' := by
  have hstate := hreading.parseState
  rw [lengthState] at hstate
  rw [lengthBytes] at hextended
  split_ifs at hextended hstate with hshort hmiddle
  · obtain rfl := Option.some.inj hextended
    have hreading₁ : Reading f r .WAITING_FOR_MASK_KEY := { hreading with parseState := hstate }
    have hlen₁ := hlen hshort
    exact outcome_maskKey hreading₁ hclose hlen₁ (by omega) hkey
  · rcases ruint16_wuint16 hextended with ⟨htwo, hvalue⟩
    let r₁ : Frame := { r with frameHeader := splice extended r.frameHeader 2 0 2 }.readLength16
    have hlen₁ : r₁.length = f.dataLength := by
      show ruint16 (List.ofFn (splice extended r.frameHeader 2 0 2)) 2 = _
      rw [ruint16_splice]
      omega
    have hreading₁ : Reading f r₁ .WAITING_FOR_MASK_KEY := ⟨⟨hreading.fin, hreading.rsv1,
      hreading.rsv2, hreading.rsv3, hreading.mask, hreading.opcode, hreading.protocolError,
      hreading.frameTooLarge⟩, rfl, hreading.invalidCloseFrameLength, hreading.closeStatus⟩
    have hmax₁ : r₁.length ≤ r₁.maxReceivedFrameSize := hlen₁ ▸ hmax
    rcases outcome_maskKey hreading₁ hclose hlen₁ hmax₁ hkey with ⟨f', hout, hreceived⟩
    refine ⟨f', outcome_more (by rw [hstate]; decide) ?_ ?_ hout, hreceived⟩
    · simp only [need, hstate, htwo]
    · simp only [consume, hstate, r₁]
  · rcases ruint64_wuint64 hextended with ⟨height, hhigh, hvalue⟩
    let r₁ : Frame := { r with
      frameHeader := splice extended r.frameHeader 2 0 8
      length := (ruint64 extended 0).2
      parseState := .WAITING_FOR_MASK_KEY }
    have hlen₁ : r₁.length = f.dataLength := by
      show (ruint64 extended 0).2 = _
      omega
    have hreading₁ : Reading f r₁ .WAITING_FOR_MASK_KEY := ⟨⟨hreading.fin, hreading.rsv1,
      hreading.rsv2, hreading.rsv3, hreading.mask, hreading.opcode, hreading.protocolError,
      hreading.frameTooLarge⟩, rfl, hreading.invalidCloseFrameLength, hreading.closeStatus⟩
    have hmax₁ : r₁.length ≤ r₁.maxReceivedFrameSize := hlen₁ ▸ hmax
    rcases outcome_maskKey hreading₁ hclose hlen₁ hmax₁ hkey with ⟨f', hout, hreceived⟩
    refine ⟨f', outcome_more (by rw [hstate]; decide) ?_ ?_ hout, hreceived⟩
    · simp only [need, hstate, height]
    · have hlow : ¬ (ruint64 extended 0).1 ≠ 0 := not_not_intro hhigh
      simp only [consume, hstate, readLength64, ruint64_splice, if_neg hlow, r₁]

/-- What the second byte says about the length. -/
lemma secondByte_length (n : ℕ) : decide (f.secondByte n &&& 0x80 ≠ 0) = f.mask ∧
    (f.secondByte n &&& 0x7F).toNat = if n ≤ 125 then n else if n ≤ 0xFFFF then 126 else 127 := by
  rw [secondByte]
  by_cases hshort : n ≤ 125
  · have hlow : n &&& 0x7F = n := by
      rw [show n &&& 0x7F = n % 2 ^ 7 from Nat.and_two_pow_sub_one_eq_mod n 7]
      omega
    rw [if_pos hshort, if_pos hshort, hlow]
    exact secondByte_bits f.mask ⟨n, by omega⟩
  · rw [if_neg hshort, if_neg hshort]
    by_cases hmiddle : n ≤ 0xFFFF
    · rw [if_pos hmiddle, if_pos hmiddle]
      exact secondByte_bits f.mask 126
    · rw [if_neg hmiddle, if_neg hmiddle]
      exact secondByte_bits f.mask 127

/-- The two bytes of a header are accepted. -/
lemma readHeader_written {max : ℕ} (hsendable : Sendable max f)
    (hfirst : r.frameHeader 0 = f.firstByte) (hsecond : r.frameHeader 1 = f.secondByte f.dataLength)
    (hok : r.protocolError = false ∧ r.frameTooLarge = false ∧ r.invalidCloseFrameLength = false ∧
      r.closeStatus = -1) :
    ∃ r₁, r.readHeader = (false, r₁) ∧ Reading f r₁ (lengthState f.dataLength) ∧
      (f.dataLength ≤ 125 → r₁.length = f.dataLength) ∧
      r₁.maxReceivedFrameSize = r.maxReceivedFrameSize := by
  rcases hok with ⟨hprotocol, hlarge, hclose, hstatus⟩
  obtain ⟨hfin, hrsv1, hrsv2, hrsv3, hopcode⟩ :=
    firstByte_bits f.fin f.rsv1 f.rsv2 f.rsv3 ⟨f.opcode, hsendable.opcode⟩
  change decide (f.firstByte &&& 0x80 ≠ 0) = _ at hfin
  change decide (f.firstByte &&& 0x40 ≠ 0) = _ at hrsv1
  change decide (f.firstByte &&& 0x20 ≠ 0) = _ at hrsv2
  change decide (f.firstByte &&& 0x10 ≠ 0) = _ at hrsv3
  change (f.firstByte &&& 0x0F).toNat = f.opcode at hopcode
  rcases secondByte_length (f := f) f.dataLength with ⟨hmask, hlen⟩
  have hcode : (f.secondByte f.dataLength &&& 0x7F).toNat > 125 ↔ ¬ f.dataLength ≤ 125 := by
    rw [hlen]
    split_ifs <;> omega
  have hlong : ¬ (f.opcode ≥ 0x08 ∧ (f.secondByte f.dataLength &&& 0x7F).toNat > 125) := by
    intro ⟨hcontrol, hgt⟩
    exact hcode.mp hgt (hsendable.control hcontrol).2
  have hwhole : ¬ (f.opcode ≥ 0x08 ∧ ¬ f.fin = true) := by
    intro ⟨hcontrol, hpart⟩
    exact hpart (hsendable.control hcontrol).1
  have hmode : (if (f.secondByte f.dataLength &&& 0x7F).toNat = 126 then
        ParseState.WAITING_FOR_16_BIT_LENGTH
      else if (f.secondByte f.dataLength &&& 0x7F).toNat = 127 then .WAITING_FOR_64_BIT_LENGTH
      else .WAITING_FOR_MASK_KEY) = lengthState f.dataLength := by
    rw [hlen, lengthState]
    by_cases hshort : f.dataLength ≤ 125
    · rw [if_pos hshort, if_pos hshort, if_neg (by omega), if_neg (by omega)]
    · rw [if_neg hshort, if_neg hshort]
      split_ifs <;> first | rfl | omega
  refine ⟨{ r with
    fin := f.fin
    rsv1 := f.rsv1
    rsv2 := f.rsv2
    rsv3 := f.rsv3
    mask := f.mask
    opcode := f.opcode
    length := (f.secondByte f.dataLength &&& 0x7F).toNat
    parseState := lengthState f.dataLength }, ?_, ?_, ?_, rfl⟩
  · simp only [readHeader, hfirst, hsecond, hfin, hrsv1, hrsv2, hrsv3, hopcode, hmask, if_neg hlong,
      if_neg hwhole, ← hmode]
    split_ifs <;> rfl
  · exact ⟨⟨rfl, rfl, rfl, rfl, rfl, rfl, hprotocol, hlarge⟩, rfl, hclose, hstatus⟩
  · intro hshort
    exact hlen.trans (if_pos hshort)

/-- What `payloadBytes` writes: a key and the masked data. -/
lemma payloadBytes_eq {data body : List UInt8}
    (hbody : f.payloadBytes memory maskKey data = some body) :
    ∃ key : List UInt8, (key.length = if f.mask then 4 else 0) ∧ body = key ++ f.masked key data := by
  rw [payloadBytes] at hbody
  split_ifs at hbody with hdata hmask hmask
  · simp only [Option.bind_eq_bind, Option.bind_eq_some_iff] at hbody
    rcases hbody with ⟨key, hkey, hbytes⟩
    refine ⟨key, ?_, ?_⟩
    · rw [if_pos hmask]
      exact (ruint32_wuint32 hkey).1
    · rw [masked, if_pos hmask]
      exact (Option.some.inj hbytes).symm
  · refine ⟨[], ?_, ?_⟩
    · rw [if_neg hmask]
      rfl
    · rw [masked, if_neg hmask]
      exact (Option.some.inj hbody).symm
  · -- nothing to mask, behind four bytes that mean nothing
    obtain rfl : data = [] := List.eq_nil_of_length_eq_zero (by omega)
    refine ⟨(List.range 4).map fun i => memory (2 + i), ?_, ?_⟩
    · rw [if_pos hmask]
      rfl
    · rw [masked, if_pos hmask, xor, List.append_nil]
      exact (Option.some.inj hbody).symm
  · obtain rfl : data = [] := List.eq_nil_of_length_eq_zero (by omega)
    refine ⟨[], ?_, ?_⟩
    · rw [if_neg hmask]
      rfl
    · rw [masked, if_neg hmask]
      exact (Option.some.inj hbody).symm

/-- The bytes of a frame are what its receiver needs, and the frame is what it gets. -/
theorem outcome_toBuffer (maskBytes : Buffer 4) (frameHeader : Buffer 10) {max : ℕ}
    (hwritten : f.toBuffer memory maskKey = some bytes) (hsendable : Sendable max f)
    (rest : List UInt8) :
    ∃ f', Outcome (new maskBytes frameHeader max) (bytes ++ rest) true f' rest ∧
      Received f f' := by
  simp only [toBuffer, Option.bind_eq_bind, Option.bind_eq_some_iff] at hwritten
  rcases hwritten with ⟨close, hclose, extended, hextended, body, hbody, hbytes⟩
  rw [length_close hclose] at hextended hbytes
  rcases payloadBytes_eq hbody with ⟨key, hkey, rfl⟩
  obtain rfl := Option.some.inj hbytes
  let r : Frame := { new maskBytes frameHeader max with
    frameHeader := splice [f.firstByte, f.secondByte f.dataLength] frameHeader 0 0 2 }
  obtain ⟨r₁, hread, hreading, hlen, hmax⟩ :=
    readHeader_written (r := r) hsendable rfl rfl ⟨rfl, rfl, rfl, rfl⟩
  have hsize : f.dataLength ≤ r₁.maxReceivedFrameSize := by
    rw [hmax]
    exact hsendable.size
  rcases outcome_length hreading hclose hextended hlen hsize hkey with ⟨f', hout, hreceived⟩
  refine ⟨f', ?_, hreceived⟩
  have hsplit : f.firstByte :: f.secondByte f.dataLength ::
        (extended ++ (key ++ f.masked key (close ++ f.binaryPayload))) ++ rest
      = [f.firstByte, f.secondByte f.dataLength] ++
        (extended ++ (key ++ (f.masked key (close ++ f.binaryPayload) ++ rest))) := by
    simp only [List.cons_append, List.nil_append, List.append_assoc]
  rw [hsplit]
  exact outcome_more ParseState.noConfusion rfl hread hout

end

/-! ## A frame in pieces -/

/-- More bytes continue what fewer have come to. -/
lemma Outcome.split {x y x₁ : List UInt8} {f f₁ f' : Frame} {done done' : Bool}
    (hfront : Outcome f x done f₁ x₁) (hall : Outcome f (x ++ y) done' f' rest) :
    if done then done' = true ∧ f' = f₁ ∧ rest = x₁ ++ y
    else Outcome f₁ (x₁ ++ y) done' f' rest := by
  induction hfront with
  | wait hphase => exact hall
  | done hphase =>
    have hmore := phase_append hphase y
    cases hall with
    | wait hnone => rw [hmore] at hnone; cases hnone
    | done hsome => rw [hmore] at hsome; cases hsome; exact ⟨rfl, rfl, rfl⟩
    | more hsome _ => rw [hmore] at hsome; cases hsome
  | more hphase _ ih =>
    have hmore := phase_append hphase y
    cases hall with
    | wait hnone => rw [hmore] at hnone; cases hnone
    | done hsome => rw [hmore] at hsome; cases hsome
    | more hsome hrest => rw [hmore] at hsome; cases hsome; exact ih hrest

/-- A frame that waits has not enough bytes. -/
lemma Outcome.phase_eq_none {x x₁ : List UInt8} {f f₁ : Frame} (h : Outcome f x false f₁ x₁) :
    phase f₁ x₁ = none := by
  generalize hdone : false = done at h
  induction h with
  | wait hphase => exact hphase
  | done hphase => cases hdone
  | more _ _ ih => exact ih hdone

/-- The pieces of a frame arrive one after the other: what each call of `addData` returns, and
the frame and the list at the end. -/
def addPieces (memory : ℕ → UInt8) :
    Frame → BufferList → List (List UInt8) → Option (List Bool × Frame × BufferList)
  | f, l, [] => some ([], f, l)
  | f, l, piece :: pieces => do
    let (done, f, l) ← addData memory f (l.write piece)
    let (results, f, l) ← addPieces memory f l pieces
    return (done :: results, f, l)

variable (memory) in
/-- The last piece completes the frame, and no other. -/
lemma addPieces_eq {l : BufferList} (hwf : l.Wf) {piece : List UInt8} {pieces : List (List UInt8)}
    (hne : ∀ p ∈ piece :: pieces, p ≠ []) {f' : Frame}
    (hout : Outcome r (l.contents ++ (piece :: pieces).flatten) true f' []) :
    ∃ l', addPieces memory r l (piece :: pieces)
      = some (List.replicate pieces.length false ++ [true], f', l') ∧ l'.Wf ∧ l'.contents = [] := by
  induction pieces generalizing r l piece with
  | nil =>
    have hwf₁ := BufferList.wf_write hwf (hne piece List.mem_cons_self)
    obtain ⟨done, f₁, l₁, hadd, hwf₁, hfront⟩ := addData_returns memory (f := r) hwf₁
    rw [BufferList.contents_write hwf] at hfront
    rw [List.flatten_singleton, ← List.append_nil (l.contents ++ piece)] at hout
    have hsplit := Outcome.split hfront hout
    rw [List.append_nil] at hsplit
    cases done with
    | false =>
      -- a frame that waits does not get complete by itself
      have hnone := hfront.phase_eq_none
      change Outcome f₁ l₁.contents true f' [] at hsplit
      cases hsplit with
      | done hsome => rw [hnone] at hsome; cases hsome
      | more hsome _ => rw [hnone] at hsome; cases hsome
    | true =>
      rcases hsplit with ⟨-, rfl, hrest⟩
      refine ⟨l₁, ?_, hwf₁, hrest.symm⟩
      simp only [addPieces, hadd, Option.bind_eq_bind, Option.bind_some, List.length_nil,
        List.replicate_zero, List.nil_append]
      rfl
  | cons piece' pieces ih =>
    have hwf₁ := BufferList.wf_write hwf (hne piece List.mem_cons_self)
    obtain ⟨done, f₁, l₁, hadd, hwf₁, hfront⟩ := addData_returns memory (f := r) hwf₁
    rw [BufferList.contents_write hwf] at hfront
    rw [List.flatten_cons, ← List.append_assoc] at hout
    have hsplit := Outcome.split hfront hout
    cases done with
    | true =>
      -- nothing would be left for the other pieces
      rcases hsplit with ⟨-, -, hrest⟩
      have hnil : piece' ++ pieces.flatten = [] := by
        have := List.append_eq_nil_iff.mp hrest.symm
        rw [List.flatten_cons] at this
        exact this.2
      exact absurd (List.append_eq_nil_iff.mp hnil).1
        (hne piece' (List.mem_cons_of_mem _ List.mem_cons_self))
    | false =>
      obtain ⟨l', hadds, hwf', hrest⟩ :=
        ih hwf₁ (fun p hp => hne p (List.mem_cons_of_mem _ hp)) hsplit
      refine ⟨l', ?_, hwf', hrest⟩
      rw [addPieces, hadd]
      simp only [Option.bind_eq_bind, Option.bind_some, hadds]
      rfl

/-- **A frame arrives as it was sent.** Whatever its fields, its mask key and the pieces in
which its bytes arrive: the last piece completes it and no other does, nothing is left, and
the receiver has the frame of the sender. -/
theorem addPieces_toBuffer (memory : ℕ → UInt8) (maskKey : ℕ) (maskBytes : Buffer 4)
    (frameHeader : Buffer 10) {max : ℕ} (hwritten : f.toBuffer memory maskKey = some bytes)
    (hsendable : Sendable max f)
    {piece : List UInt8} {pieces : List (List UInt8)} (hne : ∀ p ∈ piece :: pieces, p ≠ [])
    (hbytes : (piece :: pieces).flatten = bytes) :
    ∃ f' l', addPieces memory (new maskBytes frameHeader max) BufferList.empty (piece :: pieces)
      = some (List.replicate pieces.length false ++ [true], f', l') ∧ l'.contents = [] ∧
        Received f f' := by
  obtain ⟨f', hout, hreceived⟩ := outcome_toBuffer maskBytes frameHeader hwritten hsendable []
  rw [List.append_nil, ← hbytes] at hout
  obtain ⟨l', hadds, -, hrest⟩ := addPieces_eq memory BufferList.wf_empty hne hout
  exact ⟨f', l', hadds, hrest, hreceived⟩

/-- A masked text frame. -/
def hi : Frame :=
  { new (fun _ => 0) (fun _ => 0) 0x10000 with
    fin := true
    mask := true
    opcode := 0x01
    binaryPayload := [72, 105] }

/-- It arrives in four pieces. -/
theorem hi_in_pieces : ∃ f' l', addPieces (fun _ => 0) (new (fun _ => 0) (fun _ => 0) 0x10000)
    BufferList.empty [[0x81], [0x82, 1, 2], [3, 4, 73], [107]]
      = some ([false, false, false, true], f', l') ∧ l'.contents = [] ∧ Received hi f' :=
  addPieces_toBuffer (fun _ => 0) 0x01020304 (fun _ => 0) (fun _ => 0)
    (show hi.toBuffer (fun _ => 0) 0x01020304 = some [0x81, 0x82, 1, 2, 3, 4, 73, 107] by decide)
    ⟨by decide, by decide, by decide⟩ (by decide) rfl

end Frame

end Syndilights.Displayclient.WebSocket
