import Mathlib.Tactic

/-!
# UTF-8 with replacement characters

A decoder that never fails: where no encoded character starts, it emits U+FFFD for one
byte and as many of the following ones as its policy says. Strings are lists of code
points, and `units` are their UTF-16 code units.

* `decode_encode` — decoding undoes encoding, under every policy;
* `units_decode_eq_iff` — the code units are the bytes themselves exactly for ASCII.
-/

namespace Utf8

/-! ## Encoding and decoding -/

/-- The UTF-8 bytes of a string. -/
def encode (s : List Char) : List UInt8 := s.flatMap String.utf8EncodeChar

/-- The character that is encoded at the start of the bytes. -/
def decodeChar? (bytes : List UInt8) : Option Char := bytes.toByteArray.utf8DecodeChar? 0

/-- How many bytes after the first one a replacement character stands for. -/
abbrev Policy := List UInt8 → ℕ

/-- The string that the bytes decode to. -/
def decode (skip : Policy) : List UInt8 → List Char
  | [] => []
  | b :: bytes =>
    match decodeChar? (b :: bytes) with
    | some c => c :: decode skip (bytes.drop (c.utf8Size - 1))
    | none => '\uFFFD' :: decode skip (bytes.drop (skip (b :: bytes)))
termination_by bytes => bytes.length
decreasing_by all_goals simp only [List.length_drop, List.length_cons]; omega

/-- How many continuation bytes a first byte announces. -/
def tails (b : UInt8) : ℕ :=
  if 0xC2 ≤ b ∧ b ≤ 0xDF then 1 else if 0xE0 ≤ b ∧ b ≤ 0xEF then 2
  else if 0xF0 ≤ b ∧ b ≤ 0xF4 then 3 else 0

/-- The byte may follow this first byte. -/
def follows (b b' : UInt8) : Bool :=
  (if b = 0xE0 then 0xA0 else if b = 0xF0 then 0x90 else 0x80) ≤ b' ∧
    b' ≤ (if b = 0xED then 0x9F else if b = 0xF4 then 0x8F else 0xBF)

/-- The policy of the Unicode standard: one replacement character for each maximal
subpart of a character. -/
def maximalSubpart : Policy
  | b :: b' :: b'' :: _ =>
    if 2 ≤ tails b ∧ follows b b' then
      if tails b = 3 ∧ 0x80 ≤ b'' ∧ b'' ≤ 0xBF then 2 else 1
    else 0
  | [b, b'] => if 2 ≤ tails b ∧ follows b b' then 1 else 0
  | _ => 0

/-- The UTF-16 code units of a character. -/
def charUnits (c : Char) : List UInt16 :=
  if c.toNat < 0x10000 then [c.toNat.toUInt16]
  else [(0xD800 + (c.toNat - 0x10000) / 0x400).toUInt16,
    (0xDC00 + (c.toNat - 0x10000) % 0x400).toUInt16]

/-- The UTF-16 code units of a string. -/
def units (s : List Char) : List UInt16 := s.flatMap charUnits

/-! ## One character -/

/-- A character is found at the start of its encoding. -/
lemma decodeChar?_encode (c : Char) (bytes : List UInt8) :
    decodeChar? (String.utf8EncodeChar c ++ bytes) = some c := by
  rw [decodeChar?, List.toByteArray_append]
  exact ByteArray.utf8DecodeChar?_utf8EncodeChar_append

/-- Bytes at whose start a character is found start with its encoding. -/
lemma eq_encode_of_decodeChar? {bytes : List UInt8} {c : Char} (h : decodeChar? bytes = some c) :
    bytes = String.utf8EncodeChar c ++ bytes.drop c.utf8Size := by
  rcases ByteArray.exists_of_utf8DecodeChar?_eq_some h with ⟨rest, hrest⟩
  have hlist := congrArg (fun b : ByteArray => b.data.toList) hrest
  simp only [List.toList_data_toByteArray, ByteArray.data_append, Array.toList_append] at hlist
  rw [hlist, List.drop_left' (String.length_utf8EncodeChar c)]

/-- An ASCII byte is the encoding of its character. -/
lemma encode_ascii {b : UInt8} (h : b < 128) :
    String.utf8EncodeChar (Char.ofNat b.toNat) = [b] := by
  have hall : ∀ x : Fin 128, String.utf8EncodeChar (Char.ofNat x.val) = [x.val.toUInt8] := by
    decide
  have hlt : b.toNat < 128 := UInt8.lt_iff_toNat_lt.mp h
  have hb := hall ⟨b.toNat, hlt⟩
  rwa [Nat.toUInt8_eq, UInt8.ofNat_toNat] at hb

/-- A character that is encoded in one byte is ASCII. -/
lemma encode_eq_singleton {c : Char} (h : c.utf8Size = 1) :
    ∃ b : UInt8, b < 128 ∧ String.utf8EncodeChar c = [b] ∧ charUnits c = [b.toUInt16] := by
  have hval : c.toNat ≤ 127 := Char.utf8Size_eq_one_iff.mp h
  refine ⟨c.val.toUInt8, ?_, String.utf8EncodeChar_eq_singleton h, ?_⟩
  · rw [UInt8.lt_iff_toNat_lt, UInt32.toNat_toUInt8]
    show c.toNat % 256 < 128
    omega
  · rw [charUnits, if_pos (by omega)]
    congr 1
    apply UInt16.toNat_inj.mp
    rw [UInt8.toNat_toUInt16, UInt32.toNat_toUInt8, Nat.toUInt16_eq, UInt16.toNat_ofNat']
    show c.toNat % 65536 = c.toNat % 256
    omega

/-- A character of several bytes has fewer code units than bytes. -/
lemma length_charUnits_lt {c : Char} (h : c.utf8Size ≠ 1) :
    (charUnits c).length < c.utf8Size := by
  have hle : (charUnits c).length ≤ 2 := by
    unfold charUnits
    split_ifs <;> simp
  have hpos := c.utf8Size_pos
  by_cases hbmp : c.toNat < 0x10000
  · rw [charUnits, if_pos hbmp, List.length_singleton]
    omega
  · have hfour : c.utf8Size = 4 := Char.utf8Size_eq_four_iff.mpr (not_le.mp fun h => hbmp (by
      have : c.toNat ≤ 0xffff := h
      omega))
    omega

/-! ## Strings -/

section
variable (skip : Policy)

/-- Decoding takes an encoded character off the front. -/
lemma decode_char (c : Char) (bytes : List UInt8) :
    decode skip (String.utf8EncodeChar c ++ bytes) = c :: decode skip bytes := by
  have hlen := String.length_utf8EncodeChar c
  have hpos := c.utf8Size_pos
  have hfirst := decodeChar?_encode c bytes
  cases hc : String.utf8EncodeChar c with
  | nil =>
    rw [hc, List.length_nil] at hlen
    omega
  | cons b more =>
    rw [hc, List.length_cons] at hlen
    rw [hc, List.cons_append] at hfirst
    rw [List.cons_append, decode, hfirst]
    show c :: decode skip (List.drop (c.utf8Size - 1) _) = _
    rw [← hlen, Nat.add_sub_cancel, List.drop_left]

/-- Where no character starts, decoding emits a replacement character. -/
lemma decode_bad {b : UInt8} {bytes : List UInt8} (h : decodeChar? (b :: bytes) = none) :
    decode skip (b :: bytes) = '\uFFFD' :: decode skip (bytes.drop (skip (b :: bytes))) := by
  rw [decode, h]

/-- The induction of the decoder: over the characters and the bytes that start none. -/
theorem decode_induction {P : List UInt8 → Prop} (nil : P [])
    (char : ∀ c bytes, P bytes → P (String.utf8EncodeChar c ++ bytes))
    (bad : ∀ b bytes, decodeChar? (b :: bytes) = none →
      P (bytes.drop (skip (b :: bytes))) → P (b :: bytes)) (bytes : List UInt8) : P bytes := by
  induction bytes using decode.induct skip with
  | case1 => exact nil
  | case2 b bytes c h ih =>
    rcases Nat.exists_eq_succ_of_ne_zero c.utf8Size_pos.ne' with ⟨n, hn⟩
    rw [hn, Nat.succ_sub_one] at ih
    rw [eq_encode_of_decodeChar? h, hn, List.drop_succ_cons]
    exact char c _ ih
  | case3 b bytes h ih => exact bad b bytes h ih

/-- Decoding undoes encoding, under every policy. -/
theorem decode_encode (s : List Char) : decode skip (encode s) = s := by
  induction s with
  | nil => rw [encode, List.flatMap_nil, decode]
  | cons c s ih => rw [encode, List.flatMap_cons, decode_char, ← encode, ih]

/-- The code units of a decoded character come before those of the rest. -/
lemma units_decode_char (c : Char) (bytes : List UInt8) :
    units (decode skip (String.utf8EncodeChar c ++ bytes))
      = charUnits c ++ units (decode skip bytes) := by
  rw [decode_char, units, List.flatMap_cons, ← units]

/-- A replacement character is one code unit. -/
lemma units_decode_bad {b : UInt8} {bytes : List UInt8} (h : decodeChar? (b :: bytes) = none) :
    units (decode skip (b :: bytes))
      = 0xFFFD :: units (decode skip (bytes.drop (skip (b :: bytes)))) := by
  rw [decode_bad skip h, units, List.flatMap_cons, ← units]
  rfl

/-- ASCII bytes decode to their own code units. -/
lemma units_decode_ascii {bytes : List UInt8} (h : ∀ b ∈ bytes, b < 128) :
    units (decode skip bytes) = bytes.map UInt8.toUInt16 := by
  induction bytes with
  | nil => rw [decode]; rfl
  | cons b bytes ih =>
    have hb := encode_ascii (h b List.mem_cons_self)
    have hsize : (Char.ofNat b.toNat).utf8Size = 1 := by
      rw [← String.length_utf8EncodeChar, hb, List.length_singleton]
    rcases encode_eq_singleton hsize with ⟨b', -, hb', hunits⟩
    obtain rfl : b = b' := List.singleton_inj.mp (hb.symm.trans hb')
    have hchar := units_decode_char skip (Char.ofNat b.toNat) bytes
    rw [hb, hunits, List.singleton_append, List.singleton_append] at hchar
    rw [hchar, ih fun b hb => h b (List.mem_cons_of_mem _ hb), List.map_cons]

/-- There are never more code units than bytes. -/
lemma length_units_decode_le (bytes : List UInt8) :
    (units (decode skip bytes)).length ≤ bytes.length := by
  induction bytes using decode_induction skip with
  | nil => rw [decode]; rfl
  | char c bytes ih =>
    rw [units_decode_char, List.length_append, List.length_append, String.length_utf8EncodeChar]
    by_cases hsize : c.utf8Size = 1
    · rcases encode_eq_singleton hsize with ⟨b, -, -, hunits⟩
      rw [hunits, hsize, List.length_singleton]
      omega
    · have hlt := length_charUnits_lt hsize
      omega
  | bad b bytes h ih =>
    have hdrop := List.length_drop (i := skip (b :: bytes)) (l := bytes)
    rw [units_decode_bad skip h, List.length_cons, List.length_cons]
    omega

/-- When no code unit is lost and none is a replacement, every byte is ASCII. -/
lemma ascii_of_units_decode {bytes : List UInt8}
    (hlen : (units (decode skip bytes)).length = bytes.length)
    (hunits : ∀ u ∈ units (decode skip bytes), u < 256) : ∀ b ∈ bytes, b < 128 := by
  induction bytes using decode_induction skip with
  | nil => exact fun b hb => absurd hb List.not_mem_nil
  | char c bytes ih =>
    have hle := length_units_decode_le skip bytes
    rw [units_decode_char, List.length_append, List.length_append,
      String.length_utf8EncodeChar] at hlen
    rw [units_decode_char] at hunits
    -- the character is encoded in one byte, or code units are missing
    have hsize : c.utf8Size = 1 := by
      by_contra hsize
      have hlt := length_charUnits_lt hsize
      omega
    rcases encode_eq_singleton hsize with ⟨b, hb, henc, hchar⟩
    rw [hchar, hsize, List.length_singleton] at hlen
    rw [henc]
    intro b' hb'
    rcases List.mem_append.mp hb' with hb' | hb'
    · rwa [List.mem_singleton.mp hb']
    · exact ih (by omega) (fun u hu => hunits u (List.mem_append_right _ hu)) b' hb'
  | bad b bytes h ih =>
    -- the replacement character is no byte
    rw [units_decode_bad skip h] at hunits
    exact absurd (hunits 0xFFFD List.mem_cons_self) (by decide)

/-- **The bytes survive exactly when they are ASCII.** -/
theorem units_decode_eq_iff (bytes : List UInt8) :
    units (decode skip bytes) = bytes.map UInt8.toUInt16 ↔ ∀ b ∈ bytes, b < 128 := by
  constructor
  · intro heq
    apply ascii_of_units_decode skip
    · rw [heq, List.length_map]
    · intro u hu
      rw [heq, List.mem_map] at hu
      rcases hu with ⟨b, -, rfl⟩
      rw [UInt16.lt_iff_toNat_lt, UInt8.toNat_toUInt16]
      exact b.toNat_lt
  · exact units_decode_ascii skip

end

end Utf8
