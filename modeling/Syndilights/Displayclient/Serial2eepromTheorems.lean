import Syndilights.Displayclient.Serial2eeprom

/-!
# What the EEPROM keeps of a string

The writer checks the address behind the last byte instead of that of the last byte. What it
writes is read back, as far as the buffer goes.
-/

namespace Syndilights.Displayclient.Serial2eeprom

/-! ## Addresses -/

lemma eeprom_is_addr_ok_iff {addr : ℤ} : eeprom_is_addr_ok addr = true ↔ 0 ≤ addr ∧ addr ≤ 511 := by
  unfold eeprom_is_addr_ok EEPROM_MIN_ADDR EEPROM_MAX_ADDR
  exact decide_eq_true_iff

/-- An `int` of 16 bits gives the same answer: the sum that is checked is refused also when it
wraps. -/
lemma eeprom_is_addr_ok_bmod {startAddr numBytes : ℤ} (hstart : eeprom_is_addr_ok startAddr = true)
    (hmin : 0 ≤ numBytes) (hmax : numBytes < 2 ^ 15) :
    eeprom_is_addr_ok ((startAddr + numBytes).bmod (2 ^ 16)) =
      eeprom_is_addr_ok (startAddr + numBytes) := by
  rw [eeprom_is_addr_ok_iff] at hstart
  rw [Bool.eq_iff_iff, eeprom_is_addr_ok_iff, eeprom_is_addr_ok_iff, Int.bmod]
  split_ifs <;> omega

lemma length_bytes (string : CString) : string.bytes.length = string.strlen + 1 := by
  rw [CString.bytes, List.length_append, List.length_singleton, CString.strlen]

/-! ## Writing -/

section
variable (cells : Cells) (addr : ℤ) (string : CString)

/-- Both ends of what the writer checks. -/
def Accepted : Prop := 0 ≤ addr ∧ addr + string.strlen + 1 ≤ 511

instance : Decidable (Accepted addr string) :=
  inferInstanceAs (Decidable (0 ≤ addr ∧ addr + string.strlen + 1 ≤ 511))

lemma eeprom_write_string_eq : eeprom_write_string addr string cells =
    if Accepted addr string then (true, CellBlock.write cells addr string.bytes)
    else (false, cells) := by
  have hguard : (!eeprom_is_addr_ok addr || !eeprom_is_addr_ok (addr + string.bytes.length)) = true
      ↔ ¬Accepted addr string := by
    rw [Bool.or_eq_true, Bool.not_eq_true', Bool.not_eq_true', ← Bool.not_eq_true,
      ← Bool.not_eq_true, eeprom_is_addr_ok_iff, eeprom_is_addr_ok_iff, length_bytes, Accepted]
    push_cast
    omega
  unfold eeprom_write_string eeprom_write_bytes
  dsimp only
  split_ifs with hrefused haccepted haccepted
  · exact absurd haccepted (hguard.mp hrefused)
  · rfl
  · rfl
  · exact absurd (hguard.mpr haccepted) hrefused

/-- Every byte of the string, with its terminator, has an address of the EEPROM. -/
def FitsIn : Prop := ∀ i : ℕ, i < string.bytes.length →
  EEPROM_MIN_ADDR ≤ addr + i ∧ addr + i ≤ EEPROM_MAX_ADDR

/-- The string is written exactly when it fits, and nothing else is. -/
structure WrittenIfFits : Prop where
  returns : (eeprom_write_string addr string cells).1 = true ↔ FitsIn addr string
  written : (eeprom_write_string addr string cells).1 = true →
    CellBlock.Holds (eeprom_write_string addr string cells).2 addr string.bytes ∧
    ∀ a, (a < addr ∨ addr + string.bytes.length ≤ a) →
      (eeprom_write_string addr string cells).2 a = cells a
  refused : (eeprom_write_string addr string cells).1 = false →
    (eeprom_write_string addr string cells).2 = cells

lemma returns_iff : (eeprom_write_string addr string cells).1 = true ↔ Accepted addr string := by
  rw [eeprom_write_string_eq]
  by_cases h : Accepted addr string
  · rw [if_pos h]
    exact iff_of_true rfl h
  · rw [if_neg h]
    exact iff_of_false Bool.false_ne_true h

lemma fitsIn_iff : FitsIn addr string ↔ 0 ≤ addr ∧ addr + string.strlen ≤ 511 := by
  unfold FitsIn EEPROM_MIN_ADDR EEPROM_MAX_ADDR
  rw [length_bytes]
  constructor
  · intro h
    have hfirst := h 0 (Nat.succ_pos _)
    have hlast := h string.strlen (Nat.lt_succ_self _)
    omega
  · intro h i hi
    omega

/-- **When a string is written exactly if it fits.** Unless its terminator would be in the very
last cell. -/
theorem writtenIfFits_iff : WrittenIfFits cells addr string ↔
    ¬(EEPROM_MIN_ADDR ≤ addr ∧ addr + string.strlen = EEPROM_MAX_ADDR) := by
  have hreturns : ((eeprom_write_string addr string cells).1 = true ↔ FitsIn addr string) ↔
      ¬(EEPROM_MIN_ADDR ≤ addr ∧ addr + string.strlen = EEPROM_MAX_ADDR) := by
    rw [returns_iff, fitsIn_iff]
    unfold Accepted EEPROM_MIN_ADDR EEPROM_MAX_ADDR
    omega
  refine ⟨fun h => hreturns.mp h.returns, fun h => ⟨hreturns.mpr h, ?_, ?_⟩⟩
  · intro htrue
    rw [eeprom_write_string_eq, if_pos ((returns_iff cells addr string).mp htrue)]
    exact ⟨CellBlock.holds_write, fun a => CellBlock.write_of_outside⟩
  · intro hfalse
    have hrefused : ¬Accepted addr string := by
      rw [← returns_iff cells addr string, hfalse]
      exact Bool.false_ne_true
    rw [eeprom_write_string_eq, if_neg hrefused]

end

/-- The serial number of the sketch. -/
def sID : CString := ⟨[55, 49, 66, 49, 65, 48], by decide⟩

/-- The serial number in the last seven cells: it fits, and is refused. -/
theorem last_cells_refused :
    FitsIn 505 sID ∧ (eeprom_write_string 505 sID fun _ => 255).1 = false ∧
      ¬WrittenIfFits (fun _ => 255) 505 sID := by
  have hfits : FitsIn 505 sID := (fitsIn_iff 505 sID).mpr (by decide)
  have hfalse : (eeprom_write_string 505 sID fun _ => 255).1 = false := by decide
  refine ⟨hfits, hfalse, fun h => ?_⟩
  rw [h.returns.mpr hfits] at hfalse
  exact absurd hfalse (by decide)

/-! ## Reading -/

section
variable {cells : Cells} {buffer : ℤ → UInt8} {addr : ℤ} {string : CString} {k : ℕ} {ch : UInt8}
  {r : Reading}

/-- The terminator is the last byte of a string and no other. -/
lemma bytes_eq_zero_iff (h : string.bytes[k]? = some ch) : ch = 0 ↔ k = string.strlen := by
  rw [CString.bytes] at h
  constructor
  · rintro rfl
    by_contra hne
    have hlt := (List.getElem?_eq_some_iff.mp h).1
    rw [List.length_append, List.length_singleton] at hlt
    have hk : k < string.chars.length := by
      rw [CString.strlen] at hne
      omega
    rw [List.getElem?_append_left hk] at h
    exact string.not_nul (List.mem_of_getElem? h)
  · rintro rfl
    rw [CString.strlen, List.getElem?_concat_length, Option.some.injEq] at h
    exact h.symm

/-- Nothing but the first `k` cells from the address on was read, and nothing but the first `k`
bytes of the buffer was written. -/
structure Within (buffer : ℤ → UInt8) (addr : ℤ) (k : ℕ) (r : Reading) : Prop where
  unchanged : ∀ i : ℤ, (i < 0 ∨ k ≤ i) → r.buffer i = buffer i
  reads : ∀ a ∈ r.reads, addr ≤ a ∧ a < addr + k
  writes : ∀ i ∈ r.writes, 0 ≤ i ∧ i < k

lemma Within.put (h : Within buffer addr k r) {i : ℕ} (hi : i < k) (c : UInt8) :
    Within buffer addr k (r.put i c) where
  unchanged j hj := by
    have hne : j ≠ i := by omega
    rw [Reading.put]
    dsimp only
    rw [Function.update_of_ne hne]
    exact h.unchanged j hj
  reads := h.reads
  writes j hj := by
    rcases List.mem_append.mp hj with hj | hj
    · exact h.writes j hj
    · rw [List.mem_singleton.mp hj]
      omega

lemma Within.read (h : Within buffer addr k r) {i : ℕ} (hi : i < k) :
    Within buffer addr k { r with reads := r.reads ++ [addr + i] } where
  unchanged := h.unchanged
  reads a ha := by
    rcases List.mem_append.mp ha with ha | ha
    · exact h.reads a ha
    · rw [List.mem_singleton.mp ha]
      omega
  writes := h.writes

lemma Within.mono (h : Within buffer addr k r) {l : ℕ} (hl : k ≤ l) : Within buffer addr l r where
  unchanged i hi := h.unchanged i (by omega)
  reads a ha := by
    have hread := h.reads a ha
    omega
  writes i hi := by
    have hwrite := h.writes i hi
    omega

/-- The first bytes of the string were copied into the buffer. -/
structure Copied (buffer : ℤ → UInt8) (addr : ℤ) (string : CString) (k : ℕ) (r : Reading) : Prop
    extends Within buffer addr k r where
  holds : CellBlock.Holds r.buffer 0 (string.bytes.take k)

lemma copied_zero : Copied buffer addr string 0 ⟨buffer, [], []⟩ where
  unchanged := fun _ _ => rfl
  reads := fun _ h => absurd h List.not_mem_nil
  writes := fun _ h => absurd h List.not_mem_nil
  holds := fun i b hb => absurd hb (by simp)

/-- One byte more. -/
lemma Copied.copy (h : Copied buffer addr string k r) (hch : string.bytes[k]? = some ch)
    (hcell : cells (addr + k) = ch) :
    Copied buffer addr string (k + 1) (r.copy cells addr k) where
  toWithin := ((h.toWithin.mono (Nat.le_succ k)).read (Nat.lt_succ_self k)).put
    (Nat.lt_succ_self k) _
  holds := by
    have hk : k < string.bytes.length := (List.getElem?_eq_some_iff.mp hch).1
    have hconcat := h.holds.concat ch
    rw [List.length_take, Nat.min_eq_left hk.le, zero_add] at hconcat
    rw [List.take_add_one, hch, Reading.copy, Reading.put, hcell]
    exact hconcat

/-- The loop goes on up to the terminator or to the end of the buffer. -/
lemma readLoop_spec (hcells : CellBlock.Holds cells addr string.bytes)
    (hend : addr + string.strlen ≤ EEPROM_MAX_ADDR) (left : ℕ)
    (h : Copied buffer addr string (k + 1) r) (hch : string.bytes[k]? = some ch) :
    ∃ (n : ℕ) (ch' : UInt8) (r' : Reading),
      readLoop cells addr (k + 1 + left : ℕ) ch (k + 1 : ℕ) r = (ch', ((n + 1 : ℕ) : ℤ), r') ∧
      Copied buffer addr string (n + 1) r' ∧ string.bytes[n]? = some ch' ∧ n ≤ k + left ∧
      (ch' = 0 ∨ n = k + left) := by
  induction left generalizing k ch r with
  | zero =>
    refine ⟨k, ch, r, ?_, h, hch, le_rfl, Or.inr rfl⟩
    rw [readLoop, if_neg]
    omega
  | succ left ih =>
    by_cases hzero : ch = 0
    · refine ⟨k, ch, r, ?_, h, hch, Nat.le_add_right _ _, Or.inl hzero⟩
      rw [readLoop, if_neg fun hgo => hgo.1 hzero]
    · -- a character was read, so the terminator is still to come
      have hk : k + 1 < string.bytes.length := by
        have hlt := (List.getElem?_eq_some_iff.mp hch).1
        have hne := mt (bytes_eq_zero_iff hch).mpr hzero
        rw [length_bytes] at hlt ⊢
        omega
      have hnext : string.bytes[k + 1]? = some string.bytes[k + 1] := List.getElem?_eq_getElem hk
      have hcell := hcells (k + 1) _ hnext
      have hgo : ch ≠ 0 ∧ ((k + 1 : ℕ) : ℤ) < (k + 1 + (left + 1) : ℕ) ∧
          addr + (k + 1 : ℕ) ≤ EEPROM_MAX_ADDR := by
        rw [length_bytes] at hk
        exact ⟨hzero, by omega, by omega⟩
      rcases ih (h.copy hnext hcell) hnext with ⟨n, ch', r', hloop, hcopied, hn, hle, hstop⟩
      refine ⟨n, ch', r', ?_, hcopied, hn, by omega, hstop.imp_right fun h => by omega⟩
      have hsize : k + 1 + (left + 1) = k + 1 + 1 + left := by omega
      rw [readLoop, if_pos hgo, hcell, hsize, ← Nat.cast_succ]
      exact hloop

/-- Reading succeeds within the EEPROM and the buffer, and leaves the string there, as far as it
goes with a terminator behind it. -/
structure ReadsBack (buffer : ℤ → UInt8) (string : CString) (bufSize : ℤ)
    (result : Bool × Reading) : Prop where
  returns : result.1 = true
  reads : ∀ a ∈ result.2.reads, EEPROM_MIN_ADDR ≤ a ∧ a ≤ EEPROM_MAX_ADDR
  writes : ∀ i ∈ result.2.writes, 0 ≤ i ∧ i < bufSize
  unchanged : ∀ i, (i < 0 ∨ bufSize ≤ i) → result.2.buffer i = buffer i
  cut : CellBlock.Holds result.2.buffer 0 (string.chars.take (bufSize - 1).toNat ++ [0])

/-- A terminator replaces the character behind the first `n` ones. -/
lemma Copied.terminate {n : ℕ} (h : Copied buffer addr string (n + 1) r) (hn : n ≤ string.strlen) :
    CellBlock.Holds (r.put n 0).buffer 0 (string.chars.take n ++ [0]) := by
  have hfront := h.holds.take n
  have hle : n ≤ string.chars.length := hn
  rw [List.take_take, Nat.min_eq_left (Nat.le_succ n), CString.bytes,
    List.take_append_of_le_length hle] at hfront
  have hconcat := hfront.concat 0
  rwa [List.length_take, Nat.min_eq_left hle, zero_add] at hconcat

lemma Accepted.addr_ok (h : Accepted addr string) : eeprom_is_addr_ok addr = true := by
  rw [eeprom_is_addr_ok_iff]
  unfold Accepted at h
  omega

/-- What was read and written lies within the EEPROM and the buffer. -/
lemma Within.readsBack (h : Within buffer addr k r) (haccepted : Accepted addr string)
    (hend : k ≤ string.strlen + 1) {bufSize : ℤ} (hbuf : k ≤ bufSize)
    (hcut : CellBlock.Holds r.buffer 0 (string.chars.take (bufSize - 1).toNat ++ [0])) :
    ReadsBack buffer string bufSize (true, r) where
  returns := rfl
  reads a ha := by
    have hread := h.reads a ha
    unfold Accepted at haccepted
    unfold EEPROM_MIN_ADDR EEPROM_MAX_ADDR
    omega
  writes i hi := by
    have hwrite := h.writes i hi
    omega
  unchanged i hi := h.unchanged i (by omega)
  cut := hcut

/-- Behind the loop, a terminator replaces the last character if the string goes on. -/
lemma eeprom_read_string_of_loop (haccepted : Accepted addr string) {left n : ℕ} (hleft : 1 ≤ left)
    {first : UInt8} (hcell : cells (addr + 0) = first)
    (hloop : readLoop cells addr (0 + 1 + left : ℕ) first (0 + 1 : ℕ)
      (Reading.copy ⟨buffer, [], []⟩ cells addr 0) = (ch, ((n + 1 : ℕ) : ℤ), r)) :
    eeprom_read_string addr (0 + 1 + left : ℕ) cells buffer =
      if ch ≠ 0 then (true, r.put n 0) else (true, r) := by
  have hloop' : readLoop cells addr ((0 + 1 + left : ℕ) : ℤ) first 1
      (Reading.copy ⟨buffer, [], []⟩ cells addr 0) = (ch, ((n + 1 : ℕ) : ℤ), r) := hloop
  have hlast : ((n + 1 : ℕ) : ℤ) - 1 = n := by
    push_cast
    ring
  have hone : ((n + 1 : ℕ) : ℤ) ≥ 1 := by omega
  unfold eeprom_read_string
  rw [haccepted.addr_ok, if_neg (by decide), if_neg (by omega), if_neg (by omega), hcell]
  dsimp only
  rw [hloop', hlast]
  exact if_congr (and_iff_left hone) rfl rfl

/-- A buffer that has room for more than the terminator. -/
lemma readsBack_loop (hcells : CellBlock.Holds cells addr string.bytes)
    (haccepted : Accepted addr string) {left : ℕ} (hleft : 1 ≤ left) :
    ReadsBack buffer string (0 + 1 + left : ℕ)
      (eeprom_read_string addr (0 + 1 + left : ℕ) cells buffer) := by
  have hpos : 0 < string.bytes.length := by
    rw [length_bytes]
    omega
  have hfirst : string.bytes[0]? = some string.bytes[0] := List.getElem?_eq_getElem hpos
  have hcell : cells (addr + 0) = string.bytes[0] := hcells 0 _ hfirst
  have hcopied : Copied buffer addr string (0 + 1) (Reading.copy ⟨buffer, [], []⟩ cells addr 0) :=
    copied_zero.copy hfirst hcell
  have hend : addr + string.strlen ≤ EEPROM_MAX_ADDR := by
    unfold EEPROM_MAX_ADDR
    unfold Accepted at haccepted
    omega
  -- the loop stops behind the terminator or when the buffer is full
  rcases readLoop_spec hcells hend left hcopied hfirst with
    ⟨n, ch, r, hloop, hcopied', hch, hle, hstop⟩
  have hn : n ≤ string.strlen := by
    have hlt := (List.getElem?_eq_some_iff.mp hch).1
    rw [length_bytes] at hlt
    omega
  rw [eeprom_read_string_of_loop haccepted hleft hcell hloop]
  by_cases hzero : ch = 0
  · -- the whole string was read
    have hwhole := (bytes_eq_zero_iff hch).mp hzero
    rw [if_neg (not_not.mpr hzero)]
    refine hcopied'.toWithin.readsBack haccepted (by omega) (by omega) ?_
    have hholds := hcopied'.holds
    rw [List.take_of_length_le (by rw [length_bytes]; omega)] at hholds
    rwa [List.take_of_length_le (by rw [CString.strlen] at hwhole; omega)]
  · -- the buffer is full
    have hfull : n = 0 + left := hstop.resolve_left hzero
    rw [if_pos hzero]
    refine (hcopied'.toWithin.put (Nat.lt_succ_self n) 0).readsBack haccepted (by omega)
      (by omega) ?_
    have hsize : (((0 + 1 + left : ℕ) : ℤ) - 1).toNat = n := by omega
    rw [hsize]
    exact hcopied'.terminate hn

/-- **A stored string is read back.** Reading stays within the EEPROM and the buffer, and leaves
the string cut to the characters for which there is room. -/
theorem readsBack_written (cells : Cells) (buffer : ℤ → UInt8) (addr : ℤ) (string : CString)
    (bufSize : ℤ) (hwritten : (eeprom_write_string addr string cells).1 = true)
    (hbuf : 1 ≤ bufSize) :
    ReadsBack buffer string bufSize
      (eeprom_read_string addr bufSize (eeprom_write_string addr string cells).2 buffer) := by
  have haccepted := (returns_iff cells addr string).mp hwritten
  rw [eeprom_write_string_eq, if_pos haccepted]
  by_cases hone : bufSize = 1
  · -- there is room for the terminator only
    subst hone
    have hresult : eeprom_read_string addr 1 (CellBlock.write cells addr string.bytes) buffer =
        (true, Reading.put ⟨buffer, [], []⟩ (0 : ℕ) 0) := by
      unfold eeprom_read_string
      rw [haccepted.addr_ok]
      rfl
    have hzero : Copied buffer addr string 0 ⟨buffer, [], []⟩ := copied_zero
    have hempty : Within buffer addr 1 ⟨buffer, [], []⟩ := hzero.toWithin.mono (Nat.zero_le 1)
    rw [hresult]
    refine (hempty.put Nat.zero_lt_one 0).readsBack haccepted (by omega) (by omega) ?_
    have hnothing : CellBlock.Holds buffer 0 [] := fun i b hb => absurd hb (by simp)
    exact hnothing.concat 0
  · obtain ⟨left, rfl⟩ : ∃ left : ℕ, bufSize = (0 + 1 + left : ℕ) :=
      ⟨(bufSize - 1).toNat, by omega⟩
    exact readsBack_loop CellBlock.holds_write haccepted (by omega)

end

/-- An identifier of six characters is written over erased cells, and read into five bytes. -/
theorem readsBack_written_ident :
    ReadsBack (fun _ => 7) ⟨[71, 49, 46, 97, 48, 49], by decide⟩ 5
      (eeprom_read_string 0 5
        (eeprom_write_string 0 ⟨[71, 49, 46, 97, 48, 49], by decide⟩ fun _ => 255).2 fun _ => 7) :=
  readsBack_written (fun _ => 255) (fun _ => 7) 0 ⟨[71, 49, 46, 97, 48, 49], by decide⟩ 5
    (by decide) (by decide)

end Syndilights.Displayclient.Serial2eeprom
