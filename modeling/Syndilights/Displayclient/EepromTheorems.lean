import Syndilights.Displayclient.Serial2eepromTheorems

/-!
# The EEPROM over many calls

Whatever the cells hold, a reader gets a terminated string; blocks keep what was written until
another block overlaps them; and the sketch writes its serial number at the first reset only.
-/

namespace Syndilights.Displayclient.Serial2eeprom

/-! ## Strings in any cells -/

section
variable {cells : Cells} {buffer : ℤ → UInt8} {addr : ℤ} {k : ℕ} {r : Reading}

/-- The first `k + 1` cells were copied, and the first `k` are not zero. -/
structure Scanned (cells : Cells) (buffer : ℤ → UInt8) (addr : ℤ) (k : ℕ) (r : Reading) : Prop
    extends Within buffer addr (k + 1) r where
  copied : ∀ i : ℕ, i ≤ k → r.buffer i = cells (addr + i)
  chars : ∀ i : ℕ, i < k → cells (addr + i) ≠ 0
  inside : addr + k ≤ EEPROM_MAX_ADDR

lemma scanned_zero (h : addr ≤ EEPROM_MAX_ADDR) :
    Scanned cells buffer addr 0 (Reading.copy ⟨buffer, [], []⟩ cells addr 0) where
  toWithin :=
    have hnothing : Within buffer addr 0 ⟨buffer, [], []⟩ := by
      refine ⟨fun _ _ => rfl, fun _ h => ?_, fun _ h => ?_⟩
      · cases h
      · cases h
    ((hnothing.mono (Nat.zero_le 1)).read Nat.zero_lt_one).put Nat.zero_lt_one _
  copied i hi := by
    obtain rfl := Nat.le_zero.mp hi
    show Function.update buffer 0 (cells (addr + 0)) 0 = cells (addr + 0)
    exact Function.update_self ..
  chars i hi := absurd hi (Nat.not_lt_zero i)
  inside := by omega

/-- One cell more. -/
lemma Scanned.copy (h : Scanned cells buffer addr k r) (hchar : cells (addr + k) ≠ 0)
    (hinside : addr + (k + 1 : ℕ) ≤ EEPROM_MAX_ADDR) :
    Scanned cells buffer addr (k + 1) (r.copy cells addr (k + 1 : ℕ)) where
  toWithin := ((h.toWithin.mono (Nat.le_succ (k + 1))).read (Nat.lt_succ_self (k + 1))).put
    (Nat.lt_succ_self (k + 1)) _
  copied i hi := by
    rcases Nat.lt_or_eq_of_le hi with hlt | rfl
    · have hne : (i : ℤ) ≠ (k + 1 : ℕ) := by omega
      rw [Reading.copy, Reading.put]
      dsimp only
      rw [Function.update_of_ne hne]
      exact h.copied i (by omega)
    · exact Function.update_self ..
  chars i hi := by
    rcases Nat.lt_or_eq_of_le (Nat.le_of_lt_succ hi) with hlt | rfl
    · exact h.chars i hlt
    · exact hchar
  inside := hinside

/-- The loop ends at a zero, at the end of the buffer, or at the last cell. -/
lemma readLoop_scans (left : ℕ) (h : Scanned cells buffer addr k r) :
    ∃ (n : ℕ) (r' : Reading),
      readLoop cells addr (k + 1 + left : ℕ) (cells (addr + k)) (k + 1 : ℕ) r =
        (cells (addr + n), ((n + 1 : ℕ) : ℤ), r') ∧
      Scanned cells buffer addr n r' ∧ n ≤ k + left ∧
      (cells (addr + n) = 0 ∨ n = k + left ∨ addr + n = EEPROM_MAX_ADDR) := by
  induction left generalizing k r with
  | zero =>
    refine ⟨k, r, ?_, h, le_rfl, .inr (.inl rfl)⟩
    rw [readLoop, if_neg]
    omega
  | succ left ih =>
    by_cases hzero : cells (addr + k) = 0
    · refine ⟨k, r, ?_, h, by omega, .inl hzero⟩
      rw [readLoop, if_neg fun hgo => hgo.1 hzero]
    by_cases hlast : addr + (k + 1 : ℕ) ≤ EEPROM_MAX_ADDR
    · obtain ⟨n, r', hloop, hscanned, hle, hstop⟩ := ih (h.copy hzero hlast)
      refine ⟨n, r', ?_, hscanned, by omega, ?_⟩
      · have hsize : k + 1 + (left + 1) = k + 1 + 1 + left := by omega
        rw [readLoop, if_pos ⟨hzero, by omega, hlast⟩, hsize, ← Nat.cast_succ]
        exact hloop
      · rw [show k + (left + 1) = k + 1 + left by omega]
        exact hstop
    · refine ⟨k, r, ?_, h, by omega, .inr (.inr ?_)⟩
      · rw [readLoop, if_neg fun hgo => hlast hgo.2.2]
      · have hinside := h.inside
        push_cast at hlast
        omega

end

/-- The buffer holds the cells up to a zero, or as many as there is room for. -/
structure HoldsString (cells : Cells) (addr bufSize : ℤ) (buffer : ℤ → UInt8) (n : ℕ) : Prop where
  room : n < bufSize
  chars : ∀ i : ℕ, i < n → buffer i = cells (addr + i) ∧ cells (addr + i) ≠ 0
  terminated : buffer n = 0
  stop : cells (addr + n) = 0 ∨ n = bufSize - 1 ∨ addr + n = EEPROM_MAX_ADDR

/-- What a call of `eeprom_read_string` does. -/
structure ReadsString (cells : Cells) (addr bufSize : ℤ) (buffer : ℤ → UInt8)
    (result : Bool × Reading) : Prop where
  returns : result.1 = eeprom_is_addr_ok addr
  reads : ∀ a ∈ result.2.reads, EEPROM_MIN_ADDR ≤ a ∧ a ≤ EEPROM_MAX_ADDR
  writes : ∀ i ∈ result.2.writes, 0 ≤ i ∧ i < bufSize
  unchanged : ∀ i, (result.1 = false ∨ i < 0 ∨ bufSize ≤ i) → result.2.buffer i = buffer i
  string : result.1 = true → ∃ n, HoldsString cells addr bufSize result.2.buffer n

section
variable {cells : Cells} {buffer : ℤ → UInt8} {addr bufSize : ℤ} {k : ℕ} {r : Reading}

lemma Within.readsString (h : Within buffer addr k r) (haddr : 0 ≤ addr) (hend : addr + k ≤ 512)
    (hroom : k ≤ bufSize) (haddr_ok : eeprom_is_addr_ok addr = true) {n : ℕ}
    (hstring : HoldsString cells addr bufSize r.buffer n) :
    ReadsString cells addr bufSize buffer (true, r) where
  returns := haddr_ok.symm
  reads a ha := by
    have hread := h.reads a ha
    unfold EEPROM_MIN_ADDR EEPROM_MAX_ADDR
    omega
  writes i hi := by
    have hwrite := h.writes i hi
    omega
  unchanged i hi := h.unchanged i (by
    rcases hi with hi | hi
    · cases hi
    · omega)
  string _ := ⟨n, hstring⟩

/-- Behind the loop, a terminator replaces the last character unless it is one. -/
lemma Scanned.readsString (h : Scanned cells buffer addr k r) (haddr : 0 ≤ addr)
    (haddr_ok : eeprom_is_addr_ok addr = true) (hroom : k < bufSize)
    (hstop : cells (addr + k) = 0 ∨ k = bufSize - 1 ∨ addr + k = EEPROM_MAX_ADDR) :
    ReadsString cells addr bufSize buffer
      (if cells (addr + k) ≠ 0 then (true, r.put k 0) else (true, r)) := by
  have hend : addr + (k + 1 : ℕ) ≤ 512 := by
    have hinside := h.inside
    unfold EEPROM_MAX_ADDR at hinside
    omega
  by_cases hzero : cells (addr + k) = 0
  · rw [if_neg (not_not.mpr hzero)]
    refine h.toWithin.readsString haddr hend (by omega) haddr_ok (n := k) ⟨hroom, ?_, ?_, hstop⟩
    · exact fun i hi => ⟨h.copied i hi.le, h.chars i hi⟩
    · rw [h.copied k le_rfl, hzero]
  · rw [if_pos hzero]
    refine (h.toWithin.put (Nat.lt_succ_self k) 0).readsString haddr hend (by omega) haddr_ok
      (n := k) ⟨hroom, ?_, Function.update_self .., hstop⟩
    intro i hi
    have hne : (i : ℤ) ≠ k := by omega
    refine ⟨?_, h.chars i hi⟩
    show Function.update r.buffer (k : ℤ) 0 i = _
    rw [Function.update_of_ne hne]
    exact h.copied i hi.le

/-- **Any cells.** Whatever the EEPROM holds, a reader with a buffer succeeds at every address of
the EEPROM and nowhere else, reads and writes inside, and leaves a terminated string. -/
theorem eeprom_read_string_terminates (cells : Cells) (buffer : ℤ → UInt8) (addr bufSize : ℤ)
    (hbuf : 1 ≤ bufSize) :
    ReadsString cells addr bufSize buffer (eeprom_read_string addr bufSize cells buffer) := by
  cases haddr_ok : eeprom_is_addr_ok addr with
  | false =>
    have hrefused : eeprom_read_string addr bufSize cells buffer =
        (false, ⟨buffer, [], []⟩) := by
      unfold eeprom_read_string
      rw [haddr_ok]
      rfl
    rw [hrefused]
    refine ⟨haddr_ok.symm, fun _ h => ?_, fun _ h => ?_, fun _ _ => rfl, fun h => ?_⟩
    · cases h
    · cases h
    · cases h
  | true =>
    obtain ⟨hmin, hmax⟩ := eeprom_is_addr_ok_iff.mp haddr_ok
    by_cases hone : bufSize = 1
    · subst hone
      have hresult : eeprom_read_string addr 1 cells buffer =
          (true, Reading.put ⟨buffer, [], []⟩ (0 : ℕ) 0) := by
        unfold eeprom_read_string
        rw [haddr_ok]
        rfl
      have hnothing : Within buffer addr 0 ⟨buffer, [], []⟩ := by
        refine ⟨fun _ _ => rfl, fun _ h => ?_, fun _ h => ?_⟩
        · cases h
        · cases h
      rw [hresult]
      refine ((hnothing.mono (Nat.zero_le 1)).put Nat.zero_lt_one 0).readsString hmin
        (by omega) (by omega) haddr_ok (n := 0) ⟨by omega, ?_, ?_, .inr (.inl rfl)⟩
      · exact fun i hi => absurd hi (Nat.not_lt_zero i)
      · exact Function.update_self ((0 : ℕ) : ℤ) (0 : UInt8) buffer
    · obtain ⟨left, rfl⟩ : ∃ left : ℕ, bufSize = (0 + 1 + left : ℕ) :=
        ⟨(bufSize - 1).toNat, by omega⟩
      have hfirst : Scanned cells buffer addr 0 (Reading.copy ⟨buffer, [], []⟩ cells addr 0) :=
        scanned_zero hmax
      obtain ⟨n, r, hloop, hscanned, hle, hstop⟩ := readLoop_scans left hfirst
      have hloop' : readLoop cells addr ((0 + 1 + left : ℕ) : ℤ) (cells (addr + 0)) 1
          (Reading.copy ⟨buffer, [], []⟩ cells addr 0) =
          (cells (addr + n), ((n + 1 : ℕ) : ℤ), r) := hloop
      have hresult : eeprom_read_string addr (0 + 1 + left : ℕ) cells buffer =
          if cells (addr + n) ≠ 0 then (true, r.put n 0) else (true, r) := by
        have hlast : ((n + 1 : ℕ) : ℤ) - 1 = n := by
          push_cast
          ring
        have hread : ((n + 1 : ℕ) : ℤ) ≥ 1 := by omega
        unfold eeprom_read_string
        rw [haddr_ok, if_neg (by decide), if_neg (by omega), if_neg (by omega)]
        dsimp only
        rw [hloop', hlast]
        exact if_congr (and_iff_left hread) rfl rfl
      rw [hresult]
      exact hscanned.readsString hmin haddr_ok (by omega)
        (hstop.imp_right fun h => h.imp_left fun h => by omega)

end

/-- A name of three characters in the last cells, without a terminator. -/
theorem last_cells_terminated : ReadsString (fun _ => 65) 509 8 (fun _ => 7)
    (eeprom_read_string 509 8 (fun _ => 65) fun _ => 7) :=
  eeprom_read_string_terminates (fun _ => 65) (fun _ => 7) 509 8 (by decide)

/-! ## Blocks -/

/-- Calls of `eeprom_write_bytes`, one after the other. -/
def writeAll (cells : Cells) (writes : List (ℤ × List UInt8)) : Cells :=
  writes.foldl (fun cells w => (eeprom_write_bytes w.1 w.2 cells).2) cells

section
variable {cells : Cells} {addr : ℤ} {bytes : List UInt8} {array : ℤ → UInt8}

/-- What the checks accept, of a reader as of a writer. -/
def InBounds (addr numBytes : ℤ) : Prop :=
  eeprom_is_addr_ok addr = true ∧ eeprom_is_addr_ok (addr + numBytes) = true

lemma inBounds_guard (addr numBytes : ℤ) :
    (!eeprom_is_addr_ok addr || !eeprom_is_addr_ok (addr + numBytes)) = true ↔
      ¬InBounds addr numBytes := by
  rw [InBounds, Bool.or_eq_true, Bool.not_eq_true', Bool.not_eq_true', ← Bool.not_eq_true,
    ← Bool.not_eq_true]
  tauto

lemma cells_write_bytes (a : ℤ) (h : InBounds addr bytes.length → a < addr ∨ addr + bytes.length ≤ a) :
    (eeprom_write_bytes addr bytes cells).2 a = cells a := by
  unfold eeprom_write_bytes
  dsimp only
  by_cases hin : InBounds addr bytes.length
  · rw [if_neg fun hrefused => (inBounds_guard _ _).mp hrefused hin]
    exact CellBlock.write_of_outside (h hin)
  · rw [if_pos ((inBounds_guard _ _).mpr hin)]

/-- The loop of `eeprom_read_bytes`. -/
lemma copy_loop (n : ℕ) (i : ℤ) : (List.range n).foldl
      (fun array (k : ℕ) => Function.update array (k : ℤ) (cells (addr + k))) array i =
    if 0 ≤ i ∧ i < n then cells (addr + i) else array i := by
  induction n with
  | zero => rw [if_neg (by omega)]; rfl
  | succ n ih =>
    rw [List.range_succ, List.foldl_append, List.foldl_cons, List.foldl_nil]
    by_cases hlast : i = n
    · subst hlast
      rw [Function.update_self, if_pos (by omega)]
    · rw [Function.update_of_ne hlast, ih]
      by_cases hi : 0 ≤ i ∧ i < n
      · rw [if_pos hi, if_pos (by omega)]
      · rw [if_neg hi, if_neg (by omega)]

/-- What later writes leave of a block. -/
lemma holds_writeAll (hcells : CellBlock.Holds cells addr bytes) {later : List (ℤ × List UInt8)}
    (hlater : ∀ w ∈ later, InBounds w.1 w.2.length →
      addr + bytes.length ≤ w.1 ∨ w.1 + w.2.length ≤ addr) :
    CellBlock.Holds (writeAll cells later) addr bytes := by
  induction later generalizing cells with
  | nil => exact hcells
  | cons w later ih =>
    refine ih ?_ fun w' hw' => hlater w' (List.mem_cons_of_mem w hw')
    intro i b hb
    have hi := (List.getElem?_eq_some_iff.mp hb).1
    show (eeprom_write_bytes w.1 w.2 cells).2 (addr + i) = b
    rw [cells_write_bytes, hcells i b hb]
    intro hin
    have hapart := hlater w List.mem_cons_self hin
    omega

/-- **Blocks.** After any calls of the writer, a block that is accepted is read back as it was
written, if every later block that was accepted lies before or behind it. -/
theorem read_bytes_written (cells : Cells) (array : ℤ → UInt8)
    (earlier later : List (ℤ × List UInt8)) (hin : InBounds addr bytes.length)
    (hlater : ∀ w ∈ later, InBounds w.1 w.2.length →
      addr + bytes.length ≤ w.1 ∨ w.1 + w.2.length ≤ addr) :
    eeprom_read_bytes addr array bytes.length
        (writeAll cells (earlier ++ (addr, bytes) :: later)) =
      (true, fun i : ℤ => if 0 ≤ i ∧ i < bytes.length then bytes.getD i.toNat 0 else array i) := by
  have hwritten : writeAll cells (earlier ++ (addr, bytes) :: later) =
      writeAll (CellBlock.write (writeAll cells earlier) addr bytes) later := by
    have hblock : (eeprom_write_bytes addr bytes (writeAll cells earlier)).2 =
        CellBlock.write (writeAll cells earlier) addr bytes := by
      unfold eeprom_write_bytes
      dsimp only
      rw [if_neg fun hrefused => (inBounds_guard _ _).mp hrefused hin]
    rw [writeAll, List.foldl_append, List.foldl_cons]
    show writeAll (eeprom_write_bytes addr bytes (writeAll cells earlier)).2 later = _
    rw [hblock]
  have hblock : CellBlock.Holds (CellBlock.write (writeAll cells earlier) addr bytes) addr bytes :=
    CellBlock.holds_write
  have hholds := holds_writeAll hblock hlater
  rw [hwritten, eeprom_read_bytes, if_neg fun hrefused => (inBounds_guard _ _).mp hrefused hin]
  congr 1
  funext i
  rw [Int.toNat_natCast, copy_loop]
  by_cases hi : 0 ≤ i ∧ i < bytes.length
  · rw [if_pos hi, if_pos hi]
    have hlt : i.toNat < bytes.length := by omega
    have hget := hholds i.toNat bytes[i.toNat] (List.getElem?_eq_getElem hlt)
    rw [Int.toNat_of_nonneg hi.1] at hget
    rw [hget, List.getD_eq_getElem?_getD, List.getElem?_eq_getElem hlt, Option.getD_some]
  · rw [if_neg hi, if_neg hi]

end

/-- Two blocks side by side, and one that is refused. -/
theorem read_bytes_written_between : eeprom_read_bytes 10 (fun _ => 7) 2
      (writeAll (fun _ => 255) ([(0, [1])] ++ (10, [8, 9]) :: [(12, [3]), (511, [4])])) =
    (true, fun i : ℤ => if 0 ≤ i ∧ i < 2 then [8, 9].getD i.toNat 0 else 7) :=
  have hin : InBounds 10 (([8, 9] : List UInt8).length) := ⟨by decide, by decide⟩
  read_bytes_written (fun _ => 255) (fun _ => 7) [(0, [1])] [(12, [3]), (511, [4])] hin (by
    intro w hw
    simp only [List.mem_cons, List.not_mem_nil, or_false] at hw
    rcases hw with rfl | rfl
    · exact fun _ => .inl (by decide)
    · exact fun _ => .inl (by decide))

/-! ## Resets -/

lemma strncmp_eq_zero_iff {s t : ℕ → UInt8} {n : ℕ} :
    strncmp s t n = 0 ↔ ∀ i < n, (∀ j < i, s j ≠ 0) → s i = t i := by
  induction n generalizing s t with
  | zero => exact iff_of_true rfl fun i hi => absurd hi (Nat.not_lt_zero i)
  | succ n ih =>
    rw [strncmp]
    by_cases hne : s 0 = t 0
    · rw [if_neg (not_not.mpr hne)]
      by_cases hzero : s 0 = 0
      · rw [if_pos hzero]
        refine iff_of_true rfl fun i hi hbefore => ?_
        cases i with
        | zero => exact hne
        | succ i => exact absurd hzero (hbefore 0 (Nat.succ_pos i))
      · rw [if_neg hzero, ih]
        constructor
        · intro h i hi hbefore
          cases i with
          | zero => exact hne
          | succ i => exact h i (by omega) fun j hj => hbefore (j + 1) (by omega)
        · intro h i hi hbefore
          refine h (i + 1) (by omega) fun j hj => ?_
          cases j with
          | zero => exact hzero
          | succ j => exact hbefore j (by omega)
    · rw [if_pos hne]
      refine iff_of_false ?_ fun h => hne (h 0 (Nat.succ_pos n) fun j hj => absurd hj (Nat.not_lt_zero j))
      intro hdiff
      have hsame : (s 0).toNat = (t 0).toNat := by omega
      exact hne (UInt8.toNat_inj.mp hsame)

section
variable {cells : Cells} {sID : CString}

lemma getD_bytes (i : ℕ) : sID.bytes.getD i 0 = sID.chars.getD i 0 := by
  rw [List.getD_eq_getElem?_getD, List.getD_eq_getElem?_getD, CString.bytes]
  rcases lt_trichotomy i sID.chars.length with hlt | rfl | hgt
  · rw [List.getElem?_append_left hlt]
  · rw [List.getElem?_concat_length, List.getElem?_eq_none le_rfl]
    rfl
  · rw [List.getElem?_eq_none (by rw [List.length_append, List.length_singleton]; omega),
      List.getElem?_eq_none hgt.le]

lemma chars_ne_zero {i : ℕ} (hi : i < sID.strlen) : sID.bytes.getD i 0 ≠ 0 := by
  intro hzero
  have hlt : i < sID.chars.length := hi
  rw [getD_bytes, List.getD_eq_getElem?_getD, List.getElem?_eq_getElem hlt,
    Option.getD_some] at hzero
  exact sID.not_nul (hzero ▸ List.getElem_mem hlt)

/-- The buffer of the sketch holds the serial number. -/
def HasID (sID : CString) (buf : ℤ → UInt8) : Prop := CellBlock.Holds buf 0 sID.bytes

lemma hasID_iff {buf : ℤ → UInt8} :
    HasID sID buf ↔ ∀ i : ℕ, i ≤ sID.strlen → buf i = sID.bytes.getD i 0 := by
  constructor
  · intro h i hi
    have hlt : i < sID.bytes.length := by
      rw [length_bytes]
      omega
    have hget := h i sID.bytes[i] (List.getElem?_eq_getElem hlt)
    rw [zero_add] at hget
    rw [hget, List.getD_eq_getElem?_getD, List.getElem?_eq_getElem hlt, Option.getD_some]
  · intro h i b hb
    have hlt := (List.getElem?_eq_some_iff.mp hb).1
    rw [length_bytes] at hlt
    rw [zero_add, h i (by omega), List.getD_eq_getElem?_getD, hb, Option.getD_some]

/-- `strncmp` of the six characters tells whether a terminated buffer holds the serial number. -/
lemma strncmp_iff (hlength : sID.strlen ≤ 6) {buf : ℤ → UInt8} {n : ℕ} (hn : n < 7)
    (hend : buf n = 0) :
    strncmp (fun i => buf i) (fun i => sID.bytes.getD i 0) 6 = 0 ↔ HasID sID buf := by
  have hterminator : sID.bytes.getD sID.strlen 0 = 0 := by
    have hend : sID.chars.length ≤ sID.strlen := le_rfl
    rw [getD_bytes, List.getD_eq_getElem?_getD, List.getElem?_eq_none hend]
    rfl
  rw [strncmp_eq_zero_iff, hasID_iff]
  constructor
  · intro h
    -- up to the end of the serial number the buffer has no terminator
    have hsame : ∀ i : ℕ, i < sID.strlen → buf i = sID.bytes.getD i 0 := by
      intro i
      induction i using Nat.strong_induction_on with
      | _ i ih =>
        intro hi
        refine h i (by omega) fun j hj => ?_
        rw [ih j hj (by omega)]
        exact chars_ne_zero (by omega)
    have hlong : sID.strlen ≤ n := by
      by_contra hshort
      have hzero := hsame n (by omega)
      rw [hend] at hzero
      exact chars_ne_zero (by omega) hzero.symm
    intro i hi
    rcases Nat.lt_or_eq_of_le hi with hlt | rfl
    · exact hsame i hlt
    · rw [hterminator]
      by_cases hfull : sID.strlen < 6
      · rw [← hterminator]
        refine h _ hfull fun j hj => ?_
        rw [hsame j hj]
        exact chars_ne_zero hj
      · rw [show sID.strlen = n by omega]
        exact hend
  · intro h i hi hbefore
    by_cases hle : i ≤ sID.strlen
    · exact h i hle
    · exact absurd ((h sID.strlen le_rfl).trans hterminator) (hbefore sID.strlen (by omega))

/-- What `setup` reads. -/
lemma exists_terminator (cells : Cells) (sID : CString) :
    ∃ n : ℕ, n < 7 ∧ (setup sID cells).1 n = 0 := by
  have hreads := eeprom_read_string_terminates cells (fun _ => 0) 0 7 (by decide)
  obtain ⟨n, hstring⟩ := hreads.string (by rw [hreads.returns]; decide)
  have hbuf : (setup sID cells).1 = (eeprom_read_string 0 7 cells fun _ => 0).2.buffer := by
    unfold setup
    dsimp only
    split_ifs
    · rfl
    · rfl
  rw [hbuf]
  have hroom := hstring.room
  exact ⟨n, by omega, hstring.terminated⟩

/-- The serial number is written unless it was read. -/
lemma setup_cells (hlength : sID.strlen ≤ 6) (cells : Cells) :
    (HasID sID (setup sID cells).1 → (setup sID cells).2 = cells) ∧
    (¬HasID sID (setup sID cells).1 →
      (setup sID cells).2 = CellBlock.write cells 0 sID.bytes) := by
  obtain ⟨n, hn, hend⟩ := exists_terminator cells sID
  have hcompare := strncmp_iff hlength hn hend
  have hwrite : (eeprom_write_string 0 sID cells).2 = CellBlock.write cells 0 sID.bytes := by
    rw [eeprom_write_string_eq, if_pos ⟨le_rfl, by omega⟩]
  by_cases hsame : strncmp (fun i => (eeprom_read_string 0 7 cells fun _ => 0).2.buffer i)
      (fun i => sID.bytes.getD i 0) 6 = 0
  · have hsetup : setup sID cells =
        ((eeprom_read_string 0 7 cells fun _ => 0).2.buffer, cells) :=
      if_neg (not_not.mpr hsame)
    rw [hsetup] at hcompare ⊢
    exact ⟨fun _ => rfl, fun hno => absurd (hcompare.mp hsame) hno⟩
  · have hsetup : setup sID cells =
        ((eeprom_read_string 0 7 cells fun _ => 0).2.buffer,
          (eeprom_write_string 0 sID cells).2) := if_pos hsame
    rw [hsetup] at hcompare ⊢
    exact ⟨fun hhas => absurd (hcompare.mpr hhas) hsame, fun _ => hwrite⟩

/-- After a reset the serial number is there to be read. -/
lemma hasID_setup (hlength : sID.strlen ≤ 6) (cells : Cells) :
    HasID sID (setup sID (setup sID cells).2).1 := by
  obtain ⟨hkeeps, hwrites⟩ := setup_cells hlength cells
  by_cases hhas : HasID sID (setup sID cells).1
  · rw [hkeeps hhas]
    exact hhas
  · rw [hwrites hhas]
    have haccepted : Accepted 0 sID := ⟨le_rfl, by omega⟩
    have hback : ReadsBack (fun _ => 0) sID (0 + 1 + 6 : ℕ)
        (eeprom_read_string 0 (0 + 1 + 6 : ℕ) (CellBlock.write cells 0 sID.bytes) fun _ => 0) :=
      readsBack_loop CellBlock.holds_write haccepted (by decide)
    have hcut := hback.cut
    rw [List.take_of_length_le (by show sID.strlen ≤ _; omega)] at hcut
    unfold setup
    dsimp only
    split_ifs
    · exact hcut
    · exact hcut

/-- **Written once.** Whatever the cells hold, every reset but the first leaves them alone and
reads the serial number. -/
theorem setup_writes_once (hlength : sID.strlen ≤ 6) (cells : Cells) (resets : ℕ) :
    (fun cells => (setup sID cells).2)^[resets + 1] cells = (setup sID cells).2 ∧
      HasID sID (setup sID ((fun cells => (setup sID cells).2)^[resets + 1] cells)).1 := by
  have hstable : (fun cells => (setup sID cells).2)^[resets + 1] cells = (setup sID cells).2 := by
    induction resets with
    | zero => rfl
    | succ resets ih =>
      rw [Function.iterate_succ_apply', ih]
      exact (setup_cells hlength _).1 (hasID_setup hlength cells)
  exact ⟨hstable, hstable ▸ hasID_setup hlength cells⟩

end

/-- The serial number of the sketch, on an erased EEPROM. -/
theorem sID_written_once :
    (fun cells => (setup sID cells).2)^[2 + 1] (fun _ => 255) = (setup sID fun _ => 255).2 ∧
      HasID sID (setup sID ((fun cells => (setup sID cells).2)^[2 + 1] fun _ => 255)).1 :=
  setup_writes_once (by decide) (fun _ => 255) 2

end Syndilights.Displayclient.Serial2eeprom
