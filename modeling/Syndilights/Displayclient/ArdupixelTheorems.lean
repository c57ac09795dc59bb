import Syndilights.Clients.S2llibTheorems
import Syndilights.Displayclient.Ardupixel

/-!
# What the neopixel display reads and lights

The actions of `drawCommand`, one by one: for a packet of the Python client they light the
panel with the colours of its canvas; for other packets they can read what never arrived and
light LEDs that no coordinate of the panel has.
-/

namespace Syndilights.Displayclient.Ardupixel

open Clients

/-! ## The strip -/

/-- Where the pixel of a column and a row is on the strip: odd columns run backwards. -/
def Panel.position (p : Panel) (x y : ℕ) : ℕ :=
  x * p.ROWS + if x % 2 = 1 then p.ROWS - 1 - y else y

section
variable {p : Panel} {x y : ℕ}

lemma position_lt (hx : x < p.COLS) (hy : y < p.ROWS) : p.position x y < p.NUMPIXELS := by
  have hrow : (x + 1) * p.ROWS ≤ p.COLS * p.ROWS := Nat.mul_le_mul_right _ hx
  rw [Nat.add_mul] at hrow
  rw [Panel.position, Panel.NUMPIXELS, Nat.mul_comm p.ROWS]
  split_ifs <;> omega

/-- Two pixels of the panel are two LEDs. -/
lemma position_injective {x' y' : ℕ} (hy : y < p.ROWS) (hy' : y' < p.ROWS)
    (h : p.position x y = p.position x' y') : x = x' ∧ y = y' := by
  have hlt (x y : ℕ) (hy : y < p.ROWS) : (if x % 2 = 1 then p.ROWS - 1 - y else y) < p.ROWS := by
    split_ifs <;> omega
  rcases Strided.row_unique (hlt x y hy) (hlt x' y' hy') h with ⟨rfl, hrow⟩
  refine ⟨rfl, ?_⟩
  split_ifs at hrow <;> omega

lemma toNat_toUInt16 {n : ℕ} (h : n < 2 ^ 16) : n.toUInt16.toNat = n := by
  rw [Nat.toUInt16_eq, UInt16.toNat_ofNat', Nat.mod_eq_of_lt h]

/-- What `indirect` computes, wrapping included. -/
lemma toNat_indirect (hx : x < 2 ^ 16) (hy : y < 2 ^ 16) (hrows : p.ROWS < 2 ^ 16) :
    (indirect p x.toUInt16 y.toUInt16).toNat =
      if p.COLS < x ∨ p.ROWS < y then 2 ^ 16 - 1
      else if x % 2 = 1 then (x * p.ROWS + (2 ^ 17 - 1 - y + p.ROWS)) % 2 ^ 16
      else (x * p.ROWS + y) % 2 ^ 16 := by
  have hodd : x.toUInt16 % 2 ≠ 0 ↔ x % 2 = 1 := by
    rw [Ne, ← UInt16.toNat_inj, UInt16.toNat_mod, toNat_toUInt16 hx]
    show ¬ x % 2 = 0 ↔ x % 2 = 1
    omega
  unfold indirect
  rw [toNat_toUInt16 hx, toNat_toUInt16 hy]
  by_cases hcol : p.COLS < x
  · rw [if_pos hcol, if_pos (Or.inl hcol)]
    rfl
  by_cases hrow : p.ROWS < y
  · rw [if_neg hcol, if_pos hrow, if_pos (Or.inr hrow)]
    rfl
  rw [if_neg hcol, if_neg hrow, if_neg (not_or.mpr ⟨hcol, hrow⟩)]
  by_cases hx2 : x % 2 = 1
  · rw [if_pos (hodd.mpr hx2), if_pos hx2]
    simp only [UInt16.toNat_add, UInt16.toNat_mul, UInt16.toNat_sub, toNat_toUInt16 hx,
      toNat_toUInt16 hy, toNat_toUInt16 hrows, UInt16.toNat_one]
    omega
  · rw [if_neg (mt hodd.mp hx2), if_neg hx2]
    simp only [UInt16.toNat_add, UInt16.toNat_mul, toNat_toUInt16 hx, toNat_toUInt16 hy,
      toNat_toUInt16 hrows]
    omega

/-- On the panel, `indirect` is the position. -/
lemma indirect_of_lt (hx : x < p.COLS) (hy : y < p.ROWS) :
    (indirect p x.toUInt16 y.toUInt16).toNat = p.position x y := by
  have hlt := position_lt hx hy
  have hnum := p.numpixels_lt
  have hrows : p.ROWS * 1 ≤ p.ROWS * p.COLS := Nat.mul_le_mul_left _ (by omega)
  have hcols : 1 * p.COLS ≤ p.ROWS * p.COLS := Nat.mul_le_mul_right _ (by omega)
  rw [toNat_indirect (by omega) (by omega) (by omega), if_neg (by omega)]
  rw [Panel.position, Panel.NUMPIXELS] at *
  split_ifs at hlt ⊢ <;> omega

end

/-! ## The actions -/

section
variable {p : Panel} {board : Board} {packet : List UInt8} {packetBuffer : ℕ → UInt8}

/-- `strncmp` reads the next byte as long as those before it agree. -/
lemma read_mem_strncmp {s : List UInt8} {j k : ℕ} (hj : j < s.length)
    (hsame : ∀ i < j, packetBuffer (k + i) = s.getD i 0) :
    .read (k + j) ∈ (strncmp packetBuffer s k).1 := by
  induction s generalizing j k with
  | nil => exact absurd hj (Nat.not_lt_zero j)
  | cons c s ih =>
    rw [strncmp]
    cases j with
    | zero => split_ifs <;> exact List.mem_cons_self
    | succ j =>
      have hfirst : packetBuffer k = c := hsame 0 (by omega)
      have hmem := ih (j := j) (k := k + 1) (by simpa using hj) fun i hi => by
        rw [Nat.add_right_comm]
        exact hsame (i + 1) (by omega)
      rw [if_pos hfirst]
      rw [Nat.add_right_comm] at hmem
      exact List.mem_cons_of_mem _ hmem

/-- All four bytes agree. -/
lemma strncmp_same (h : ∀ i < 4, packetBuffer i = MAGIC.getD i 0) :
    strncmp packetBuffer MAGIC 0 = ([.read 0, .read 1, .read 2, .read 3], true) := by
  have h0 : packetBuffer 0 = 115 := h 0 (by omega)
  have h1 : packetBuffer 1 = 50 := h 1 (by omega)
  have h2 : packetBuffer 2 = 108 := h 2 (by omega)
  have h3 : packetBuffer 3 = 10 := h 3 (by omega)
  show strncmp packetBuffer [115, 50, 108, 10] 0 = _
  simp only [strncmp, h0, h1, h2, h3, Nat.zero_add, Nat.reduceAdd, if_true]

lemma read_of_lt {k : ℕ} (hk : k < board.received packet) :
    board.read packet packetBuffer k = packet.getD k 0 := if_pos hk

/-- What arrived of a packet with the magic agrees with it. -/
lemma read_magic (hmagic : MAGIC <+: packet) {i : ℕ} (hi : i < 4)
    (hreceived : i < board.received packet) :
    board.read packet packetBuffer i = MAGIC.getD i 0 := by
  rcases hmagic with ⟨rest, rfl⟩
  rw [read_of_lt hreceived, List.getD_eq_getElem?_getD, List.getD_eq_getElem?_getD,
    List.getElem?_append_left hi]

/-- With less than four bytes, `strncmp` reads the first one that did not arrive. -/
lemma read_received_mem (hmagic : MAGIC <+: packet) (hshort : board.received packet < 4) :
    .read (board.received packet) ∈ drawCommand p board packet packetBuffer := by
  have hmem : .read (0 + board.received packet) ∈
      (strncmp (board.read packet packetBuffer) MAGIC 0).1 :=
    read_mem_strncmp hshort fun i hi => by
      rw [Nat.zero_add]
      exact read_magic hmagic (by omega) hi
  rw [Nat.zero_add] at hmem
  unfold drawCommand
  dsimp only
  split_ifs
  · exact hmem
  · exact List.mem_append_left _ (List.mem_append_left _ hmem)

/-- The width in the header of a packet. -/
def headerWidth (board : Board) (packet : List UInt8) : ℤ := board.char (packet.getD 4 0) - 48

/-- The height in the header of a packet. -/
def headerHeight (board : Board) (packet : List UInt8) : ℤ := board.char (packet.getD 5 0) - 48

/-- With four bytes, `drawCommand` reads the two behind them. -/
lemma read_header_mem (hmagic : MAGIC <+: packet) (hfour : 4 ≤ board.received packet) :
    .read 4 ∈ drawCommand p board packet packetBuffer ∧
      .read 5 ∈ drawCommand p board packet packetBuffer := by
  have hsame : strncmp (board.read packet packetBuffer) MAGIC 0 = _ :=
    strncmp_same fun i hi => read_magic hmagic hi (by omega)
  unfold drawCommand
  dsimp only
  rw [hsame]
  simp

/-- With the whole header, it draws the pixels of all rows. -/
lemma drawCommand_eq (hmagic : MAGIC <+: packet) (hsix : 6 ≤ board.received packet) :
    drawCommand p board packet packetBuffer =
      (List.range 6).map .read ++
        (List.range (headerHeight board packet).toNat).flatMap fun y =>
          (List.range (headerWidth board packet).toNat).flatMap fun x =>
            drawPixel p board (board.read packet packetBuffer) (headerWidth board packet).toNat
              x y := by
  have hsame : strncmp (board.read packet packetBuffer) MAGIC 0 = _ :=
    strncmp_same fun i hi => read_magic hmagic hi (by omega)
  unfold drawCommand headerWidth headerHeight
  dsimp only
  rw [hsame, read_of_lt (by omega), read_of_lt (by omega)]
  rfl

/-- The actions for one pixel. -/
lemma mem_drawPixel {width x y : ℕ} {a : Action} :
    a ∈ drawPixel p board packetBuffer width x y ↔
      (∃ k, 1 ≤ k ∧ k ≤ 3 ∧ a = .read (subPixelPos width x y k)) ∨
      a = .setPixelColor x y (indirect p x.toUInt16 y.toUInt16)
        (color (board.toUInt16 (packetBuffer (subPixelPos width x y 1)))
          (board.toUInt16 (packetBuffer (subPixelPos width x y 2)))
          (board.toUInt16 (packetBuffer (subPixelPos width x y 3)))) := by
  unfold drawPixel
  dsimp only
  rw [if_pos (UInt16.zero_le), List.mem_append, List.mem_singleton]
  apply or_congr_left
  simp only [List.mem_cons, List.not_mem_nil, or_false]
  constructor
  · rintro (rfl | rfl | rfl)
    · exact ⟨1, by omega, by omega, rfl⟩
    · exact ⟨2, by omega, by omega, rfl⟩
    · exact ⟨3, by omega, by omega, rfl⟩
  · rintro ⟨k, hlo, hhi, rfl⟩
    obtain rfl | rfl | rfl : k = 1 ∨ k = 2 ∨ k = 3 := by omega
    · exact Or.inl rfl
    · exact Or.inr (Or.inl rfl)
    · exact Or.inr (Or.inr rfl)

/-- All actions for a packet whose header arrived. -/
lemma mem_drawCommand (hmagic : MAGIC <+: packet) (hsix : 6 ≤ board.received packet)
    {a : Action} :
    a ∈ drawCommand p board packet packetBuffer ↔
      (∃ k < 6, a = .read k) ∨
      ∃ x y : ℕ, (x : ℤ) < headerWidth board packet ∧ (y : ℤ) < headerHeight board packet ∧
        a ∈ drawPixel p board (board.read packet packetBuffer) (headerWidth board packet).toNat
          x y := by
  rw [drawCommand_eq hmagic hsix, List.mem_append, List.mem_map, List.mem_flatMap]
  apply or_congr
  · constructor
    · rintro ⟨k, hk, rfl⟩
      exact ⟨k, List.mem_range.mp hk, rfl⟩
    · rintro ⟨k, hk, rfl⟩
      exact ⟨k, List.mem_range.mpr hk, rfl⟩
  · constructor
    · rintro ⟨y, hy, ha⟩
      rcases List.mem_flatMap.mp ha with ⟨x, hx, ha⟩
      rw [List.mem_range] at hx hy
      exact ⟨x, y, by omega, by omega, ha⟩
    · rintro ⟨x, y, hx, hy, ha⟩
      refine ⟨y, List.mem_range.mpr (by omega), ?_⟩
      exact List.mem_flatMap.mpr ⟨x, List.mem_range.mpr (by omega), ha⟩

end

/-! ## Packets from anyone -/

/-- Every byte that is read has arrived, and an LED changes only for coordinates on the panel,
whose position it has. -/
structure Behaves (p : Panel) (board : Board) (packet : List UInt8) (packetBuffer : ℕ → UInt8) :
    Prop where
  reads : ∀ k, .read k ∈ drawCommand p board packet packetBuffer → k < board.received packet
  lights : ∀ x y n c, .setPixelColor x y n c ∈ drawCommand p board packet packetBuffer →
    n.toNat < p.NUMPIXELS → x < p.COLS ∧ y < p.ROWS ∧ n.toNat = p.position x y

section
variable {board : Board} {packet : List UInt8} {packetBuffer : ℕ → UInt8}

lemma char_le (board : Board) (c : UInt8) : board.char c ≤ 255 := by
  unfold Board.char
  split_ifs
  · have hlt := c.toInt8.toInt_lt
    omega
  · have hlt := c.toNat_lt
    omega

lemma headerWidth_lt (board : Board) (packet : List UInt8) : headerWidth board packet < 208 := by
  have hle := char_le board (packet.getD 4 0)
  unfold headerWidth
  omega

/-- The rows that were announced end where the last value of the last pixel is. -/
lemma subPixelPos_lt {width height x y k : ℕ} (hx : x < width) (hy : y < height) (hk : k ≤ 3) :
    subPixelPos width x y k < 10 + height * (4 * width + 1) := by
  have hrows : (y + 1) * (width * 4 + 1) ≤ height * (width * 4 + 1) := Nat.mul_le_mul_right _ hy
  rw [Nat.add_mul] at hrows
  rw [subPixelPos, Nat.mul_comm 4]
  omega

/-- It is the last value of the last pixel. -/
lemma subPixelPos_last {width height : ℕ} (hwidth : 0 < width) (hheight : 0 < height) :
    subPixelPos width (width - 1) (height - 1) 3 + 1 = 10 + height * (4 * width + 1) := by
  obtain ⟨y, rfl⟩ : ∃ y, height = y + 1 := ⟨height - 1, by omega⟩
  rw [subPixelPos, Nat.add_sub_cancel, Nat.mul_comm 4, Nat.add_mul]
  omega

/-- To the right of the panel `indirect` has no LED, for rows of the panel. -/
lemma indirect_right {x y : ℕ} (hx : x < 208) (hy : y < 25)
    (h : (indirect sketch x.toUInt16 y.toUInt16).toNat < sketch.NUMPIXELS) : x < 20 := by
  have hrows : sketch.ROWS = 25 := rfl
  have hcols : sketch.COLS = 20 := rfl
  have hnum : sketch.NUMPIXELS = 500 := rfl
  rw [toNat_indirect (by omega) (by omega) (by omega), hrows, hcols, hnum] at h
  split_ifs at h <;> omega

/-- A pixel of the row below the panel is the first one of the second column. -/
lemma indirect_below : (indirect sketch (Nat.toUInt16 0) (Nat.toUInt16 25)).toNat = 25 := by decide

/-- What a packet must announce to do no harm: nothing, or rows that have arrived and that the
panel has. -/
lemma behaves_of_header (hmagic : MAGIC <+: packet) (hsix : 6 ≤ board.received packet)
    (h : headerWidth board packet ≤ 0 ∨ headerHeight board packet ≤ 0 ∨
      (10 + headerHeight board packet * (4 * headerWidth board packet + 1)
        ≤ board.received packet ∧ headerHeight board packet ≤ 25)) :
    Behaves sketch board packet packetBuffer where
  reads k hk := by
    rcases (mem_drawCommand hmagic hsix).mp hk with ⟨i, hi, heq⟩ | ⟨x, y, hx, hy, hpixel⟩
    · rw [Action.read.injEq] at heq
      omega
    · rcases mem_drawPixel.mp hpixel with ⟨i, -, hi, heq⟩ | heq
      · rw [Action.read.injEq] at heq
        obtain ⟨width, hwidth⟩ := Int.eq_ofNat_of_zero_le (by omega : 0 ≤ headerWidth board packet)
        obtain ⟨height, hheight⟩ :=
          Int.eq_ofNat_of_zero_le (by omega : 0 ≤ headerHeight board packet)
        rw [hwidth, hheight] at h
        rw [hwidth, Int.toNat_natCast] at heq
        -- the last byte of the last window is the furthest one
        have hlt := subPixelPos_lt (by omega : x < width) (by omega : y < height) hi
        have harrived : 10 + height * (4 * width + 1) ≤ board.received packet := by
          exact_mod_cast ((h.resolve_left (by omega)).resolve_left (by omega)).1
        omega
      · exact absurd heq (by simp)
  lights x y n c hmem hn := by
    rcases (mem_drawCommand hmagic hsix).mp hmem with ⟨i, hi, heq⟩ | ⟨x', y', hx, hy, hpixel⟩
    · exact absurd heq (by simp)
    · rcases mem_drawPixel.mp hpixel with ⟨i, -, hi, heq⟩ | heq
      · exact absurd heq (by simp)
      · rw [Action.setPixelColor.injEq] at heq
        rcases heq with ⟨rfl, rfl, rfl, -⟩
        have hwidth := headerWidth_lt board packet
        have hrow : y < 25 := by omega
        have hcol : x < 20 := indirect_right (by omega) hrow hn
        exact ⟨hcol, hrow, indirect_of_lt hcol hrow⟩

/-- Rows that are announced are read. -/
lemma Behaves.arrived {p : Panel} (h : Behaves p board packet packetBuffer)
    (hmagic : MAGIC <+: packet) (hsix : 6 ≤ board.received packet)
    (hwidth : 0 < headerWidth board packet) (hheight : 0 < headerHeight board packet) :
    10 + headerHeight board packet * (4 * headerWidth board packet + 1)
      ≤ board.received packet := by
  obtain ⟨width, hw⟩ := Int.eq_ofNat_of_zero_le hwidth.le
  obtain ⟨height, hh⟩ := Int.eq_ofNat_of_zero_le hheight.le
  have hlast := h.reads (subPixelPos width (width - 1) (height - 1) 3)
    ((mem_drawCommand hmagic hsix).mpr (Or.inr ⟨width - 1, height - 1, by omega, by omega,
      mem_drawPixel.mpr (Or.inl ⟨3, by omega, le_rfl, by rw [hw, Int.toNat_natCast]⟩)⟩))
  have heq := subPixelPos_last (by omega : 0 < width) (by omega : 0 < height)
  have hle : 10 + height * (4 * width + 1) ≤ board.received packet := by omega
  rw [hw, hh]
  exact_mod_cast hle

/-- A row below the panel lights an LED. -/
lemma Behaves.height_le (h : Behaves sketch board packet packetBuffer)
    (hmagic : MAGIC <+: packet) (hsix : 6 ≤ board.received packet)
    (hwidth : 0 < headerWidth board packet) : headerHeight board packet ≤ 25 := by
  by_contra htall
  have hbelow := h.lights 0 25 _ _ ((mem_drawCommand hmagic hsix).mpr (Or.inr
    ⟨0, 25, by omega, by omega, mem_drawPixel.mpr (Or.inr rfl)⟩))
  rw [indirect_below] at hbelow
  exact absurd (hbelow (by decide)).2.1 (by decide)

/-- **When a packet does no harm.** Its six bytes of header have arrived, and it announces no
pixels, or rows that have arrived completely and are rows of the panel. -/
theorem behaves_iff (board : Board) (packet : List UInt8) (packetBuffer : ℕ → UInt8)
    (hmagic : MAGIC <+: packet) :
    Behaves sketch board packet packetBuffer ↔
      6 ≤ board.received packet ∧
      (headerWidth board packet ≤ 0 ∨ headerHeight board packet ≤ 0 ∨
        (10 + headerHeight board packet * (4 * headerWidth board packet + 1)
          ≤ board.received packet ∧ headerHeight board packet ≤ 25)) := by
  refine ⟨fun h => ?_, fun h => behaves_of_header hmagic h.1 h.2⟩
  have hfour : 4 ≤ board.received packet := by
    by_contra hshort
    have hlt := h.reads _ (read_received_mem hmagic (by omega))
    omega
  have hsix : 6 ≤ board.received packet := by
    rcases read_header_mem hmagic hfour with ⟨hfourth, hfifth⟩
    have hlt4 := h.reads 4 hfourth
    have hlt5 := h.reads 5 hfifth
    omega
  refine ⟨hsix, ?_⟩
  by_contra hannounced
  simp only [not_or, not_le] at hannounced
  rcases hannounced with ⟨hwidth, hheight, hrows⟩
  exact hrows ⟨h.arrived hmagic hsix hwidth hheight, h.height_le hmagic hsix hwidth⟩

/-- A board with a buffer of 24 bytes. -/
def small : Board := ⟨24, true⟩

/-- One grey pixel, and the same bytes with a width of two. -/
theorem behaves_iff_one_pixel :
    Behaves sketch small (MAGIC ++ [49, 49] ++ List.replicate 11 127) (fun _ => 0) ∧
      ¬ Behaves sketch small (MAGIC ++ [50, 49] ++ List.replicate 11 127) (fun _ => 0) :=
  ⟨(behaves_iff small _ _ ⟨_, (List.append_assoc ..).symm⟩).mpr (by decide),
    (behaves_iff small _ _ ⟨_, (List.append_assoc ..).symm⟩).not.mpr (by decide)⟩

/-- A packet that ends behind the magic, and one that announces a row too many. -/
theorem packets_misbehave :
    ¬ Behaves sketch small MAGIC (fun _ => 0) ∧
    ¬ Behaves sketch ⟨200, true⟩ (MAGIC ++ [49, 74] ++ List.replicate 134 0) (fun _ => 0) := by
  constructor
  · intro h
    exact absurd (h.reads 4 (by decide)) (by decide)
  · intro h
    have hheight := h.height_le ⟨_, (List.append_assoc ..).symm⟩
      (by simp [Board.received, MAGIC]) (by decide)
    exact absurd hheight (by decide)

end

/-! ## Packets of the Python client -/

section
variable {p : Panel} {actions : List Action} (pixels : ℕ → Color)

/-- The LEDs after one more action. -/
lemma light_concat (a : Action) :
    p.light pixels (actions ++ [a]) = p.act (p.light pixels actions) a := by
  rw [Panel.light, List.foldl_append]
  rfl

/-- An LED that no call is for stays as it was. -/
lemma light_eq_self {n : ℕ} (h : ∀ x y m d, .setPixelColor x y m d ∈ actions → m.toNat ≠ n) :
    p.light pixels actions n = pixels n := by
  induction actions using List.reverseRecOn with
  | nil => rfl
  | append_singleton actions a ih =>
    have hold := ih fun x y m d hmem => h x y m d (List.mem_append_left _ hmem)
    rw [light_concat]
    cases a with
    | read k => exact hold
    | setPixelColor x y m d =>
      have hne := h x y m d (List.mem_append_right _ (List.mem_singleton_self _))
      rw [Panel.act]
      split_ifs
      · rw [Function.update_of_ne hne.symm, hold]
      · exact hold

/-- An LED that every call for it gives one colour has that colour in the end. -/
lemma light_eq {n : ℕ} {c : Color} (hn : n < p.NUMPIXELS)
    (hall : ∀ x y m d, .setPixelColor x y m d ∈ actions → m.toNat = n → d = c)
    {x y : ℕ} {m : UInt16} {d : Color} (hmem : .setPixelColor x y m d ∈ actions)
    (hm : m.toNat = n) : p.light pixels actions n = c := by
  induction actions using List.reverseRecOn with
  | nil => exact absurd hmem List.not_mem_nil
  | append_singleton actions a ih =>
    have hfront (hfront : .setPixelColor x y m d ∈ actions) : p.light pixels actions n = c :=
      ih (fun x y m d h => hall x y m d (List.mem_append_left _ h)) hfront
    rw [light_concat]
    cases a with
    | read k =>
      apply hfront
      simpa using hmem
    | setPixelColor x' y' m' d' =>
      have hlast := hall x' y' m' d' (List.mem_append_right _ (List.mem_singleton_self _))
      rw [Panel.act]
      by_cases hm' : m'.toNat = n
      · -- the last action is for this LED
        rw [if_pos (by rw [hm']; exact hn), hm', Function.update_self, hlast hm']
      · have hmem' : .setPixelColor x y m d ∈ actions := by
          rcases List.mem_append.mp hmem with h | h
          · exact h
          · rw [List.mem_singleton, Action.setPixelColor.injEq] at h
            rw [h.2.2.1] at hm
            exact absurd hm hm'
        split_ifs
        · rw [Function.update_of_ne (Ne.symm hm'), hfront hmem']
        · exact hfront hmem'

end

/-- The character `'0'+n`. -/
def digit (n : ℕ) : UInt8 := (48 + n).toUInt8

/-- A digit below 80 is not negative, whatever a `char` is. -/
lemma char_digit (board : Board) {n : ℕ} (h : n < 80) : board.char (digit n) - 48 = n := by
  have hall : ∀ n : Fin 80, (digit n).toInt8.toInt = 48 + n ∧ (digit n).toNat = 48 + n.val := by
    decide +kernel
  have hdigit := hall ⟨n, h⟩
  dsimp only at hdigit
  unfold Board.char
  split_ifs <;> omega

/-- The library keeps the byte of a `char`, sign-extended or not. -/
lemma toUInt8_toUInt16 (board : Board) (c : UInt8) : (board.toUInt16 c).toUInt8 = c := by
  have hall : ∀ c : Fin 256, (UInt16.ofInt (UInt8.ofFin c).toInt8.toInt).toUInt8 = UInt8.ofFin c ∧
      (UInt16.ofInt (UInt8.ofFin c).toNat).toUInt8 = UInt8.ofFin c := by decide +kernel
  have hbyte := hall c.toFin
  unfold Board.toUInt16 Board.char
  split_ifs
  · exact hbyte.1
  · exact hbyte.2

/-- The LED of every window shows the colours of its cell, and every other LED is as it was. -/
def ShowsCanvas (p : Panel) (board : Board) {width height seg_wins : ℕ}
    (c : Canvas width height seg_wins) (packet : List UInt8) : Prop :=
  ∀ (packetBuffer : ℕ → UInt8) (pixels : ℕ → Color),
    let led (x : Fin width) (y : Fin height) := (indirect p x.val.toUInt16 y.val.toUInt16).toNat
    let lit := p.light pixels (drawCommand p board packet packetBuffer)
    (∀ y x, ((lit (led x y)).r.toNat : ℤ) = (c.window_data y x).r ∧
      ((lit (led x y)).g.toNat : ℤ) = (c.window_data y x).g ∧
      ((lit (led x y)).b.toNat : ℤ) = (c.window_data y x).b) ∧
    ∀ n, (∀ y x, n ≠ led x y) → lit n = pixels n

/-- A canvas for the panel and the buffer: its size has digits, and its header and its windows
fit. -/
structure Suits (p : Panel) (board : Board) {width height seg_wins : ℕ}
    (c : Canvas width height seg_wins) : Prop where
  width_le : width ≤ p.COLS
  height_le : height ≤ p.ROWS
  width_lt : width < 80
  height_lt : height < 80
  fits : c.hash_passcode.length + 2 + height * (width * 4 + 1) ≤ board.UDP_TX_PACKET_MAX_SIZE
  inRange : c.InRange

section
variable {p : Panel} {board : Board} {width height seg_wins : ℕ}
  {c : Canvas width height seg_wins}

/-- The header and the windows arrive. -/
lemma Suits.arrived (h : Suits p board c) :
    c.hash_passcode.length + 2 + height * (width * 4 + 1) ≤ board.received c.packet :=
  le_min c.length_packet_ge h.fits

/-- The hash is the front of the packet. -/
lemma hash_packet {front : List UInt8} (h : front <+: c.hash_passcode) : front <+: c.packet := by
  rw [Canvas.packet, List.append_assoc, List.append_assoc, List.append_assoc]
  exact h.trans (List.prefix_append _ _)

/-- The size of the canvas is in the header. -/
lemma header_packet (h : Suits p board c)
    (hash : MAGIC ++ [digit width, digit height] <+: c.hash_passcode) :
    headerWidth board c.packet = width ∧ headerHeight board c.packet = height := by
  rcases hash_packet hash with ⟨rest, hrest⟩
  unfold headerWidth headerHeight
  rw [← hrest]
  exact ⟨char_digit board h.width_lt, char_digit board h.height_lt⟩

/-- The value `k` of a pixel is the channel `k` of its cell, when the header has twelve bytes. -/
lemma read_packet (h : Suits p board c) (hlength : c.hash_passcode.length = 10)
    (packetBuffer : ℕ → UInt8) (y : Fin height) (x : Fin width) (k : Fin 3) :
    board.read c.packet packetBuffer (subPixelPos width x y (k + 1))
      = byte ((c.window_data y x).channel k.castSucc) := by
  have hlt := subPixelPos_lt x.isLt y.isLt (by omega : k.val + 1 ≤ 3)
  have harrived := h.arrived
  have hcell := c.getElem?_packet_cell y x k.castSucc
  have hpos : c.hash_passcode.length + 2 + (y * (width * 4 + 1) + (x * 4 + k.castSucc.val))
      = subPixelPos width x y (k + 1) := by
    rw [hlength, subPixelPos, Fin.val_castSucc]
    omega
  rw [hpos] at hcell
  rw [Nat.mul_comm 4] at hlt
  rw [read_of_lt (by omega), List.getD_eq_getElem?_getD, hcell]
  rfl

/-- The colour of a cell. -/
def cellColor (c : Cell) : Color := ⟨byte c.r, byte c.g, byte c.b⟩

/-- Every call of `setPixelColor` is for a window of the canvas and has its colour. -/
lemma setPixelColor_mem_iff (h : Suits p board c)
    (hash : MAGIC ++ [digit width, digit height] <+: c.hash_passcode)
    (hlength : c.hash_passcode.length = 10) (packetBuffer : ℕ → UInt8) {x y : ℕ} {n : UInt16}
    {d : Color} :
    .setPixelColor x y n d ∈ drawCommand p board c.packet packetBuffer ↔
      ∃ (y' : Fin height) (x' : Fin width), x = x' ∧ y = y' ∧
        n = indirect p x'.val.toUInt16 y'.val.toUInt16 ∧ d = cellColor (c.window_data y' x') := by
  have hmagic : MAGIC <+: c.packet := hash_packet ((List.prefix_append _ _).trans hash)
  have harrived := h.arrived
  rcases header_packet h hash with ⟨hwidth, hheight⟩
  rw [mem_drawCommand hmagic (by omega), hwidth, hheight, Int.toNat_natCast]
  have hcolor (y : Fin height) (x : Fin width) :
      color (board.toUInt16 (board.read c.packet packetBuffer (subPixelPos width x y 1)))
        (board.toUInt16 (board.read c.packet packetBuffer (subPixelPos width x y 2)))
        (board.toUInt16 (board.read c.packet packetBuffer (subPixelPos width x y 3)))
        = cellColor (c.window_data y x) := by
    have hr := read_packet h hlength packetBuffer y x 0
    have hg := read_packet h hlength packetBuffer y x 1
    have hb := read_packet h hlength packetBuffer y x 2
    rw [color, toUInt8_toUInt16, toUInt8_toUInt16, toUInt8_toUInt16, cellColor, Color.mk.injEq]
    exact ⟨hr, hg, hb⟩
  constructor
  · -- reading the header sets no LED
    rintro (⟨k, -, heq⟩ | ⟨x', y', hx, hy, hpixel⟩)
    · exact absurd heq (by simp)
    · rcases mem_drawPixel.mp hpixel with ⟨k, -, -, heq⟩ | heq
      · exact absurd heq (by simp)
      · rw [Action.setPixelColor.injEq] at heq
        rcases heq with ⟨rfl, rfl, rfl, rfl⟩
        exact ⟨⟨y, by omega⟩, ⟨x, by omega⟩, rfl, rfl, rfl, hcolor ⟨y, by omega⟩ ⟨x, by omega⟩⟩
  · rintro ⟨y', x', rfl, rfl, rfl, rfl⟩
    refine Or.inr ⟨x', y', by omega, by omega, mem_drawPixel.mpr (Or.inr ?_)⟩
    rw [hcolor]

/-- **The panel shows the canvas.** A canvas whose hash has ten characters, of which the first
six are the magic and the digits of its size, is drawn, and its packet lights the LED of every
window with the colours of its cell, and no other LED. -/
theorem canvas_is_shown (h : Suits p board c)
    (hash : MAGIC ++ [digit width, digit height] <+: c.hash_passcode)
    (hlength : c.hash_passcode.length = 10) :
    ∃ packet, c.draw = some packet ∧ ShowsCanvas p board c packet := by
  refine ⟨c.packet, c.draw_eq_packet h.inRange, ?_⟩
  intro packetBuffer pixels led lit
  have hx (x : Fin width) : x.val < p.COLS := x.isLt.trans_le h.width_le
  have hy (y : Fin height) : y.val < p.ROWS := y.isLt.trans_le h.height_le
  have hled (x : Fin width) (y : Fin height) : led x y = p.position x y :=
    indirect_of_lt (hx x) (hy y)
  constructor
  · intro y x
    have hlit : lit (led x y) = cellColor (c.window_data y x) := by
      apply light_eq pixels _ _
        ((setPixelColor_mem_iff h hash hlength packetBuffer).mpr ⟨y, x, rfl, rfl, rfl, rfl⟩) rfl
      · exact (hled x y).trans_lt (position_lt (hx x) (hy y))
      · -- no other window has this LED
        intro x' y' m d hset hm
        rcases (setPixelColor_mem_iff h hash hlength packetBuffer).mp hset with
          ⟨y'', x'', -, -, rfl, rfl⟩
        have hsame : p.position x'' y'' = p.position x y :=
          (hled x'' y'').symm.trans (hm.trans (hled x y))
        rcases position_injective (hy y'') (hy y) hsame with ⟨hcol, hrow⟩
        rw [Fin.ext hcol, Fin.ext hrow]
    have hcell := h.inRange.windows y x
    rw [hlit]
    exact ⟨toNat_byte (hcell 0), toNat_byte (hcell 1), toNat_byte (hcell 2)⟩
  · -- an LED without a window is not set by any action
    intro n hn
    apply light_eq_self
    intro x y m d hset
    rcases (setPixelColor_mem_iff h hash hlength packetBuffer).mp hset with ⟨y', x', -, -, rfl, -⟩
    exact (hn y' x').symm

end

/-- A board with a larger buffer. -/
def large : Board := ⟨860, true⟩

/-- A canvas of three columns and two rows, redder to the right and greener to the bottom, with
the ten characters of a client. -/
def threeByTwo : Canvas 3 2 0 :=
  ⟨MAGIC ++ [digit 3, digit 2] ++ [60, 49, 56, 32], 20,
    fun y x => ⟨0, 100 * x.val, 200 * y.val, 3, 255⟩, fun w _ => w.elim0⟩

lemma suits_threeByTwo : Suits sketch large threeByTwo where
  width_le := by decide
  height_le := by decide
  width_lt := by decide
  height_lt := by decide
  fits := by decide
  inRange := by
    have hcells : ∀ (y : Fin 2) (x : Fin 3) k, IsByte ((threeByTwo.window_data y x).channel k) := by
      decide
    exact ⟨by decide, hcells, fun w _ => w.elim0⟩

/-- Its packet lights the first two LEDs of the first column, the last two of the second one,
which runs backwards, and the first two of the third one. -/
theorem canvas_is_shown_threeByTwo :
    ∃ packet, threeByTwo.draw = some packet ∧ ShowsCanvas sketch large threeByTwo packet ∧
      ∀ (packetBuffer : ℕ → UInt8) (pixels : ℕ → Color),
        let lit := sketch.light pixels (drawCommand sketch large packet packetBuffer)
        [lit 0, lit 1, lit 49, lit 48, lit 50, lit 51]
            = [⟨0, 0, 3⟩, ⟨0, 200, 3⟩, ⟨100, 0, 3⟩, ⟨100, 200, 3⟩, ⟨200, 0, 3⟩, ⟨200, 200, 3⟩] ∧
          lit 2 = pixels 2 := by
  obtain ⟨packet, hdraw, hshows⟩ := canvas_is_shown suits_threeByTwo (List.prefix_append _ _) rfl
  refine ⟨packet, hdraw, hshows, ?_⟩
  intro packetBuffer pixels lit
  have hcolor (y : Fin 2) (x : Fin 3) :
      lit (indirect sketch x.val.toUInt16 y.val.toUInt16).toNat
        = cellColor (threeByTwo.window_data y x) := by
    rcases (hshows packetBuffer pixels).1 y x with ⟨hr, hg, hb⟩
    rw [cellColor, ← hr, ← hg, ← hb, byte_toNat, byte_toNat, byte_toNat]
  constructor
  · simp only [List.cons.injEq, and_true]
    exact ⟨hcolor 0 0, hcolor 1 0, hcolor 0 1, hcolor 1 1, hcolor 0 2, hcolor 1 2⟩
  · exact (hshows packetBuffer pixels).2 2 (by decide)

/-- A canvas of one window, red 1, green 2 and blue 3, with this hash. -/
def oneWindow (hash : List UInt8) : Canvas 1 1 0 :=
  ⟨hash, 20, fun _ _ => ⟨0, 1, 2, 3, 255⟩, fun w _ => w.elim0⟩

lemma suits_oneWindow {hash : List UInt8} (h : hash.length ≤ 10) :
    Suits sketch small (oneWindow hash) where
  width_le := by decide
  height_le := by decide
  width_lt := by decide
  height_lt := by decide
  fits := by
    show hash.length + 2 + 1 * (1 * 4 + 1) ≤ 24
    omega
  inRange := by
    have hcell : Cell.InRange ⟨0, 1, 2, 3, 255⟩ := by
      unfold Cell.InRange
      decide
    have hz : IsByte 20 := by decide
    exact ⟨hz, fun _ _ => hcell, fun w _ => w.elim0⟩

/-- With the six characters alone, the LED takes the newline behind the window for its red. -/
theorem six_characters_misread :
    Suits sketch small (oneWindow (MAGIC ++ [digit 1, digit 1])) ∧
    ¬ ∃ packet, (oneWindow (MAGIC ++ [digit 1, digit 1])).draw = some packet ∧
      ShowsCanvas sketch small (oneWindow (MAGIC ++ [digit 1, digit 1])) packet := by
  refine ⟨suits_oneWindow (by decide), ?_⟩
  rintro ⟨packet, hdraw, hshows⟩
  have hpacket : (oneWindow (MAGIC ++ [digit 1, digit 1])).draw
      = some (MAGIC ++ [49, 49, 20, 10, 1, 2, 3, 255, 10]) := by decide
  rw [hpacket, Option.some.injEq] at hdraw
  subst hdraw
  have hred := ((hshows (fun _ => 0) fun _ => ⟨0, 0, 0⟩).1 0 0).1
  exact absurd hred (by decide)

end Syndilights.Displayclient.Ardupixel
