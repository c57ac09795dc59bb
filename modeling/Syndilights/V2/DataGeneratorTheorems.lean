import Syndilights.V2.DataGenerator
import Syndilights.MaskLoop
import Syndilights.Serpentine
import Syndilights.Strided

/-!
# Where the encoder puts the pixels

Every orientation but one emits the pixel at its documented place; `everyPixelOnce_iff`
says for which grids the formula of the last one is right too.
-/

namespace Syndilights.V2

/-! ## The documented orientations -/

section
variable (width height : ℕ)

/-- The number of lines. -/
def lineCount (type : ℕ) : ℕ := if type ∈ [0, 2, 4, 6] then width else height

/-- The number of pixels in a line. -/
def lineLength (type : ℕ) : ℕ := if type ∈ [0, 2, 4, 6] then height else width

/-- Column and row that the comments of `make_line` promise for position `k` of line `nb`. -/
def coordinate (type nb k : ℕ) : ℕ × ℕ :=
  match type with
  | 0 => (nb, k)
  | 1 => (k, nb)
  | 2 => (nb, height - 1 - k)
  | 3 => (k, height - 1 - nb)
  | 4 => (width - 1 - nb, k)
  | 5 => (width - 1 - k, nb)
  | 6 => (width - 1 - nb, height - 1 - k)
  | _ => (width - 1 - k, height - 1 - nb)

/-- The index in `pixels` of a column and a row. -/
def pixelIndex (p : ℕ × ℕ) : ℕ := p.2 * width + p.1

/-- The formula of `make_line` is the documented one. -/
def FormulaHolds (type : ℕ) : Prop := type ≠ 6 ∨ width = 1 ∨ height = 1

variable {width height} {type nb k nb' k' : ℕ}

lemma lineCount_mul_lineLength : lineCount width height type * lineLength width height type
    = width * height := by
  unfold lineCount lineLength
  split_ifs
  · rfl
  · exact Nat.mul_comm ..

/-- The promised place is on the grid. -/
lemma coordinate_lt (ht : type < 8) (hnb : nb < lineCount width height type)
    (hk : k < lineLength width height type) :
    (coordinate width height type nb k).1 < width ∧
      (coordinate width height type nb k).2 < height := by
  unfold lineCount at hnb
  unfold lineLength at hk
  unfold coordinate
  interval_cases type <;> simp at hnb hk ⊢ <;> omega

/-- Different positions are promised different places. -/
lemma coordinate_injective (ht : type < 8) (hnb : nb < lineCount width height type)
    (hnb' : nb' < lineCount width height type) (hk : k < lineLength width height type)
    (hk' : k' < lineLength width height type)
    (h : coordinate width height type nb k = coordinate width height type nb' k') :
    nb = nb' ∧ k = k' := by
  unfold lineCount at hnb hnb'
  unfold lineLength at hk hk'
  unfold coordinate at h
  interval_cases type <;> simp at hnb hnb' hk hk' h ⊢ <;> omega

lemma pixelIndex_lt {p : ℕ × ℕ} (h : p.1 < width ∧ p.2 < height) :
    pixelIndex width p < width * height := by
  have hrow : (p.2 + 1) * width ≤ height * width := Nat.mul_le_mul_right width h.2
  rw [Nat.add_mul, Nat.one_mul] at hrow
  rw [pixelIndex, Nat.mul_comm width height]
  omega

lemma pixelIndex_injective {p p' : ℕ × ℕ} (h : p.1 < width) (h' : p'.1 < width)
    (heq : pixelIndex width p = pixelIndex width p') : p = p' := by
  rcases Strided.row_unique h h' heq with ⟨hrow, hcol⟩
  exact Prod.ext hcol hrow

/-- The place in `pixels` that is promised for position `k` of line `nb`. -/
def promised (width height type nb k : ℕ) : ℕ :=
  pixelIndex width (coordinate width height type nb k)

lemma promised_lt (ht : type < 8) (hnb : nb < lineCount width height type)
    (hk : k < lineLength width height type) :
    promised width height type nb k < width * height :=
  pixelIndex_lt (coordinate_lt ht hnb hk)

lemma promised_injective (ht : type < 8) (hnb : nb < lineCount width height type)
    (hnb' : nb' < lineCount width height type) (hk : k < lineLength width height type)
    (hk' : k' < lineLength width height type)
    (h : promised width height type nb k = promised width height type nb' k') :
    nb = nb' ∧ k = k' :=
  coordinate_injective ht hnb hnb' hk hk' (pixelIndex_injective (coordinate_lt ht hnb hk).1
    (coordinate_lt ht hnb' hk').1 h)

end

/-! ## The formulas of `make_line` -/

section
variable {width height type nb : ℕ}

/-- The formulas of the source are the promised places. -/
lemma indexes_eq (ht : type < 8) (hgood : FormulaHolds width height type)
    (hnb : nb < lineCount width height type) :
    indexes width height type nb = some ((List.range (lineLength width height type)).map
      fun k => (promised width height type nb k : ℤ)) := by
  have hsub (n i : ℕ) (h : i < n) : ((n - 1 - i : ℕ) : ℤ) = n - 1 - i := by omega
  unfold FormulaHolds at hgood
  unfold lineCount at hnb
  unfold indexes promised pixelIndex coordinate lineLength
  interval_cases type <;> simp at hgood hnb <;> refine congrArg some (List.map_congr_left ?_) <;>
    intro k hk <;> rw [List.mem_range] at hk <;> push_cast
  · ring
  · ring
  · rw [hsub height k hk]
    ring
  · rw [hsub height nb hnb]
    ring
  · rw [hsub width nb hnb]
    ring
  · rw [hsub width k hk]
    ring
  · -- the stride `height` in place of 1 does not show in a single line or column
    rw [hsub height k hk, hsub width nb hnb]
    rcases hgood with rfl | rfl
    · have hzero : nb = 0 := by omega
      rw [hzero]
      push_cast
      ring
    · push_cast
      ring
  · rw [hsub height nb hnb, hsub width k hk]
    ring

end

/-! ## Lines and images -/

/-- A loop of lookups that all succeed. -/
lemma mapM_eq_map {α β : Type} {l : List α} {f : α → Option β} {g : α → β}
    (h : ∀ a ∈ l, f a = some (g a)) : l.mapM f = some (l.map g) := by
  induction l with
  | nil => rfl
  | cons a l ih =>
    rw [List.mapM_cons, h a List.mem_cons_self, ih fun b hb => h b (List.mem_cons_of_mem a hb)]
    rfl

section
variable {width height type nb k : ℕ} (pixels : Image width height)

/-- The pixel at an index. -/
def pixelAt (i : ℕ) : Pixel := (getitem pixels i).getD 0

/-- An index of the image is looked up. -/
lemma getitem_of_lt {i : ℕ} (h : i < width * height) :
    getitem pixels i = some (pixelAt pixels i) := by
  have hget : getitem pixels i = some (pixels ⟨i, h⟩) := by
    unfold getitem
    rw [dif_pos (by omega)]
    rfl
  rw [pixelAt, hget, Option.getD_some]

/-- The places of one line, in the order in which it is wired. -/
def wired (width height type : ℕ) (long_line : Bool) (nb : ℕ) : List ℕ :=
  let line := (List.range (lineLength width height type)).map (promised width height type nb)
  if long_line ∧ nb % 2 = 1 then line.reverse else line

/-- The lines that are wired backwards. -/
def wiredBack (long_line : Bool) (nb : ℕ) : Bool := long_line && nb % 2 == 1

lemma wired_eq (long_line : Bool) : wired width height type long_line
    = Serpentine.walked (promised width height type) (lineLength width height type)
      (wiredBack long_line) := by
  funext nb
  unfold wired Serpentine.walked wiredBack
  simp only [Bool.and_eq_true, beq_iff_eq]

lemma mem_wired {long_line : Bool} {i : ℕ} : i ∈ wired width height type long_line nb ↔
    ∃ k < lineLength width height type, promised width height type nb k = i := by
  rw [wired_eq, Serpentine.mem_walked]

lemma length_wired (long_line : Bool) :
    (wired width height type long_line nb).length = lineLength width height type := by
  rw [wired_eq, Serpentine.length_walked]

/-- A line of the image. -/
lemma make_line_eq (ht : type < 8) (hgood : FormulaHolds width height type)
    (hnb : nb < lineCount width height type) (long_line : Bool) :
    make_line pixels type nb long_line
      = some ((wired width height type long_line nb).map (pixelAt pixels)) := by
  have hline : ((List.range (lineLength width height type)).map
      fun k => (promised width height type nb k : ℤ)).mapM (getitem pixels)
        = some (((List.range (lineLength width height type)).map
          (promised width height type nb)).map (pixelAt pixels)) := by
    rw [List.mapM_map, List.map_map]
    apply mapM_eq_map
    intro k hk
    exact getitem_of_lt pixels (promised_lt ht hnb (List.mem_range.mp hk))
  unfold make_line wired
  rw [indexes_eq ht hgood hnb]
  show (Option.bind (List.mapM _ _) _) = _
  rw [hline]
  show some _ = _
  split_ifs
  · rw [List.map_reverse]
  · rfl

/-- The places of the whole image, line after line. -/
def order (width height type : ℕ) (long_line : Bool) : List ℕ :=
  (List.range (lineCount width height type)).flatMap (wired width height type long_line)

lemma order_eq (long_line : Bool) : order width height type long_line
    = Serpentine.path (promised width height type) (lineLength width height type)
      (wiredBack long_line) (lineCount width height type) := by
  rw [order, Serpentine.path, wired_eq]

/-- The lines that `image2data` loops over. -/
lemma inline_image_lines (ht : type < 8) (long_line : Bool) :
    inline_image pixels type long_line
      = (List.range (lineCount width height type)).foldlM (fun inline_image x => do
          return inline_image ++ (← make_line pixels type x long_line)) [] := by
  unfold inline_image lineCount
  interval_cases type <;> rfl

lemma inline_image_eq (ht : type < 8) (hgood : FormulaHolds width height type)
    (long_line : Bool) :
    inline_image pixels type long_line
      = some ((order width height type long_line).map (pixelAt pixels)) := by
  rw [inline_image_lines pixels ht, Strided.foldlM_append fun nb =>
    (wired width height type long_line nb).map (pixelAt pixels)]
  · rw [List.nil_append, order, List.map_flatMap]
  · intro nb hnb acc
    rw [make_line_eq pixels ht hgood (List.mem_range.mp hnb) long_line]
    rfl

end

lemma length_order {width height type : ℕ} (long_line : Bool) :
    (order width height type long_line).length = width * height := by
  rw [order, Strided.length_flatMap fun nb _ => length_wired long_line, List.length_range,
    lineCount_mul_lineLength]

section
variable {width height type : ℕ} (ht : type < 8) (long_line : Bool)
include ht

/-- No place is emitted twice. -/
lemma nodup_order : (order width height type long_line).Nodup := by
  rw [order_eq]
  apply Serpentine.nodup_path
  intro nb hnb k hk nb' hnb' k' hk' heq
  exact promised_injective ht hnb hnb' hk hk' heq

/-- Every place is emitted exactly once. -/
lemma order_perm : (order width height type long_line).Perm (List.range (width * height)) := by
  refine (List.subperm_of_subset (nodup_order ht long_line) ?_).perm_of_length_le ?_
  · intro i hi
    rcases List.mem_flatMap.mp hi with ⟨nb, hnb, hi⟩
    rcases mem_wired.mp hi with ⟨k, hk, rfl⟩
    exact List.mem_range.mpr (promised_lt ht (List.mem_range.mp hnb) hk)
  · rw [length_order, List.length_range]

end

/-! ## Every orientation emits an image -/

section
variable {width height type nb : ℕ} (pixels : Image width height)

/-- An index that is not too negative finds a pixel. -/
lemma isSome_getitem {i : ℤ} (hlo : -(width * height : ℕ) ≤ i) (hhi : i < (width * height : ℕ)) :
    ∃ p, getitem pixels i = some p := by
  unfold getitem
  by_cases hneg : 0 ≤ i
  · exact ⟨_, dif_pos ⟨hneg, hhi⟩⟩
  · rw [dif_neg (by omega), dif_pos (by omega)]
    exact ⟨_, rfl⟩

/-- The wrong stride of type 6 goes below zero, but never out of range. -/
lemma indexes_six_bound (hnb : nb < width) {k : ℕ} (hk : k < height) :
    -(width * height : ℕ) ≤ (width : ℤ) * height - 1 - nb * height - width * k ∧
      (width : ℤ) * height - 1 - nb * height - width * k < (width * height : ℕ) := by
  have hline : (nb + 1 : ℤ) * height ≤ width * height :=
    mul_le_mul_of_nonneg_right (by omega) (by omega)
  have hpos : (width : ℤ) * (k + 1) ≤ width * height :=
    mul_le_mul_of_nonneg_left (by omega) (by omega)
  have hnb0 : (0 : ℤ) ≤ nb * height := by positivity
  have hk0 : (0 : ℤ) ≤ width * k := by positivity
  push_cast
  constructor <;> linarith

/-- Every index of a line is in range, if it may count from the end. -/
lemma indexes_bound (ht : type < 8) (hnb : nb < lineCount width height type) :
    ∃ idx, indexes width height type nb = some idx ∧
      idx.length = lineLength width height type ∧
      ∀ i ∈ idx, -(width * height : ℕ) ≤ i ∧ i < (width * height : ℕ) := by
  by_cases hgood : FormulaHolds width height type
  · refine ⟨_, indexes_eq ht hgood hnb, by rw [List.length_map, List.length_range], ?_⟩
    intro i hi
    rcases List.mem_map.mp hi with ⟨k, hk, rfl⟩
    have hlt := promised_lt ht hnb (List.mem_range.mp hk)
    constructor <;> omega
  · -- type 6
    unfold FormulaHolds at hgood
    simp only [not_or, not_not] at hgood
    rcases hgood with ⟨rfl, -⟩
    refine ⟨_, rfl, by rw [List.length_map, List.length_range]; rfl, ?_⟩
    intro i hi
    rcases List.mem_map.mp hi with ⟨k, hk, rfl⟩
    exact indexes_six_bound hnb (List.mem_range.mp hk)

/-- A loop of lookups that all succeed, if only their number matters. -/
lemma exists_mapM {α β : Type} {l : List α} {f : α → Option β}
    (h : ∀ a ∈ l, ∃ b, f a = some b) : ∃ r, l.mapM f = some r ∧ r.length = l.length := by
  induction l with
  | nil => exact ⟨[], rfl, rfl⟩
  | cons a l ih =>
    rcases h a List.mem_cons_self with ⟨b, hb⟩
    obtain ⟨r, hr, hlen⟩ := ih fun a' ha' => h a' (List.mem_cons_of_mem a ha')
    refine ⟨b :: r, ?_, congrArg (· + 1) hlen⟩
    rw [List.mapM_cons, hb, hr]
    rfl

/-- Every orientation emits as many pixels as the image has. -/
lemma exists_inline_image (ht : type < 8) (long_line : Bool) :
    ∃ image, inline_image pixels type long_line = some image ∧
      image.length = width * height := by
  have hline (nb : ℕ) (hnb : nb < lineCount width height type) :
      ∃ line, make_line pixels type nb long_line = some line ∧
        line.length = lineLength width height type := by
    rcases indexes_bound ht hnb with ⟨idx, hidx, hlen, hbound⟩
    obtain ⟨line, hline, hlen'⟩ := exists_mapM fun i hi =>
      isSome_getitem pixels (hbound i hi).1 (hbound i hi).2
    unfold make_line
    rw [hidx]
    show ∃ line, Option.bind (List.mapM _ _) _ = some line ∧ _
    rw [hline]
    refine ⟨_, rfl, ?_⟩
    split_ifs
    · rw [List.length_reverse, hlen', hlen]
    · rw [hlen', hlen]
  let line (nb : ℕ) : List Pixel := (make_line pixels type nb long_line).getD []
  have hlines (nb : ℕ) (hnb : nb ∈ List.range (lineCount width height type)) :
      make_line pixels type nb long_line = some (line nb) ∧
        (line nb).length = lineLength width height type := by
    rcases hline nb (List.mem_range.mp hnb) with ⟨l, hl, hlen⟩
    simp only [line, hl, Option.getD_some, true_and]
    exact hlen
  refine ⟨(List.range (lineCount width height type)).flatMap line, ?_, ?_⟩
  · rw [inline_image_lines pixels ht, Strided.foldlM_append line, List.nil_append]
    intro nb hnb acc
    rw [(hlines nb hnb).1]
    rfl
  · rw [Strided.length_flatMap fun nb hnb => (hlines nb hnb).2, List.length_range,
      lineCount_mul_lineLength]

end

/-! ## The channels of a pixel -/

/-- Eight bits of a pixel, from bit `n` on. -/
def channel (c : Pixel) (n : ℕ) : UInt8 := ⟨c.extractLsb' n 8⟩

lemma getLsbD_channel (c : Pixel) (n : ℕ) {j : ℕ} (hj : j < 8) :
    (channel c n).toBitVec.getLsbD j = c.getLsbD (n + j) := by
  rw [channel, BitVec.getLsbD_extractLsb', decide_eq_true hj, Bool.true_and]

/-- Shifting and masking is taking bits. -/
lemma shift_and_eq (c : Pixel) (n : ℕ) : ((c >>> n) &&& 0xFF).toNat.toUInt8 = channel c n := by
  apply UInt8.toBitVec_inj.mp
  apply BitVec.eq_of_getLsbD_eq
  intro j hj
  have hmask : (0xFF : Pixel).getLsbD j = true := by
    interval_cases j <;> rfl
  have hlow : (((c >>> n) &&& 0xFF).toNat.toUInt8).toBitVec.getLsbD j
      = ((c >>> n) &&& 0xFF).getLsbD j := by
    show (BitVec.ofNat 8 _).getLsbD j = _
    rw [BitVec.getLsbD_ofNat, decide_eq_true hj, Bool.true_and]
    rfl
  rw [hlow, BitVec.getLsbD_and, hmask, Bool.and_true, BitVec.getLsbD_ushiftRight,
    getLsbD_channel c n hj]

/-- Red is in the bits 16 to 23 of a pixel, green in the bits 8 to 15, blue in the bits 0 to 7. -/
lemma color_to_rgb_eq (c : Pixel) : color_to_rgb c = (channel c 16, channel c 8, channel c 0) := by
  have hblue := shift_and_eq c 0
  rw [BitVec.ushiftRight_zero] at hblue
  rw [color_to_rgb, Prod.mk.injEq, Prod.mk.injEq]
  exact ⟨shift_and_eq c 16, shift_and_eq c 8, hblue⟩

/-! ## The bytes -/

section
variable (scale : UInt8 → UInt8)

/-- The bytes of a pixel are pulses. -/
def IsPulse (b : UInt8) : Prop := b = 0x00 ∨ b = 0xFF

lemma length_encode_pixel (p : Pixel) : (encode_pixel scale p).length = 24 := by
  simp [encode_pixel, encode_color_grb, byte_lookup]

lemma isPulse_of_mem_byte_lookup {i b : UInt8} (h : b ∈ byte_lookup i) : IsPulse b := by
  rcases List.mem_map.mp h with ⟨j, -, rfl⟩
  split_ifs
  · exact Or.inl rfl
  · exact Or.inr rfl

lemma isPulse_of_mem_encode_pixel {p : Pixel} {b : UInt8} (h : b ∈ encode_pixel scale p) :
    IsPulse b := by
  rcases List.mem_append.mp h with h | h
  · rcases List.mem_append.mp h with h | h
    · exact isPulse_of_mem_byte_lookup h
    · exact isPulse_of_mem_byte_lookup h
  · exact isPulse_of_mem_byte_lookup h

/-- The payload of an image. -/
def payload (image : List Pixel) : List UInt8 := image.flatMap (encode_pixel scale)

/-- The byte of a bit. -/
def pulse (bit : Bool) : UInt8 := if bit then 0b11111111 else 0b00000000

/-- The bytes of the table are the bits of the number. -/
lemma byte_lookup_eq : ∀ i : UInt8, byte_lookup i = (MaskLoop.bits i.toNat 8).map pulse := by
  have hall : ∀ x : Fin 256, byte_lookup (UInt8.ofFin x)
      = (MaskLoop.bits (UInt8.ofFin x).toNat 8).map pulse := by decide +kernel
  exact fun i => hall i.toFin

/-- `(G<<16)|(R<<8)|B` of the scaled channels. -/
def scaled_color (c : Pixel) : ℕ :=
  ((scale (channel c 8)).toNat <<< 16) ||| ((scale (channel c 16)).toNat <<< 8) |||
    (scale (channel c 0)).toNat

/-- The bits of three channels in one number. -/
lemma bits_channels (g r b : UInt8) :
    MaskLoop.bits ((g.toNat <<< 16) ||| (r.toNat <<< 8) ||| b.toNat) 24
      = MaskLoop.bits g.toNat 8 ++ MaskLoop.bits r.toNat 8 ++ MaskLoop.bits b.toNat 8 := by
  have hshift : (g.toNat <<< 16) ||| (r.toNat <<< 8) = ((g.toNat <<< 8) ||| r.toNat) <<< 8 := by
    rw [Nat.shiftLeft_or_distrib, ← Nat.shiftLeft_add]
  rw [hshift, MaskLoop.bits_append _ b.toNat_lt 16, MaskLoop.bits_append _ r.toNat_lt 8]

/-- The bytes of a pixel are the bits of its scaled channels. -/
lemma encode_pixel_eq (c : Pixel) :
    encode_pixel scale c = (MaskLoop.bits (scaled_color scale c) 24).map pulse := by
  rw [scaled_color, bits_channels, List.map_append, List.map_append, encode_pixel,
    encode_color_grb, color_to_rgb_eq, byte_lookup_eq, byte_lookup_eq, byte_lookup_eq]

lemma length_payload (image : List Pixel) : (payload scale image).length = image.length * 24 :=
  Strided.length_flatMap fun p _ => length_encode_pixel scale p

lemma isPulse_payload {image : List Pixel} : ∀ b ∈ payload scale image, IsPulse b := by
  intro b hb
  rcases List.mem_flatMap.mp hb with ⟨p, -, hb⟩
  exact isPulse_of_mem_encode_pixel scale hb

end

/-- What `write` leaves in `data`: the bytes between what was there before. -/
lemma write_eq (seen : List Int8) {rest : List Int8} {bytes : List UInt8}
    (h : bytes.length ≤ rest.length) :
    write (seen ++ rest) seen.length bytes
      = some (seen ++ bytes.map signed ++ rest.drop bytes.length) := by
  induction bytes generalizing seen rest with
  | nil => simp [write]
  | cons b bytes ih =>
    cases rest with
    | nil => exact absurd h (by simp)
    | cons r rest =>
      rw [List.length_cons, List.length_cons] at h
      have hstep := ih (seen ++ [signed b]) (show bytes.length ≤ rest.length by omega)
      rw [List.length_append, List.length_singleton] at hstep
      rw [write, if_pos (by simp), List.set_append_right _ _ (by omega), Nat.sub_self,
        List.set_cons_zero, ← List.singleton_append, ← List.append_assoc, hstep]
      simp

/-- The data that is sent for an image: its payload and the newline. -/
theorem image2data_eq {width height : ℕ} {scale : UInt8 → UInt8} {pixels : Image width height}
    {type : ℕ} {long_line : Bool} {image : List Pixel}
    (himage : inline_image pixels type long_line = some image)
    (hlen : image.length = width * height) {data : List Int8}
    (hdata : data.length = width * height * 24 + 1) :
    image2data scale pixels data type long_line
      = some ((payload scale image).map signed ++ [10]) := by
  have hpayload := length_payload scale image
  rw [hlen] at hpayload
  have hwrite := write_eq [] (show (payload scale image).length ≤ data.length by omega)
  rw [List.nil_append, List.nil_append] at hwrite
  -- one old byte is left, the place of the newline
  obtain ⟨last, hlast⟩ : ∃ last, data.drop (payload scale image).length = [last] := by
    apply List.length_eq_one_iff.mp
    rw [List.length_drop]
    omega
  rw [hlast] at hwrite
  unfold image2data
  rw [himage]
  show Option.bind (write data 0 (payload scale image)) _ = _
  rw [← List.length_nil (α := Int8), hwrite]
  show (if _ then _ else _) = _
  rw [if_neg (by simp), List.set_append_right _ _ (by simp)]
  simp

/-! ## The documented order -/

/-- Every pixel is shown exactly once and at its documented place, for every image. -/
structure EveryPixelOnce (width height type : ℕ) : Prop where
  line : ∀ (pixels : Image width height) nb k, nb < lineCount width height type →
    k < lineLength width height type →
    ∃ l p, make_line pixels type nb false = some l ∧
      l.length = lineLength width height type ∧ l[k]? = some p ∧
      getitem pixels (pixelIndex width (coordinate width height type nb k)) = some p
  in_range : ∀ nb, nb < lineCount width height type →
    ∃ idx, indexes width height type nb = some idx ∧ ∀ i ∈ idx, 0 ≤ i ∧ i < (width * height : ℕ)
  permutation : ∀ long_line, ∃ order : List ℕ, order.Perm (List.range (width * height)) ∧
    ∀ pixels : Image width height,
      inline_image pixels type long_line = order.mapM fun (i : ℕ) => getitem pixels i
  bytes : ∀ long_line scale (pixels : Image width height) (data : List Int8),
    data.length = width * height * 24 + 1 →
    ∃ image sent, inline_image pixels type long_line = some image ∧
      image2data scale pixels data type long_line = some (sent ++ [10]) ∧
      sent = (image.flatMap (encode_pixel scale)).map signed ∧ sent.length = 24 * (width * height)

section
variable {width height type : ℕ}

/-- The formulas that are right show every pixel once. -/
lemma everyPixelOnce_of_formulaHolds (ht : type < 8) (hgood : FormulaHolds width height type) :
    EveryPixelOnce width height type where
  line pixels nb k hnb hk := by
    refine ⟨_, pixelAt pixels (promised width height type nb k),
      make_line_eq pixels ht hgood hnb false, ?_, ?_, ?_⟩
    · rw [List.length_map, length_wired]
    · rw [wired, if_neg (by simp), List.getElem?_map, List.getElem?_map, List.getElem?_range hk]
      rfl
    · exact getitem_of_lt pixels (promised_lt ht hnb hk)
  in_range nb hnb := by
    refine ⟨_, indexes_eq ht hgood hnb, ?_⟩
    intro i hi
    rcases List.mem_map.mp hi with ⟨k, hk, rfl⟩
    have hlt := promised_lt ht hnb (List.mem_range.mp hk)
    constructor <;> omega
  permutation long_line := by
    refine ⟨order width height type long_line, order_perm ht long_line, fun pixels => ?_⟩
    rw [inline_image_eq pixels ht hgood, mapM_eq_map]
    intro i hi
    exact getitem_of_lt pixels (List.mem_range.mp ((order_perm ht long_line).mem_iff.mp hi))
  bytes long_line scale pixels data hdata := by
    rcases exists_inline_image pixels ht long_line with ⟨image, himage, hlen⟩
    refine ⟨image, _, himage, image2data_eq himage hlen hdata, rfl, ?_⟩
    rw [List.length_map, length_payload, hlen, Nat.mul_comm]

/-- Without `long_line` a line is what its indexes are looked up to. -/
lemma make_line_false {pixels : Image width height} {nb : ℕ} {line : List Pixel}
    (h : make_line pixels type nb false = some line) :
    ∃ idx, indexes width height type nb = some idx ∧ idx.mapM (getitem pixels) = some line := by
  unfold make_line at h
  rcases Option.bind_eq_some_iff.mp h with ⟨idx, hidx, h⟩
  rcases Option.bind_eq_some_iff.mp h with ⟨line', hline, h⟩
  rw [if_neg (by simp)] at h
  exact ⟨idx, hidx, hline.trans h⟩

/-- A list of lookups, looked up. -/
lemma getElem?_mapM {α β : Type} {l : List α} {f : α → Option β} {r : List β}
    (h : l.mapM f = some r) (k : ℕ) : r[k]? = l[k]?.bind f := by
  induction l generalizing r k with
  | nil =>
    obtain rfl : [] = r := Option.some.inj h
    simp
  | cons a l ih =>
    rw [List.mapM_cons, Option.bind_eq_bind, Option.bind_eq_some_iff] at h
    rcases h with ⟨b, hb, h⟩
    rw [Option.bind_eq_bind, Option.bind_eq_some_iff] at h
    rcases h with ⟨r', hr', heq⟩
    obtain rfl : b :: r' = r := Option.some.inj heq
    cases k with
    | zero => exact hb.symm
    | succ k => exact ih hr' k

/-- The second column of type 6 starts `height` pixels before the last one. -/
lemma make_line_six (hw : 2 ≤ width) (hh : 2 ≤ height) {pixels : Image width height}
    {l : List Pixel} (hline : make_line pixels 6 1 false = some l) :
    l[0]? = getitem pixels ((width - 1) * height - 1 : ℕ) := by
  have hcolumn : height ≤ (width - 1) * height := Nat.le_mul_of_pos_left height (by omega)
  have hindex : (width : ℤ) * height - 1 - 1 * height - width * 0
      = ((width - 1) * height - 1 : ℕ) := by
    have hle : 1 * height ≤ width * height := Nat.mul_le_mul_right height (by omega)
    have hcast : (((width - 1) * height : ℕ) : ℤ) = width * height - height := by
      rw [Nat.sub_mul, Nat.cast_sub hle]
      push_cast
      ring
    omega
  obtain ⟨idx, hidx, hmapM⟩ := make_line_false hline
  obtain rfl := Option.some.inj hidx
  have hfirst := getElem?_mapM hmapM 0
  rw [List.getElem?_map, List.getElem?_range (by omega)] at hfirst
  rw [← hindex]
  exact hfirst

/-- With an image whose last pixel but one is unique, one sees it: that pixel is promised
at the start of the second column, and another one is there. -/
lemma not_everyPixelOnce_six (hw : 2 ≤ width) (hh : 2 ≤ height) :
    ¬ EveryPixelOnce width height 6 := by
  intro hall
  have hsize : width * height = (width - 1) * height + height := by
    rw [← Nat.succ_mul, Nat.succ_eq_add_one, Nat.sub_add_cancel (by omega)]
  have hcolumn : height ≤ (width - 1) * height := Nat.le_mul_of_pos_left height (by omega)
  -- an image that tells the promised pixel from the one that is read
  let pixels : Image width height := fun i => if i.val = width * height - 2 then 1 else 0
  obtain ⟨line, p, hline, -, hp, hplace⟩ := hall.line pixels 1 0
    (show 1 < width by omega) (show 0 < height by omega)
  have hpromised : pixelIndex width (coordinate width height 6 1 0) = width * height - 2 := by
    show (height - 1 - 0) * width + (width - 1 - 1) = width * height - 2
    have hrow : (height - 1) * width + width = width * height := by
      rw [← Nat.succ_mul, Nat.succ_eq_add_one, Nat.sub_add_cancel (by omega), Nat.mul_comm]
    rw [Nat.sub_zero]
    omega
  have hone : p = 1 := by
    have hget : getitem pixels (width * height - 2 : ℕ) = some 1 := by
      unfold getitem
      rw [dif_pos (by omega)]
      exact congrArg some (if_pos rfl)
    rw [hpromised, hget] at hplace
    exact (Option.some.inj hplace).symm
  have hzero : p = 0 := by
    have hne : (width - 1) * height - 1 ≠ width * height - 2 := by omega
    have hget : getitem pixels ((width - 1) * height - 1 : ℕ) = some 0 := by
      unfold getitem
      rw [dif_pos (by omega)]
      exact congrArg some (if_neg hne)
    rw [make_line_six hw hh hline, hget] at hp
    exact (Option.some.inj hp).symm
  rw [hone] at hzero
  exact absurd hzero (by decide)

/-- **Exactly where the orientations are right.** All but the one that starts at the bottom
right and goes up, whose stride from line to line is `height` where it should be 1; a
single row or column does not show it. -/
theorem everyPixelOnce_iff (hw : 1 ≤ width) (hh : 1 ≤ height) (ht : type < 8) :
    EveryPixelOnce width height type ↔ type ≠ 6 ∨ width = 1 ∨ height = 1 := by
  constructor
  · intro hall
    by_contra hbad
    simp only [not_or, not_not] at hbad
    rcases hbad with ⟨rfl, hw', hh'⟩
    exact not_everyPixelOnce_six (by omega) (by omega) hall
  · exact everyPixelOnce_of_formulaHolds ht

end

/-- The installation of the example sketch: 15 columns, 25 rows, type 2; and with type 6. -/
theorem everyPixelOnce_iff_sketch : EveryPixelOnce 15 25 2 ∧ ¬ EveryPixelOnce 15 25 6 :=
  ⟨(everyPixelOnce_iff (by decide) (by decide) (by decide)).mpr (by decide),
    (everyPixelOnce_iff (by decide) (by decide) (by decide)).not.mpr (by decide)⟩

/-- Four pixels, from the bottom right upwards. -/
theorem bottom_right_up_misses : ¬ EveryPixelOnce 2 2 6 :=
  not_everyPixelOnce_six (by decide) (by decide)

end Syndilights.V2
