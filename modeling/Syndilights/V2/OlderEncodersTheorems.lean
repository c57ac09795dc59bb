import Syndilights.V2.OlderEncoders
import Syndilights.V2.DataGeneratorTheorems

/-!
# Three encoders, one payload

The mask loop over eight copies of a pixel writes the bytes that the table holds, and the
slices of the rows are the lines of the first orientation to the right.
-/

namespace Syndilights.V2

/-! ## Writing -/

section
variable {data : List Int8} {offset : ℕ}

lemma write_cons (b : UInt8) (bytes : List UInt8) :
    write data offset (b :: bytes)
      = (write data offset [b]).bind fun data => write data (offset + 1) bytes := by
  rw [write, write, write]
  split_ifs <;> rfl

/-- Writing in two parts. -/
lemma write_append (front back : List UInt8) :
    write data offset (front ++ back)
      = (write data offset front).bind fun data => write data (offset + front.length) back := by
  induction front generalizing data offset with
  | nil => rfl
  | cons b front ih =>
    rw [List.cons_append, write_cons, write_cons b front, Option.bind_assoc]
    congr 1
    funext data
    rw [ih, List.length_cons, Nat.add_assoc, Nat.add_comm 1]

end

/-! ## The bytes of a pixel -/

namespace PixelControl

/-- All copies of the pixel have the same bit. -/
lemma plane_eq (v n : ℕ) : plane (fun _ => v) (2 ^ n) = pulse (v.testBit n) := by
  have hbit := MaskLoop.and_two_pow_ne_zero v n
  unfold plane pulse
  cases hcase : v.testBit n with
  | true =>
    have htest : (v &&& 2 ^ n ≠ 0) = True := eq_true (hbit.mpr hcase)
    simp only [htest, if_true]
    decide
  | false =>
    have htest : (v &&& 2 ^ n ≠ 0) = False := eq_false fun h => by simp [hbit.mp h] at hcase
    simp only [htest, if_false]
    decide

/-- The mask loop writes the bits of the number. -/
lemma run_plane (v n : ℕ) (data : List Int8) (offset : ℕ) :
    MaskLoop.run (fun imgmask (data, offset) => do
        let b := plane (fun _ => v) imgmask
        let data ← write data offset [b]
        return (data, offset + 1)) (2 ^ n) (data, offset)
      = (write data offset ((MaskLoop.bits v (n + 1)).map pulse)).map
          fun data => (data, offset + (n + 1)) := by
  induction n generalizing data offset with
  | zero =>
    rw [MaskLoop.run_two_pow_zero, MaskLoop.bits_succ, MaskLoop.bits_zero]
    dsimp only
    rw [plane_eq]
    show _ = (write data offset [pulse (v.testBit 0)]).map _
    cases write data offset [pulse (v.testBit 0)] <;> rfl
  | succ n ih =>
    rw [MaskLoop.run_two_pow_succ, MaskLoop.bits_succ, List.map_cons, write_cons]
    dsimp only
    rw [plane_eq]
    cases write data offset [pulse (v.testBit (n + 1))] with
    | none => rfl
    | some data =>
      show MaskLoop.run _ (2 ^ n) (data, offset + 1) = _
      rw [ih, Nat.add_assoc, Nat.add_comm 1]
      rfl

section
variable {gammatable : UInt8 → ℕ} {scale : UInt8 → UInt8}
  (hgamma : ∀ c, gammatable c >>> 8 = (scale c).toNat)
include hgamma

/-- The number of a pixel are its corrected channels. -/
lemma colorWiring_eq (c : Pixel) : colorWiring gammatable c = scaled_color scale c := by
  have hred : (c &&& 0xFF0000) >>> 16 = (c >>> 16) &&& 0xFF := BitVec.ushiftRight_and_distrib ..
  have hgreen : (c &&& 0x00FF00) >>> 8 = (c >>> 8) &&& 0xFF := BitVec.ushiftRight_and_distrib ..
  have hchannels := color_to_rgb_eq c
  rw [color_to_rgb, Prod.mk.injEq, Prod.mk.injEq] at hchannels
  unfold colorWiring scaled_color
  rw [hred, hgreen, ← hchannels.1, ← hchannels.2.1, ← hchannels.2.2]
  simp only [hgamma]

/-- **One pixel.** The mask loop writes what the table holds. -/
lemma emit_eq (px : Pixel) (s : List Int8 × ℕ) : emit gammatable px s = Random.emit scale px s := by
  rcases s with ⟨data, offset⟩
  unfold emit Random.emit
  dsimp only
  rw [length_encode_pixel, encode_pixel_eq, ← colorWiring_eq hgamma]
  show MaskLoop.run _ (2 ^ 23) (data, offset) = _
  rw [run_plane]
  cases write data offset ((MaskLoop.bits (colorWiring gammatable px) 24).map pulse) <;> rfl

end

end PixelControl

/-! ## Rows -/

section
variable {width height nb : ℕ}

/-- A slice of the pixels. -/
lemma slice_eq (pixels : Image width height) (hnb : nb < height) :
    slice pixels (nb * width) (nb * width + width)
      = (List.range width).map fun k => pixelAt pixels (nb * width + k) := by
  have hrow : (nb + 1) * width ≤ height * width := Nat.mul_le_mul_right width hnb
  rw [Nat.add_mul, Nat.one_mul, Nat.mul_comm height] at hrow
  unfold slice
  rw [Nat.add_sub_cancel_left]
  apply List.ext_getElem
  · rw [List.length_take, List.length_drop, List.length_ofFn, List.length_map, List.length_range]
    omega
  · intro k hk hk'
    rw [List.length_map, List.length_range] at hk'
    have hget := getitem_of_lt pixels (show nb * width + k < width * height by omega)
    unfold getitem at hget
    rw [dif_pos (by omega), Option.some.injEq] at hget
    rw [List.getElem_take, List.getElem_drop, List.getElem_ofFn, List.getElem_map,
      List.getElem_range, ← hget]
    rfl

/-- The number of the pixel tells the parity of the row. -/
lemma odd_line_eq (hw : 1 ≤ width) (long_line : Bool) :
    odd_line width (nb * width) long_line = some (wiredBack long_line nb) := by
  unfold odd_line wiredBack
  cases long_line
  · rfl
  · rw [if_neg (by simp), if_neg (by omega), Nat.mul_div_cancel nb hw, Bool.true_and]

/-- A row in the order in which it is written is a line of the first orientation to the
right. -/
lemma line_eq (pixels : Image width height) (hnb : nb < height) (long_line : Bool) :
    (if wiredBack long_line nb then (slice pixels (nb * width) (nb * width + width)).reverse
      else slice pixels (nb * width) (nb * width + width))
      = (wired width height 1 long_line nb).map (pixelAt pixels) := by
  rw [slice_eq pixels hnb, wired_eq, Serpentine.walked]
  have hline : ((List.range (lineLength width height 1)).map (promised width height 1 nb)).map
      (pixelAt pixels) = (List.range width).map fun k => pixelAt pixels (nb * width + k) := by
    rw [List.map_map]
    rfl
  split_ifs
  · rw [List.map_reverse, hline]
  · rw [hline]

section
variable (scale : UInt8 → UInt8)

/-- What the table writes for a row. -/
lemma foldlM_next_pixel (line : List Pixel) (data : List Int8) (offset pixel_nb : ℕ) :
    line.foldlM (next_pixel (Random.emit scale)) (data, offset, pixel_nb)
      = (write data offset (payload scale line)).map fun data =>
          (data, offset + (payload scale line).length, pixel_nb + line.length) := by
  induction line generalizing data offset pixel_nb with
  | nil => rfl
  | cons px line ih =>
    have hpayload : payload scale (px :: line) = encode_pixel scale px ++ payload scale line := rfl
    rw [List.foldlM_cons, hpayload, write_append]
    unfold next_pixel Random.emit
    dsimp only
    cases write data offset (encode_pixel scale px) with
    | none => rfl
    | some data =>
      show line.foldlM (next_pixel (Random.emit scale)) _ = _
      rw [ih, List.length_append, List.length_cons, Nat.add_assoc, Nat.add_assoc, Nat.add_comm 1]
      rfl

/-- What the table writes for the first rows. -/
lemma foldlM_next_line (hw : 1 ≤ width) (pixels : Image width height) (long_line : Bool)
    (data : List Int8) (offset : ℕ) {n : ℕ} (hn : n ≤ height) :
    let lines := (List.range n).flatMap fun nb =>
      (wired width height 1 long_line nb).map (pixelAt pixels)
    (List.range n).foldlM (fun s _ => next_line (Random.emit scale) pixels long_line s)
        (data, offset, 0)
      = (write data offset (payload scale lines)).map fun data =>
          (data, offset + (payload scale lines).length, n * width) := by
  -- on the lines: `pixel` is behind the last one
  induction n with
  | zero =>
    rw [Nat.zero_mul]
    rfl
  | succ n ih =>
    dsimp only at ih ⊢
    rw [List.range_succ, List.foldlM_append, ih (by omega), List.flatMap_append,
      List.flatMap_singleton]
    unfold payload
    rw [List.flatMap_append, write_append]
    cases write data offset _ with
    | none => rfl
    | some data =>
      show next_line (Random.emit scale) pixels long_line _ >>= pure = _
      rw [bind_pure, next_line, odd_line_eq hw]
      show List.foldlM _ _ (if wiredBack long_line n then _ else _) = _
      dsimp only
      rw [line_eq pixels (by omega), foldlM_next_pixel, List.length_map, length_wired,
        List.length_append, Nat.add_mul, Nat.one_mul, Nat.add_assoc]
      rfl

/-- **The table, row by row.** It writes the payload of the first orientation to the right. -/
lemma each_line_eq (hw : 1 ≤ width) (pixels : Image width height) (long_line : Bool)
    (data : List Int8) (offset : ℕ) :
    each_line (Random.emit scale) pixels long_line data offset
      = write data offset (payload scale ((order width height 1 long_line).map
          (pixelAt pixels))) := by
  have hrows := foldlM_next_line scale hw pixels long_line data offset le_rfl
  dsimp only at hrows
  rw [← List.map_flatMap] at hrows
  unfold each_line
  rw [hrows]
  show _ = write data offset (payload scale (((List.range height).flatMap _).map _))
  cases write data offset _ <;> rfl

end

end

/-! ## The same payload -/

section
variable {width height : ℕ} {scale : UInt8 → UInt8} {gammatable : UInt8 → ℕ}

/-- **Three encoders, one payload.** With the same correction of the channels, the mask loop
writes the same bytes behind its header that the table writes, row by row or along the lines
of type 1. -/
theorem encoders_agree (hw : 1 ≤ width) (hgamma : ∀ c, gammatable c >>> 8 = (scale c).toNat)
    (pixels : Image width height) (long_line : Bool) (pixelControl random tcp : List Int8)
    (hpixelControl : pixelControl.length = width * height * 24 + 3)
    (hrandom : random.length = width * height * 24 + 1)
    (htcp : tcp.length = width * height * 24 + 1) :
    ∃ sent : List Int8, sent.length = 24 * width * height ∧
      PixelControl.image2data gammatable pixels pixelControl long_line
        = some (pixelControl.take 3 ++ sent) ∧
      Random.image2data scale pixels random long_line = some (sent ++ [10]) ∧
      image2data scale pixels tcp 1 long_line = some (sent ++ [10]) := by
  have himage := inline_image_eq pixels (by decide : 1 < 8) (Or.inl (by decide)) long_line
  set image := (order width height 1 long_line).map (pixelAt pixels)
  have hlen : image.length = width * height := by rw [List.length_map, length_order]
  have hpayload := length_payload scale image
  rw [hlen] at hpayload
  refine ⟨(payload scale image).map signed, ?_, ?_, ?_, image2data_eq himage hlen htcp⟩
  · rw [List.length_map, hpayload]
    ring
  · -- the mask loop writes between the header and the end
    have hemit : PixelControl.emit gammatable = Random.emit scale := by
      funext px s
      exact PixelControl.emit_eq hgamma px s
    have hheader : (pixelControl.take 3).length = 3 := by
      rw [List.length_take]
      omega
    have hroom : (pixelControl.drop 3).length = (payload scale image).length := by
      rw [List.length_drop]
      omega
    have hwrite := write_eq (pixelControl.take 3) hroom.ge
    rw [List.take_append_drop, hheader, List.drop_of_length_le hroom.le, List.append_nil] at hwrite
    rw [PixelControl.image2data, hemit, each_line_eq scale hw, hwrite]
  · -- the table writes the same data as for type 1
    rw [← image2data_eq himage hlen hrandom, Random.image2data, each_line_eq scale hw, image2data,
      himage]
    rfl

end

/-- Two pixels, one above the other, with half of the brightness. -/
theorem encoders_agree_column :
    ∃ sent : List Int8, sent.length = 24 * 1 * 2 ∧
      PixelControl.image2data (fun c => c.toNat / 2 * 256) (fun _ => 0xFFFF8000#32 : Image 1 2)
        (List.replicate 51 0) true = some ((List.replicate 51 0).take 3 ++ sent) ∧
      Random.image2data (fun c => c / 2) (fun _ => 0xFFFF8000#32 : Image 1 2)
        (List.replicate 49 0) true = some (sent ++ [10]) ∧
      image2data (fun c => c / 2) (fun _ => 0xFFFF8000#32 : Image 1 2) (List.replicate 49 0) 1 true
        = some (sent ++ [10]) := by
  apply encoders_agree (by decide)
  · intro c
    rw [Nat.shiftRight_eq_div_pow, UInt8.toNat_div]
    exact Nat.mul_div_cancel _ (by decide)
  · rfl
  · rfl
  · rfl

end Syndilights.V2
