import Syndilights.V2.OctoWS2811
import Syndilights.V2.PipelineTheorems

/-!
# The LED driver reads back what was encoded

`getPixel` masks the bits of one strip out of the bytes; a pulse has the same bit for each
strip, so all of them show the image.
-/

namespace Syndilights.V2

/-! ## Memories -/

section
variable {memory : ℕ → UInt8}

/-- The first byte, and the others. -/
lemma Holds.cons {b : UInt8} {bytes : List UInt8} (h : Holds memory (b :: bytes)) :
    memory 0 = b ∧ Holds (fun i => memory (i + 1)) bytes := by
  constructor
  · exact (Option.some.inj (h 0 (Nat.zero_lt_succ _))).symm
  · intro k hk
    exact h (k + 1) (Nat.succ_lt_succ hk)

/-- Chunks of equal length, each at its place. -/
lemma Holds.chunk {α : Type} {l : List α} {f : α → List UInt8} {n : ℕ}
    (hf : ∀ a ∈ l, (f a).length = n) (h : Holds memory (l.flatMap f)) {k : ℕ} {a : α}
    (ha : l[k]? = some a) : Holds (fun i => memory (k * n + i)) (f a) := by
  have hmem := List.mem_of_getElem? ha
  have hlen := hf a hmem
  intro i hi
  have hbyte := Strided.getElem?_flatMap hf (i := k) (show i < n by omega)
  rw [ha, Option.bind_some, List.getElem?_eq_getElem hi] at hbyte
  have hall := h (k * n + i) (List.getElem?_eq_some_iff.mp hbyte).1
  rw [hbyte] at hall
  rw [List.getElem?_eq_getElem hi]
  exact hall

end

/-! ## The mask loop -/

/-- A pulse has the bit of its strip. -/
lemma pulse_and_ne_zero {bit : UInt8} (hbit : bit ≠ 0) (b : Bool) :
    pulse b &&& bit ≠ 0 ↔ b = true := by
  cases b with
  | true =>
    have hall : pulse true &&& bit = bit := UInt8.neg_one_and
    rw [hall]
    exact iff_of_true hbit rfl
  | false =>
    have hnone : pulse false &&& bit = 0 := UInt8.zero_and
    rw [hnone]
    exact iff_of_false (fun h => h rfl) Bool.false_ne_true

namespace OctoWS2811

/-- The loop of `getPixel` collects the bits of the number whose pulses are in the buffer. -/
lemma run_collect {drawBuffer : ℕ → UInt8} {bit : UInt8} (hbit : bit ≠ 0) (v n color p : ℕ)
    (h : Holds (fun i => drawBuffer (p + i)) ((MaskLoop.bits v (n + 1)).map pulse)) :
    MaskLoop.run (m := Id) (fun mask (color, p) =>
        (if drawBuffer p &&& bit ≠ 0 then color ||| mask else color, p + 1)) (2 ^ n) (color, p)
      = (color ||| v % 2 ^ (n + 1), p + (n + 1)) := by
  -- on the number of bits, highest first, so that the rest is the same loop one byte on
  induction n generalizing color p with
  | zero =>
    rcases h.cons with ⟨hbyte, -⟩
    have htest : drawBuffer p &&& bit ≠ 0 ↔ v.testBit 0 = true := by
      rw [show drawBuffer p = pulse (v.testBit 0) from hbyte]
      exact pulse_and_ne_zero hbit _
    have hmod := MaskLoop.or_mod_two_pow v 0
    rw [MaskLoop.run_two_pow_zero, ← hmod, pow_zero, Nat.mod_one, Nat.or_zero]
    cases hcase : v.testBit 0 <;> simp [htest, hcase]
  | succ n ih =>
    rw [MaskLoop.bits_succ, List.map_cons] at h
    rcases h.cons with ⟨hbyte, hrest⟩
    have htest : drawBuffer p &&& bit ≠ 0 ↔ v.testBit (n + 1) = true := by
      rw [show drawBuffer p = pulse (v.testBit (n + 1)) from hbyte]
      exact pulse_and_ne_zero hbit _
    have hnext : Holds (fun i => drawBuffer (p + 1 + i))
        ((MaskLoop.bits v (n + 1)).map pulse) := by
      intro k hk
      dsimp only
      rw [Nat.add_assoc, Nat.add_comm 1]
      exact hrest k hk
    rw [MaskLoop.run_two_pow_succ]
    show MaskLoop.run _ (2 ^ n) (if drawBuffer p &&& bit ≠ 0 then _ else _, p + 1) = _
    rw [ih _ _ hnext, ← MaskLoop.or_mod_two_pow v (n + 1), ← Nat.or_assoc, Nat.add_assoc,
      Nat.add_comm 1]
    cases hcase : v.testBit (n + 1) <;> simp [htest, hcase]

/-- The bit of a strip. -/
lemma bit_ne_zero : ∀ s < 8, (1 <<< s).toUInt8 ≠ 0 := by decide

/-- An LED of one strip. -/
lemma getPixel_of_holds {stripLen : UInt16} {drawBuffer : ℕ → UInt8} {s k v : ℕ} (hs : s < 8)
    (hk : k < stripLen.toNat) (hv : v < 2 ^ 24)
    (h : Holds (fun i => drawBuffer (k * 24 + i)) ((MaskLoop.bits v 24).map pulse)) :
    getPixel ⟨stripLen, drawBuffer, 0⟩ (s * stripLen.toNat + k) = v := by
  have hstrip : (s * stripLen.toNat + k) / stripLen.toNat = s := by
    rw [Nat.mul_comm, Nat.mul_add_div (by omega), Nat.div_eq_of_lt hk, Nat.add_zero]
  have hoffset : (s * stripLen.toNat + k) % stripLen.toNat = k := by
    rw [Nat.mul_comm, Nat.mul_add_mod, Nat.mod_eq_of_lt hk]
  unfold getPixel
  dsimp only
  rw [hstrip, hoffset]
  rw [show 1 <<< 23 = 2 ^ 23 from rfl, run_collect (bit_ne_zero s hs) v 23 0 (k * 24) h,
    Nat.zero_or, Nat.mod_eq_of_lt hv]
  rfl

end OctoWS2811

/-! ## Images -/

section
variable (scale : UInt8 → UInt8)

lemma scaled_color_lt (c : Pixel) : scaled_color scale c < 2 ^ 24 := by
  have hchannel (i : UInt8) (n : ℕ) (hn : n ≤ 16) : i.toNat <<< n < 2 ^ 24 := by
    rw [Nat.shiftLeft_eq]
    calc i.toNat * 2 ^ n < 2 ^ 8 * 2 ^ n := Nat.mul_lt_mul_of_pos_right i.toNat_lt (by positivity)
      _ = 2 ^ (8 + n) := (pow_add ..).symm
      _ ≤ 2 ^ 24 := Nat.pow_le_pow_right (by decide) (by omega)
  unfold scaled_color
  apply Nat.or_lt_two_pow
  · exact Nat.or_lt_two_pow (hchannel _ 16 (by decide)) (hchannel _ 8 (by decide))
  · exact hchannel _ 0 (by decide)

/-- Every strip of the driver shows these pixels when its buffer starts with these bytes. -/
def ReadsBack (bytes : List UInt8) (image : List Pixel) : Prop :=
  ∀ (stripLen : UInt16) (drawingMemory : ℕ → UInt8), image.length ≤ stripLen.toNat →
    Holds drawingMemory bytes → ∀ s < 8, ∀ k c, image[k]? = some c →
      OctoWS2811.getPixel ⟨stripLen, drawingMemory, 0⟩ (s * stripLen.toNat + k)
        = scaled_color scale c

/-- The bytes of the pixels, in any order of them. -/
lemma readsBack_payload (image : List Pixel) : ReadsBack scale (payload scale image) image := by
  intro stripLen drawingMemory hfits hholds s hs k c hc
  have hk : k < image.length := (List.getElem?_eq_some_iff.mp hc).1
  have hchunk := hholds.chunk (fun p _ => length_encode_pixel scale p) hc
  rw [encode_pixel_eq] at hchunk
  exact OctoWS2811.getPixel_of_holds hs (by omega) (scaled_color_lt scale c) hchunk

/-- **The LED driver reads back what was encoded.** Whatever the order of the pixels, each
strip of the driver shows their scaled colours; `image2data` sends such bytes for each of its
orders. -/
theorem getPixel_image2data :
    (∀ image : List Pixel, ReadsBack scale (image.flatMap (encode_pixel scale)) image) ∧
    ∀ {width height : ℕ} (pixels : Image width height) (type : ℕ) (long_line : Bool)
      (data : List Int8), type < 8 → data.length = width * height * 24 + 1 →
      ∃ image sent, inline_image pixels type long_line = some image ∧
        image.length = width * height ∧
        image2data scale pixels data type long_line = some (sent ++ [10]) ∧
        ReadsBack scale (sent.map Int8.toUInt8) image := by
  refine ⟨readsBack_payload scale, ?_⟩
  intro width height pixels type long_line data ht hdata
  rcases exists_inline_image pixels ht long_line with ⟨image, himage, hlen⟩
  refine ⟨image, _, himage, hlen, image2data_eq himage hlen hdata, ?_⟩
  rw [Session.map_toUInt8_signed]
  exact readsBack_payload scale image

end

/-- An orange and a sky blue pixel, from the top right to the left, with half of the brightness:
the strip starts with the blue one, whose green is 60, red 10 and blue 127. -/
theorem getPixel_image2data_two :
    let pixels : Image 2 1 := ![0xFFFF8000#32, 0xFF1478FF#32]
    ∃ sent, image2data (fun c => c / 2) pixels (prepare_data 2) 5 true = some (sent ++ [10]) ∧
      ∀ drawingMemory, Holds drawingMemory (sent.map Int8.toUInt8) → ∀ s < 8,
        OctoWS2811.getPixel ⟨3, drawingMemory, 0⟩ (s * 3 + 0) = 0x3C0A7F ∧
        OctoWS2811.getPixel ⟨3, drawingMemory, 0⟩ (s * 3 + 1) = 0x407F00 := by
  intro pixels
  obtain ⟨image, sent, himage, -, hsent, hreads⟩ :=
    (getPixel_image2data fun c => c / 2).2 pixels 5 true (prepare_data 2) (by decide) rfl
  obtain rfl : [0xFF1478FF#32, 0xFFFF8000#32] = image := Option.some.inj himage
  refine ⟨sent, hsent, ?_⟩
  intro drawingMemory hholds s hs
  have hread := hreads 3 drawingMemory (by decide) hholds s hs
  exact ⟨hread 0 _ rfl, hread 1 _ rfl⟩

end Syndilights.V2
