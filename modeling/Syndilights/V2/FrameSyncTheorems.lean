import Mathlib.Data.Rat.Floor
import Syndilights.V2.FrameSync

/-!
# When the delay survives the header

The lower byte of the delay is always stored with 256 taken away, the upper one never. Both are
signed bytes only for a large lower and a small upper byte.
-/

namespace Syndilights.V2

/-! ## The delay -/

section
variable {framerate : ℚ}

/-- The delay is three quarters of the frame time, in whole microseconds. -/
lemma usec_eq (h : 0 < framerate) : usec framerate = ⌊750000 / framerate⌋ := by
  have hquotient : 1000000 / framerate * (3 / 4) = 750000 / framerate := by
    field_simp
    norm_num
  have hnonneg : 0 ≤ 750000 / framerate := by positivity
  rw [usec, int, hquotient, if_neg (not_lt.mpr hnonneg)]

lemma usec_nonneg (h : 0 < framerate) : 0 ≤ usec framerate := by
  rw [usec_eq h]
  exact Int.floor_nonneg.mpr (by positivity)

/-- Between two whole numbers of microseconds. -/
lemma usec_mem_iff (h : 0 < framerate) (a b : ℤ) :
    (a ≤ usec framerate ∧ usec framerate < b) ↔
      framerate * a ≤ 750000 ∧ 750000 < framerate * b := by
  rw [usec_eq h, Int.le_floor, Int.floor_lt, le_div_iff₀ h, div_lt_iff₀ h, mul_comm framerate,
    mul_comm framerate]

end

/-! ## The header -/

lemma store_eq {data : List Int8} {offset : ℕ} {value : ℤ} (hoffset : offset < data.length)
    (hmin : -128 ≤ value) (hmax : value ≤ 127) :
    store data offset value = some (data.set offset (Int8.ofInt value)) :=
  if_pos ⟨hoffset, hmin, hmax⟩

lemma store_eq_none {value : ℤ} (h : value < -128 ∨ 127 < value) (data : List Int8)
    (offset : ℕ) : store data offset value = none :=
  if_neg fun hstore => by omega

/-- What is stored is the residue of the value. -/
lemma toNat_toUInt8_ofInt (value : ℤ) : ((Int8.ofInt value).toUInt8.toNat : ℤ) = value % 256 := by
  show ((BitVec.ofInt 8 value).toNat : ℤ) = value % 256
  rw [BitVec.toNat_ofInt]
  omega

/-- The delay is stored when both values are signed bytes. -/
def Fits (delay : ℤ) : Prop := 128 ≤ delay % 256 ∧ -128 ≤ delay / 256 ∧ delay / 256 ≤ 127

instance (delay : ℤ) : Decidable (Fits delay) :=
  inferInstanceAs (Decidable (128 ≤ delay % 256 ∧ -128 ≤ delay / 256 ∧ delay / 256 ≤ 127))

/-- The three bytes of the header. -/
def fields (delay : ℤ) : List Int8 := [42, Int8.ofInt (delay % 256 - 256), Int8.ofInt (delay / 256)]

/-- What the sketches write in front of the image. -/
lemma header_eq {framerate : ℚ} (h : framerate ≠ 0) {data : List Int8} (hdata : 3 ≤ data.length) :
    header framerate data =
      if Fits (usec framerate) then some (fields (usec framerate) ++ data.drop 3) else none := by
  match data, hdata with
  | _ :: _ :: _ :: rest, _ =>
    have hshift : usec framerate >>> (8 : ℕ) = usec framerate / 256 := Int.shiftRight_eq_div_pow _ 8
    have hlower : usec framerate % 256 - 2 ^ 8 ≤ 127 := by omega
    unfold header
    rw [store_eq (by simp) (by decide) (by decide), hshift]
    simp only [Option.bind_eq_bind, Option.bind_some, if_neg h]
    by_cases hlow : 128 ≤ usec framerate % 256
    · rw [store_eq (by simp) (by omega) hlower, Option.bind_some]
      by_cases hhigh : -128 ≤ usec framerate / 256 ∧ usec framerate / 256 ≤ 127
      · rw [if_pos ⟨hlow, hhigh⟩, store_eq (by simp) hhigh.1 hhigh.2]
        rfl
      · rw [if_neg fun hfits => hhigh hfits.2]
        exact store_eq_none (by omega) _ _
    · rw [if_neg fun hfits => hlow hfits.1, store_eq_none (by omega)]
      rfl

/-! ## Reading it back -/

/-- The controller reads the two bytes as one number. -/
lemma from_bytes_fields {delay : ℤ} (hnonneg : 0 ≤ delay) (hfits : Fits delay) :
    from_bytes (((fields delay).drop 1).map Int8.toUInt8) = delay.toNat := by
  have hlow := toNat_toUInt8_ofInt (delay % 256 - 256)
  have hhigh := toNat_toUInt8_ofInt (delay / 256)
  unfold Fits at hfits
  show (Int8.ofInt (delay % 256 - 256)).toUInt8.toNat +
    256 * ((Int8.ofInt (delay / 256)).toUInt8.toNat + 256 * 0) = delay.toNat
  omega

/-- A whole frame has arrived. -/
lemma readFrame_eq {sizeof : ℕ} {field image : List UInt8} (hfield : field.length = 2)
    (himage : sizeof ≤ image.length) :
    VideoDisplay.readFrame sizeof (field ++ image) =
      (some (from_bytes field, image.take sizeof), image.drop sizeof) := by
  have hwhole : (image.take sizeof).length ≥ sizeof := by
    rw [List.length_take, Nat.min_eq_left himage]
  unfold VideoDisplay.readFrame
  rw [List.take_left' hfield, List.drop_left' hfield]
  dsimp only
  rw [if_neg (not_not.mpr hfield), if_pos hwhole]

/-- A whole frame behind the start character `*`. -/
lemma loop_master {sizeof : ℕ} {field image : List UInt8} (hfield : field.length = 2)
    (himage : sizeof ≤ image.length) :
    VideoDisplay.loop sizeof (42 :: (field ++ image)) =
      (.master (from_bytes field) (image.take sizeof), image.drop sizeof) := by
  unfold VideoDisplay.loop
  dsimp only
  rw [readFrame_eq hfield himage]
  rfl

/-- What the sketch made is sent with an image behind it, and the controller takes the delay
and its drawing memory from it. -/
def Survives (result : Option (List Int8)) (delay : ℤ) : Prop :=
  ∃ data, result = some data ∧ ∀ (sizeof : ℕ) (image : List Int8), sizeof ≤ image.length →
    VideoDisplay.loop sizeof ((data.take 3 ++ image).map Int8.toUInt8) =
      (.master delay.toNat ((image.map Int8.toUInt8).take sizeof),
        (image.map Int8.toUInt8).drop sizeof)

/-- Whatever the header is written over. -/
lemma survives_header_iff {framerate : ℚ} (h : 0 < framerate) {data : List Int8}
    (hdata : 3 ≤ data.length) :
    Survives (header framerate data) (usec framerate) ↔ Fits (usec framerate) := by
  rw [header_eq h.ne' hdata]
  constructor
  · rintro ⟨data, hresult, -⟩
    by_contra hfits
    rw [if_neg hfits] at hresult
    exact absurd hresult (by simp)
  · intro hfits
    refine ⟨_, if_pos hfits, fun sizeof image himage => ?_⟩
    have hbytes : ((fields (usec framerate) ++ data.drop 3).take 3 ++ image).map Int8.toUInt8 =
        42 :: (((fields (usec framerate)).drop 1).map Int8.toUInt8 ++ image.map Int8.toUInt8) := by
      rw [List.map_append]
      rfl
    rw [hbytes, loop_master rfl (by rwa [List.length_map]),
      from_bytes_fields (usec_nonneg h) hfits]

/-- The delays that fit, by their framerates. -/
lemma fits_usec_iff {framerate : ℚ} (h : 0 < framerate) :
    Fits (usec framerate) ↔ ∃ k : ℕ, k < 128 ∧
      framerate * (256 * k + 128) ≤ 750000 ∧ 750000 < framerate * (256 * k + 256) := by
  have hnonneg := usec_nonneg h
  have hblock (k : ℕ) : (framerate * (256 * k + 128) ≤ 750000 ∧
      750000 < framerate * (256 * k + 256)) ↔
      256 * (k : ℤ) + 128 ≤ usec framerate ∧ usec framerate < 256 * k + 256 := by
    rw [usec_mem_iff h]
    push_cast
    rfl
  simp only [hblock]
  unfold Fits
  constructor
  · intro hfits
    refine ⟨(usec framerate / 256).toNat, ?_, ?_, ?_⟩ <;> omega
  · rintro ⟨k, hk, hmin, hmax⟩
    omega

/-- **When the delay survives.** Exactly for the framerates whose delay lies in the upper half
of one of the first 128 blocks of 256 microseconds. -/
theorem delay_survives_iff (framerate : ℚ) (h : 0 < framerate) (dimension : ℕ) :
    Survives (PixelControl.prepare_data framerate dimension) (usec framerate) ↔
      ∃ k : ℕ, k < 128 ∧
        framerate * (256 * k + 128) ≤ 750000 ∧ 750000 < framerate * (256 * k + 256) := by
  rw [PixelControl.prepare_data, survives_header_iff h, fits_usec_iff h]
  rw [List.length_replicate]
  omega

/-- The framerate of both sketches. -/
theorem delay_survives_iff_thirty : Survives (PixelControl.prepare_data 30 4000) (usec 30) :=
  (delay_survives_iff 30 (by norm_num) 4000).mpr ⟨97, by norm_num⟩

/-- `pic2serialpy.pyde` has no other framerate. -/
lemma draw_survives {data : List Int8} (hdata : 3 ≤ data.length) :
    Survives (Pic2serialpy.draw data) (usec 30) :=
  (survives_header_iff (by norm_num) hdata).mpr ((fits_usec_iff (by norm_num)).mpr ⟨97, by norm_num⟩)

/-- With 25 frames in a second the delay is 30000 = 117 * 256 + 48, and -208 is no signed
byte. -/
theorem delay_of_twentyfive : usec 25 = 30000 ∧
    PixelControl.prepare_data 25 4000 = none ∧
    ¬Survives (PixelControl.prepare_data 25 4000) (usec 25) := by
  have husec : usec 25 = 30000 := by
    rw [usec_eq (by norm_num)]
    norm_num
  have hnone : PixelControl.prepare_data 25 4000 = none := by
    rw [PixelControl.prepare_data, header_eq (by norm_num) (by rw [List.length_replicate]; omega),
      husec]
    exact if_neg (by decide)
  refine ⟨husec, hnone, ?_⟩
  rw [hnone]
  rintro ⟨data, hdata, -⟩
  exact absurd hdata (by simp)

end Syndilights.V2
