import Syndilights.Frameserver.Blend

/-!
# Opaque and transparent channels

At alpha 255 the factor `temp_alpha` is exactly 1 and at alpha 0 exactly 0, also in the
arithmetic of `float`: the channel is replaced, or left as it is.
-/

namespace Syndilights.Frameserver

open AlphaArith

/-! ## The arithmetic of `float` at alpha 0 and 255 -/

/-- A property of all bytes is decided byte by byte. -/
instance decidableForallByte {P : UInt8 → Prop} [DecidablePred P] : Decidable (∀ b, P b) :=
  decidable_of_iff (∀ x : Fin 256, P (UInt8.ofFin x))
    ⟨fun h b => h b.toFin, fun h x => h (UInt8.ofFin x)⟩

lemma tempAlpha_opaque : tempAlpha Float32 255 = ofByte 1 := by decide +kernel

lemma tempAlpha_transparent : tempAlpha Float32 0 = ofByte 0 := by decide +kernel

lemma float_one_sub_one : (ofByte 1 - ofByte 1 : Float32) = ofByte 0 := by decide +kernel

lemma float_one_sub_zero : (ofByte 1 - ofByte 0 : Float32) = ofByte 1 := by decide +kernel

lemma float_zero_mul : ∀ b : UInt8, (ofByte 0 * ofByte b : Float32) = ofByte 0 := by
  decide +kernel

lemma float_one_mul : ∀ b : UInt8, (ofByte 1 * ofByte b : Float32) = ofByte b := by
  decide +kernel

lemma float_zero_add : ∀ b : UInt8, (ofByte 0 + ofByte b : Float32) = ofByte b := by
  decide +kernel

lemma float_add_zero : ∀ b : UInt8, (ofByte b + ofByte 0 : Float32) = ofByte b := by
  decide +kernel

/-- A byte survives the conversion to `float`, to `int` and the clamp. -/
lemma clamp_toInt : ∀ b : UInt8, clamp (toInt (ofByte b : Float32)) = b := by
  decide +kernel

/-- A channel with alpha 255 hides what is below it. -/
lemma blend_opaque (old new : UInt8) : blend Float32 255 old new = new := by
  rw [blend, pixel, tempAlpha_opaque, float_one_sub_one, float_zero_mul, float_one_mul,
    float_zero_add, clamp_toInt]

/-- A channel with alpha 0 leaves what is below it. -/
lemma blend_transparent (old new : UInt8) : blend Float32 0 old new = old := by
  rw [blend, pixel, tempAlpha_transparent, float_one_sub_zero, float_zero_mul, float_one_mul,
    float_add_zero, clamp_toInt]

end Syndilights.Frameserver
