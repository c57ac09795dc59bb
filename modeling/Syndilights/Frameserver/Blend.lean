import Syndilights.Frameserver.Defines

/-!
# The alpha arithmetic of `Server::mix`

`mix` computes every channel as

  `pixel = (1-temp_alpha)*old + temp_alpha*new`,  `temp_alpha = (float)alpha/255`,

and converts the result to `int` before it clamps it to a byte. The expression is written
once over an `AlphaArith`; the source's `float` is IEEE binary32 (`Float32`), and `ℚ` is
the same expression in exact rational arithmetic.
-/

namespace Syndilights.Frameserver

/-- The number type of `temp_alpha`: the arithmetic of the expression, the conversion of
a byte, and the truncating conversion to `int`. -/
class AlphaArith (F : Type) extends Add F, Sub F, Mul F, Div F where
  ofByte : UInt8 → F
  toInt : F → ℤ

/-- C's `float`. The conversion to a 32-bit `int` is the one of the model of `Float32`. -/
instance : AlphaArith Float32 where
  ofByte := UInt8.toFloat32
  toInt x := x.toModel.toInt32.toInt

/-- Exact rationals. -/
instance : AlphaArith ℚ where
  ofByte b := b.toNat
  toInt x := x.num.tdiv x.den

open AlphaArith

variable (F : Type) [AlphaArith F]

/-- `temp_alpha = (float)alpha/255`. -/
def tempAlpha (alpha : UInt8) : F := ofByte alpha / ofByte 255

variable {F}

/-- The value of `pixel` for one channel. -/
def pixel (temp_alpha : F) (old new : UInt8) : ℤ :=
  toInt ((ofByte 1 - temp_alpha) * ofByte old + temp_alpha * ofByte new)

/-- The clamp: the byte stored for a `pixel`. -/
def clamp (pixel : ℤ) : UInt8 :=
  if pixel ≥ 255 then 255
  else if pixel ≤ 0 then 0
  else pixel.toNat.toUInt8

variable (F)

/-- One channel of the frame after a source with this alpha and value is blended in. -/
def blend (alpha old new : UInt8) : UInt8 := clamp (pixel (tempAlpha F alpha) old new)

end Syndilights.Frameserver
