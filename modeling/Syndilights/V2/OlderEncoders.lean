import Syndilights.MaskLoop
import Syndilights.V2.DataGenerator

/-!
# The older image encoders

`PixelControl.pyde`, which collects the bits of eight copies of a pixel, and
`Random/data_generator.py`, which looks its bytes up. Both go through the image row by row.
-/

namespace Syndilights.V2

/-! ## Rows -/

section
variable {width height : ℕ}

/-- `pixels[start:stop]`. -/
def slice (pixels : Image width height) (start stop : ℕ) : List Pixel :=
  ((List.ofFn pixels).drop start).take (stop - start)

/-- `long_line and pixel_nb/width%2 == 1`, a division of integers. -/
def odd_line (width pixel_nb : ℕ) (long_line : Bool) : Option Bool :=
  if long_line = false then some false
  else if width = 0 then none
  else some (pixel_nb / width % 2 == 1)

section
variable (emit : Pixel → List Int8 × ℕ → Option (List Int8 × ℕ))

/-- The body of the loop over a row. `emit` writes a pixel into the data, at the offset; the
last number is `pixel_nb`. -/
def next_pixel (s : List Int8 × ℕ × ℕ) (px : Pixel) : Option (List Int8 × ℕ × ℕ) := do
  let (data, offset) ← emit px (s.1, s.2.1)
  return (data, offset, s.2.2 + 1)

/-- The body of the loop over the rows. -/
def next_line (pixels : Image width height) (long_line : Bool) (s : List Int8 × ℕ × ℕ) :
    Option (List Int8 × ℕ × ℕ) := do
  let pixel_line := slice pixels s.2.2 (s.2.2 + width)
  let odd ← odd_line width s.2.2 long_line
  (if odd then pixel_line.reverse else pixel_line).foldlM (next_pixel emit) s

/-- The loop over the rows. -/
def each_line (pixels : Image width height) (long_line : Bool) (data : List Int8) (offset : ℕ) :
    Option (List Int8) := do
  let s ← (List.range height).foldlM (fun s _ => next_line emit pixels long_line s) (data, offset, 0)
  return s.1

end

end

/-! ## `PixelControl.pyde` -/

namespace PixelControl

section
variable (gammatable : UInt8 → ℕ)

/-- `colorWiring`. -/
def colorWiring (c : Pixel) : ℕ :=
  let red := ((c &&& 0xFF0000) >>> 16).toNat.toUInt8
  let green := ((c &&& 0x00FF00) >>> 8).toNat.toUInt8
  let blue := (c &&& 0x0000FF).toNat.toUInt8
  let red := gammatable red >>> 8
  let green := gammatable green >>> 8
  let blue := gammatable blue >>> 8
  (green <<< 16) ||| (red <<< 8) ||| blue

/-- The byte of a mask: bit `i` is that of copy `i` of the pixel. -/
def plane (pixel : Fin 8 → ℕ) (imgmask : ℕ) : UInt8 :=
  (List.finRange 8).foldl
    (fun b i => if pixel i &&& imgmask ≠ 0 then b ||| (1 <<< i.val).toUInt8 else b) 0

/-- The loop over the mask. -/
def emit (px : Pixel) (s : List Int8 × ℕ) : Option (List Int8 × ℕ) :=
  let pixel : Fin 8 → ℕ := fun _ => colorWiring gammatable px
  MaskLoop.run (fun imgmask (data, offset) => do
    let b := plane pixel imgmask
    let data ← write data offset [b]
    return (data, offset + 1)) 0x800000 s

/-- `image2data` of `PixelControl.pyde`. -/
def image2data {width height : ℕ} (pixels : Image width height) (data : List Int8)
    (long_line : Bool) : Option (List Int8) :=
  each_line (emit gammatable) pixels long_line data 3

end

end PixelControl

/-! ## `Random/data_generator.py` -/

namespace Random

section
variable (scale : UInt8 → UInt8)

/-- The loop over the bytes of a pixel. -/
def emit (px : Pixel) (s : List Int8 × ℕ) : Option (List Int8 × ℕ) := do
  let py_bytes := encode_pixel scale px
  let data ← write s.1 s.2 py_bytes
  return (data, s.2 + py_bytes.length)

/-- `image2data` of `Random/data_generator.py`. -/
def image2data {width height : ℕ} (pixels : Image width height) (data : List Int8)
    (long_line : Bool) : Option (List Int8) := do
  let data ← each_line (emit scale) pixels long_line data 0
  -- new line, `data[-1] = 10`
  if data = [] then none else return data.set (data.length - 1) 10

end

end Random

end Syndilights.V2
