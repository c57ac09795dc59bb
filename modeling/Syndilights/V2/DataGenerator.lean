import Mathlib.Tactic

/-!
# The image encoder of the v2 client

`data_generator.py`: the order in which the pixels of an image go down the LED strip, and
the 24 bytes of each pixel. A Python exception is `none`.
-/

namespace Syndilights.V2

/-! ## Pixels -/

/-- A pixel of Processing's `pixels`, a 32-bit colour. -/
abbrev Pixel := BitVec 32

/-- `pixels` of a window of this size. -/
abbrev Image (width height : ℕ) := Fin (width * height) → Pixel

/-- `pixels[px]`: a negative index counts from the end. -/
def getitem {n : ℕ} (pixels : Fin n → Pixel) (px : ℤ) : Option Pixel :=
  if h : 0 ≤ px ∧ px < n then some (pixels ⟨px.toNat, by omega⟩)
  else if h : -n ≤ px ∧ px < 0 then some (pixels ⟨(px + n).toNat, by omega⟩)
  else none

/-! ## The bytes of a pixel -/

/-- `_byte_lookup`: one byte for each bit, the highest bit first. -/
def byte_lookup (i : UInt8) : List UInt8 :=
  (List.range 8).map fun j =>
    if (i >>> (7 - j).toUInt8) &&& 1 = 0 then 0b00000000 else 0b11111111

/-- Convert a 24 bit color to RGB triplets. The mask cuts off what a shift of a negative
number fills in. -/
def color_to_rgb (c : Pixel) : UInt8 × UInt8 × UInt8 :=
  (((c >>> 16) &&& 0xFF).toNat.toUInt8, ((c >>> 8) &&& 0xFF).toNat.toUInt8,
    (c &&& 0xFF).toNat.toUInt8)

section
variable (scale : UInt8 → UInt8)

/-- Encode an RGB tuple into NeoPixel GRB 24 byte SPI bit stream. `scale c` is the key
`int(c * brightness)` of the table. -/
def encode_color_grb (c : UInt8 × UInt8 × UInt8) : List UInt8 :=
  byte_lookup (scale c.2.1) ++ byte_lookup (scale c.1) ++ byte_lookup (scale c.2.2)

/-- `_encode_pixel`. -/
def encode_pixel (c : Pixel) : List UInt8 := encode_color_grb scale (color_to_rgb c)

end

/-! ## The order of the pixels -/

section
variable (width height : ℕ)

/-- The `indexes` of `make_line`. -/
def indexes (type nb : ℕ) : Option (List ℤ) :=
  let w : ℤ := width
  let h : ℤ := height
  match type with
  | 0 =>
    -- top left -> down
    let pxstart : ℤ := nb
    some ((List.range height).map fun (k : ℕ) => pxstart + w * k)
  | 1 =>
    -- top left -> right
    let pxstart := nb * w
    some ((List.range width).map fun (k : ℕ) => pxstart + k)
  | 2 =>
    -- bottom left -> up
    let pxstart := w * (h - 1) + nb
    some ((List.range height).map fun (k : ℕ) => pxstart - w * k)
  | 3 =>
    -- bottom left -> right
    let pxstart := w * (h - 1) - nb * w
    some ((List.range width).map fun (k : ℕ) => pxstart + k)
  | 4 =>
    -- top right -> down
    let pxstart := w - 1 - nb
    some ((List.range height).map fun (k : ℕ) => pxstart + w * k)
  | 5 =>
    -- top right -> left
    let pxstart := w - 1 + nb * w
    some ((List.range width).map fun (k : ℕ) => pxstart - k)
  | 6 =>
    -- bottom right -> up
    let pxstart := w * h - 1 - nb * h
    some ((List.range height).map fun (k : ℕ) => pxstart - w * k)
  | 7 =>
    -- bottom right -> left
    let pxstart := w * h - 1 - nb * w
    some ((List.range width).map fun (k : ℕ) => pxstart - k)
  | _ => none

variable {width height}

/-- `make_line`. -/
def make_line (pixels : Image width height) (type nb : ℕ) (long_line : Bool) :
    Option (List Pixel) := do
  let line ← (← indexes width height type nb).mapM (getitem pixels)
  return if long_line ∧ nb % 2 = 1 then line.reverse else line

/-- `inline_image` of `image2data`. -/
def inline_image (pixels : Image width height) (type : ℕ) (long_line : Bool) :
    Option (List Pixel) :=
  let lines :=
    -- organized up or down
    if type ∈ [0, 2, 4, 6] then List.range width
    -- organized left or right
    else if type ∈ [1, 3, 5, 7] then List.range height
    else []
  lines.foldlM (fun inline_image x => do
    return inline_image ++ (← make_line pixels type x long_line)) []

end

/-! ## The data that is sent -/

/-- Convert to signed bytes (expected by jarray). -/
def signed (b : UInt8) : Int8 :=
  if b > 127 then Int8.ofInt (b.toNat - 256) else Int8.ofInt b.toNat

/-- Write bytes into `data` from `offset` on. -/
def write (data : List Int8) (offset : ℕ) : List UInt8 → Option (List Int8)
  | [] => some data
  | b :: bytes =>
    if offset < data.length then write (data.set offset (signed b)) (offset + 1) bytes else none

/-- `data` of `prepare_data`. -/
def prepare_data (dimension : ℕ) : List Int8 := List.replicate (dimension * 24 + 1) 0

/-- `image2data`. -/
def image2data {width height : ℕ} (scale : UInt8 → UInt8) (pixels : Image width height)
    (data : List Int8) (type : ℕ) (long_line : Bool) : Option (List Int8) := do
  let inline_image ← inline_image pixels type long_line
  let data ← write data 0 (inline_image.flatMap (encode_pixel scale))
  -- new line, `data[-1] = 10`
  if data = [] then none else return data.set (data.length - 1) 10

end Syndilights.V2
