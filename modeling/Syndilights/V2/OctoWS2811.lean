import Syndilights.MaskLoop

/-!
# The LED driver

`OctoWS2811`: eight strips of LEDs. A byte of the drawing buffer holds one bit for each of
them, and 24 bytes hold the colours of eight LEDs.
-/

namespace Syndilights.V2

/-- The static members that the functions on single pixels read. -/
structure OctoWS2811 where
  stripLen : UInt16
  drawBuffer : ℕ → UInt8
  params : UInt8

namespace OctoWS2811

/-- `attach`: the length is cut off to 16 bits. -/
def attach (numPerStrip : UInt32) (drawBuf : ℕ → UInt8) (config : UInt8) : OctoWS2811 where
  stripLen := numPerStrip.toUInt16
  drawBuffer := drawBuf
  params := config

/-- The colour order of `params`. The bits that a shift of the 32-bit `color` loses are not
in the masks either. -/
def color_order (params : UInt8) (color : ℕ) : ℕ :=
  match (params &&& 7).toNat with
  -- WS2811_RBG
  | 1 => (color &&& 0xFF0000) ||| ((color <<< 8) &&& 0x00FF00) ||| ((color >>> 8) &&& 0x0000FF)
  -- WS2811_GRB
  | 2 => ((color <<< 8) &&& 0xFF0000) ||| ((color >>> 8) &&& 0x00FF00) ||| (color &&& 0x0000FF)
  -- WS2811_GBR
  | 3 => ((color <<< 8) &&& 0xFFFF00) ||| ((color >>> 16) &&& 0x0000FF)
  | _ => color

/-- `getPixel`. -/
def getPixel (o : OctoWS2811) (num : ℕ) : ℕ :=
  let strip := num / o.stripLen.toNat
  let offset := num % o.stripLen.toNat
  let bit := (1 <<< strip).toUInt8
  let p := offset * 24
  let read := MaskLoop.run (m := Id) (fun mask (color, p) =>
    (if o.drawBuffer p &&& bit ≠ 0 then color ||| mask else color, p + 1)) (1 <<< 23) (0, p)
  color_order o.params read.1

/-- `setPixel`, for the unsigned reading of `color`. A shift by 32 or more, which C leaves
undefined, is taken to leave no bit. -/
def setPixel (o : OctoWS2811) (num color : ℕ) : OctoWS2811 :=
  let color := color_order o.params color
  let strip := num / o.stripLen.toNat
  let offset := num % o.stripLen.toNat
  let bit := (1 <<< strip).toUInt8
  let p := offset * 24
  let written := MaskLoop.run (m := Id) (fun mask (drawBuffer, p) =>
    (Function.update drawBuffer p
      (if color &&& mask ≠ 0 then drawBuffer p ||| bit else drawBuffer p &&& ~~~bit), p + 1))
    (1 <<< 23) (o.drawBuffer, p)
  { o with drawBuffer := written.1 }

end OctoWS2811

end Syndilights.V2
