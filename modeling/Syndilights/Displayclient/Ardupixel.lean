import Mathlib.Tactic

/-!
# The neopixel display

`drawCommand` of `ardupixel.ino`, for one packet. What it does is a list of actions: the bytes
of `packetBuffer` it reads, and its calls of `setPixelColor`. The size of the buffer comes
with the Ethernet library, and the compiler decides whether a `char` is signed.
-/

namespace Syndilights.Displayclient.Ardupixel

/-! ## The board -/

/-- The panel. For the pixel library `NUMPIXELS` is an `uint16_t`. -/
structure Panel where
  ROWS : ℕ
  COLS : ℕ
  numpixels_lt : ROWS * COLS < 2 ^ 16

def Panel.NUMPIXELS (p : Panel) : ℕ := p.ROWS * p.COLS

lemma sketch_numpixels_lt : 25 * 20 < 2 ^ 16 := by decide

/-- The panel of the sketch. -/
def sketch : Panel := ⟨25, 20, sketch_numpixels_lt⟩

/-- What the sketch is built with. -/
structure Board where
  UDP_TX_PACKET_MAX_SIZE : ℕ
  signedChar : Bool
deriving DecidableEq

namespace Board

/-- The value of a `char`. -/
def char (board : Board) (c : UInt8) : ℤ := if board.signedChar then c.toInt8.toInt else c.toNat

/-- `(uint16_t)c`. -/
def toUInt16 (board : Board) (c : UInt8) : UInt16 := UInt16.ofInt (board.char c)

/-- The number of bytes that `Udp.read` takes from a packet. -/
def received (board : Board) (packet : List UInt8) : ℕ :=
  min packet.length board.UDP_TX_PACKET_MAX_SIZE

/-- `packetBuffer` after `Udp.read`. -/
def read (board : Board) (packet : List UInt8) (packetBuffer : ℕ → UInt8) : ℕ → UInt8 :=
  fun k => if k < board.received packet then packet.getD k 0 else packetBuffer k

end Board

/-- A colour of the pixel library. -/
structure Color where
  r : UInt8
  g : UInt8
  b : UInt8
deriving DecidableEq

/-- `pixels.Color`, which has 8-bit parameters. -/
def color (r g b : UInt16) : Color := ⟨r.toUInt8, g.toUInt8, b.toUInt8⟩

/-! ## Drawing -/

/-- The position of a pixel on the strip, in 16-bit arithmetic. -/
def indirect (p : Panel) (col row : UInt16) : UInt16 :=
  if col.toNat > p.COLS then -1
  else if row.toNat > p.ROWS then -1
  else if col % 2 ≠ 0 then
    -- odd column, this reverses the direction
    let invrow := p.ROWS.toUInt16 - row - 1
    col * p.ROWS.toUInt16 + invrow
  else col * p.ROWS.toUInt16 + row

/-- What `drawCommand` does: it reads a byte of `packetBuffer`, or sets the LED `n` for the
coordinates `x`, `y`. -/
inductive Action
  | read (index : ℕ)
  | setPixelColor (x y : ℕ) (n : UInt16) (c : Color)
deriving DecidableEq

/-- `"s2l\n"`. -/
def MAGIC : List UInt8 := [ 's', '2', 'l', '\n'].map fun c => c.toNat.toUInt8

/-- `strncmp` from the index `k` on: what is read, up to the first difference, and whether
there is none. -/
def strncmp (packetBuffer : ℕ → UInt8) : List UInt8 → (k : ℕ) → List Action × Bool
  | [], _ => ([], true)
  | c :: s, k =>
    if packetBuffer k = c then
      (.read k :: (strncmp packetBuffer s (k + 1)).1, (strncmp packetBuffer s (k + 1)).2)
    else ([.read k], false)

/-- Where the `k`-th value of a pixel is read. `S2LHEADERLEN` is `12-1`, without parentheses.
The position is an `int`, which is taken to hold it: so it does up to the end of every buffer of
less than 32 kB, and the packets for which it does not are read behind that end before. -/
def subPixelPos (width x y k : ℕ) : ℕ := 12 - 1 + (y * (width * 4 + 1)) + (x * 4 + k)

/-- The body of the loops of `drawCommand`. -/
def drawPixel (p : Panel) (board : Board) (packetBuffer : ℕ → UInt8) (width x y : ℕ) :
    List Action :=
  let r := board.toUInt16 (packetBuffer (subPixelPos width x y 1))
  let g := board.toUInt16 (packetBuffer (subPixelPos width x y 2))
  let b := board.toUInt16 (packetBuffer (subPixelPos width x y 3))
  let pix := indirect p x.toUInt16 y.toUInt16
  [.read (subPixelPos width x y 1), .read (subPixelPos width x y 2),
    .read (subPixelPos width x y 3)] ++
    if pix ≥ 0 then [.setPixelColor x y (indirect p x.toUInt16 y.toUInt16) (color r g b)] else []

/-- `drawCommand`, for a packet that arrives while `packetBuffer` holds an older one. -/
def drawCommand (p : Panel) (board : Board) (packet : List UInt8) (packetBuffer : ℕ → UInt8) :
    List Action :=
  let packetBuffer := board.read packet packetBuffer
  let (reads, same) := strncmp packetBuffer MAGIC 0
  if !same then reads
  else
    let width := board.char (packetBuffer 4) - 48
    let height := board.char (packetBuffer 5) - 48
    reads ++ [.read 4, .read 5] ++
      (List.range height.toNat).flatMap fun y => (List.range width.toNat).flatMap fun x =>
        drawPixel p board packetBuffer width.toNat x y

/-! ## The LEDs -/

/-- What an action does to the LEDs; the library ignores numbers from `NUMPIXELS` on. -/
def Panel.act (p : Panel) (pixels : ℕ → Color) : Action → ℕ → Color
  | .read _ => pixels
  | .setPixelColor _ _ n c =>
    if n.toNat < p.NUMPIXELS then Function.update pixels n.toNat c else pixels

/-- The LEDs after a list of actions. -/
def Panel.light (p : Panel) (pixels : ℕ → Color) (actions : List Action) : ℕ → Color :=
  actions.foldl p.act pixels

end Syndilights.Displayclient.Ardupixel
