import Syndilights.Clients.S2llib
import Syndilights.Frameserver.ListenTheorems

/-!
# What the server stores of a canvas

The packet that `draw` builds, byte by byte, and the frame that `listen` decodes from it.
-/

namespace Syndilights.Clients

open Frameserver

/-! ## Characters -/

/-- A value that `chr` accepts. -/
abbrev IsByte (i : ℤ) : Prop := 0 ≤ i ∧ i ≤ 255

/-- The character of a byte value. -/
def byte (i : ℤ) : UInt8 := i.toNat.toUInt8

lemma chr_of_isByte {i : ℤ} (h : IsByte i) : chr i = some (byte i) := if_pos h

lemma toNat_byte {i : ℤ} (h : IsByte i) : ((byte i).toNat : ℤ) = i := by
  rcases h with ⟨hlo, hhi⟩
  rw [byte, Nat.toUInt8_eq, UInt8.toNat_ofNat', Nat.mod_eq_of_lt (by omega)]
  omega

lemma isByte_toNat (b : UInt8) : IsByte b.toNat := by
  have hb := b.toNat_lt
  constructor <;> omega

lemma byte_toNat (b : UInt8) : byte b.toNat = b := by
  rw [byte, Int.toNat_natCast, Nat.toUInt8_eq, UInt8.ofNat_toNat]

namespace Cell

/-- The channels of a cell, in the order in which they are sent. -/
def channel (c : Cell) : Fin CHANNELS → ℤ := ![c.r, c.g, c.b, c.a]

/-- Every channel is a byte value. -/
def InRange (c : Cell) : Prop := ∀ k, IsByte (c.channel k)

/-- The four bytes are the channels r, g, b, a. -/
def Shown (c : Cell) (v : Fin CHANNELS → UInt8) : Prop :=
  ((v 0).toNat : ℤ) = c.r ∧ ((v 1).toNat : ℤ) = c.g ∧ ((v 2).toNat : ℤ) = c.b ∧
    ((v 3).toNat : ℤ) = c.a

lemma shown_byte {c : Cell} (h : c.InRange) : c.Shown fun k => byte (c.channel k) :=
  ⟨toNat_byte (h 0), toNat_byte (h 1), toNat_byte (h 2), toNat_byte (h 3)⟩

/-- The four characters of a cell. -/
def chars (c : Cell) : List UInt8 := List.ofFn fun k => byte (c.channel k)

lemma length_chars (c : Cell) : c.chars.length = 4 := List.length_ofFn

lemma getElem?_chars (c : Cell) (k : Fin CHANNELS) : c.chars[k.val]? = some (byte (c.channel k)) := by
  rw [chars, List.getElem?_ofFn, dif_pos k.isLt]

lemma int2chr_of_inRange {c : Cell} (h : c.InRange) : int2chr c = some c.chars := by
  have hr : IsByte c.r := h 0
  have hg : IsByte c.g := h 1
  have hb : IsByte c.b := h 2
  have ha : IsByte c.a := h 3
  unfold int2chr
  rw [chr_of_isByte hr, chr_of_isByte hg, chr_of_isByte hb, chr_of_isByte ha]
  rfl

end Cell

/-! ## Packets -/

/-- A row of cells and the newline behind it. -/
def row {n : ℕ} (cells : Fin n → Cell) : List UInt8 :=
  (List.finRange n).flatMap (fun x => (cells x).chars) ++ [10]

lemma length_row {n : ℕ} (cells : Fin n → Cell) : (row cells).length = n * 4 + 1 := by
  rw [row, List.length_append, Strided.length_flatMap fun x _ => (cells x).length_chars,
    List.length_finRange, List.length_singleton]

lemma getElem?_row {n : ℕ} (cells : Fin n → Cell) (x : Fin n) (k : Fin CHANNELS) :
    (row cells)[x * 4 + k.val]? = some (byte ((cells x).channel k)) := by
  have hk : k.val < 4 := k.isLt
  have hx := x.isLt
  rw [row, List.getElem?_append_left,
    Strided.getElem?_flatMap_finRange (fun x => (cells x).length_chars) x hk,
    Cell.getElem?_chars]
  rw [Strided.length_flatMap fun x _ => (cells x).length_chars, List.length_finRange]
  omega

/-- The rows as one list: the channel `k` of the cell `x` of row `y`. -/
lemma getElem?_rows {n m : ℕ} (cells : Fin n → Fin m → Cell) (y : Fin n) (x : Fin m)
    (k : Fin CHANNELS) :
    ((List.finRange n).flatMap fun y => row (cells y))[y * (m * 4 + 1) + (x * 4 + k.val)]?
      = some (byte ((cells y x).channel k)) := by
  have hk : k.val < 4 := k.isLt
  have hx := x.isLt
  rw [Strided.getElem?_flatMap_finRange (fun y => length_row (cells y)) y (by omega),
    getElem?_row]

lemma length_rows {n m : ℕ} (cells : Fin n → Fin m → Cell) :
    ((List.finRange n).flatMap fun y => row (cells y)).length = n * (m * 4 + 1) := by
  rw [Strided.length_flatMap fun y _ => length_row (cells y), List.length_finRange]

/-- The rows of cells that `package` appends. -/
lemma package_eq {n m : ℕ} {cells : Fin n → Fin m → Cell} (h : ∀ y x, (cells y x).InRange)
    (data : List UInt8) :
    package cells data = some (data ++ (List.finRange n).flatMap fun y => row (cells y)) := by
  apply Strided.foldlM_append
  intro y _ data
  have hcells : (List.finRange m).foldlM (fun data x => do return data ++ (← int2chr (cells y x)))
      data = some (data ++ (List.finRange m).flatMap fun x => (cells y x).chars) := by
    apply Strided.foldlM_append
    intro x _ data
    rw [Cell.int2chr_of_inRange (h y x)]
    rfl
  rw [hcells, row, ← List.append_assoc]
  rfl

namespace Canvas

variable {width height seg_wins : ℕ}

/-- `z` and every channel of the canvas are byte values. -/
structure InRange (c : Canvas width height seg_wins) : Prop where
  zed_buffer : IsByte c.zed_buffer
  windows : ∀ y x, (c.window_data y x).InRange
  segments : ∀ w s, (c.segmented_windows w s).InRange

/-- The packet of a canvas: header, rows of windows, segment windows. -/
def packet (c : Canvas width height seg_wins) : List UInt8 :=
  c.hash_passcode ++ [byte c.zed_buffer] ++ [10] ++
    (List.finRange height).flatMap (fun y => row (c.window_data y)) ++
    (List.finRange seg_wins).flatMap (fun w => row (c.segmented_windows w))

/-- The header of a canvas: hash, `z` and a newline. -/
lemma length_header_add (c : Canvas width height seg_wins) :
    (c.hash_passcode ++ [byte c.zed_buffer] ++ [10]).length = c.hash_passcode.length + 2 := by
  rw [List.length_append, List.length_append]
  rfl

/-- The channel `k` of the window `x` of row `y`, behind the header. -/
lemma getElem?_packet_cell (c : Canvas width height seg_wins) (y : Fin height) (x : Fin width)
    (k : Fin CHANNELS) :
    c.packet[c.hash_passcode.length + 2 + (y * (width * 4 + 1) + (x * 4 + k.val))]?
      = some (byte ((c.window_data y x).channel k)) := by
  have hx := x.isLt
  have hk : k.val < 4 := k.isLt
  have hrows : (y + 1) * (width * 4 + 1) ≤ height * (width * 4 + 1) :=
    Nat.mul_le_mul_right _ y.isLt
  rw [Nat.add_mul] at hrows
  have hheader := c.length_header_add
  rw [packet, List.getElem?_append_left, List.getElem?_append_right, hheader,
    Nat.add_sub_cancel_left]
  · exact getElem?_rows c.window_data y x k
  · omega
  · rw [List.length_append, hheader, length_rows]
    omega

/-- The header and the windows are part of the packet. -/
lemma length_packet_ge (c : Canvas width height seg_wins) :
    c.hash_passcode.length + 2 + height * (width * 4 + 1) ≤ c.packet.length := by
  rw [packet, List.length_append, List.length_append, length_header_add, length_rows]
  omega

/-- `draw` sends the packet of a canvas in range, without an exception. -/
theorem draw_eq_packet {c : Canvas width height seg_wins} (h : c.InRange) :
    c.draw = some c.packet := by
  unfold draw
  rw [chr_of_isByte h.zed_buffer]
  show (package c.window_data _ >>= package c.segmented_windows) = _
  rw [package_eq h.windows]
  exact package_eq h.segments _

end Canvas

/-! ## The frame of a canvas -/

/-- A canvas of the size of the building. -/
abbrev BuildingCanvas := Canvas WIDTH HEIGHT SEGWIDTH

namespace Canvas

/-- The frame with the channels of the canvas. -/
def frame (c : BuildingCanvas) : Frame where
  z := byte c.zed_buffer
  windows p := byte ((c.window_data p.1 p.2.1).channel p.2.2)
  segments p := byte ((c.segmented_windows p.1 p.2.1).channel p.2.2)

variable {c : BuildingCanvas}

/-- The twelve bytes of the header. -/
lemma length_header (hash : c.hash_passcode = HASH) :
    (c.hash_passcode ++ [byte c.zed_buffer] ++ [10]).length = 12 := by
  rw [length_header_add, hash, length_HASH]

/-- The rows of the windows. -/
lemma length_windows (c : BuildingCanvas) :
    ((List.finRange HEIGHT).flatMap fun y => row (c.window_data y)).length = 392 :=
  length_rows c.window_data

/-- The packet has exactly the length that `listen` expects. -/
lemma length_packet (hash : c.hash_passcode = HASH) : c.packet.length = BUFLEN := by
  rw [packet, List.length_append, List.length_append, length_header hash, length_windows,
    length_rows]
  rfl

/-- The packet starts with the hash. -/
lemma take_packet (hash : c.hash_passcode = HASH) : c.packet.take 10 = HASH := by
  simp only [packet, hash, List.append_assoc]
  exact List.take_left' length_HASH

lemma getElem?_packet_z (hash : c.hash_passcode = HASH) :
    c.packet[10]? = some (byte c.zed_buffer) := by
  simp only [packet, hash, List.append_assoc]
  rw [List.getElem?_append_right (by rw [length_HASH])]
  rfl

lemma getElem?_packet_window (hash : c.hash_passcode = HASH) (p : WindowIdx) :
    c.packet[(Server.recvWindow p).val]? = some (c.frame.windows p) := by
  rcases p with ⟨y, x, k⟩
  have hcell := c.getElem?_packet_cell y x k
  rw [hash, length_HASH] at hcell
  rw [Server.recvWindow_eq, Server.val_windowCell, Nat.add_assoc (y.val * 49)]
  exact hcell

lemma getElem?_packet_segment (hash : c.hash_passcode = HASH) (p : SegmentIdx) :
    c.packet[(Server.recvSegment p).val]? = some (c.frame.segments p) := by
  rcases p with ⟨w, s, k⟩
  have hrow := Server.segment_row_lt s k
  have hlen : (c.hash_passcode ++ [byte c.zed_buffer] ++ [10] ++
      (List.finRange HEIGHT).flatMap fun y => row (c.window_data y)).length = 404 := by
    rw [List.length_append, length_header hash, length_windows]
  rw [Server.recvSegment_eq, Server.val_segmentCell, packet, List.getElem?_append_right, hlen,
    Nat.add_assoc (w.val * 33), Nat.add_sub_cancel_left]
  · exact getElem?_rows c.segmented_windows w s k
  · omega

/-- The packet carries the frame of the canvas. -/
theorem sentAs_packet (hash : c.hash_passcode = HASH) : Server.SentAs c.packet c.frame :=
  ⟨getElem?_packet_z hash, getElem?_packet_window hash, getElem?_packet_segment hash⟩

/-- `listen` decodes the frame of the canvas, whatever `recv_buf` held before. -/
lemma packetFrame_packet (hash : c.hash_passcode = HASH) (e : Endpoint)
    (recv_buf : Fin BUFLEN → UInt8) :
    Server.packetFrame ((Server.Recv.datagram e c.packet).fill recv_buf) = c.frame := by
  have hlong : BUFLEN ≤ (Server.Recv.datagram e c.packet).bytes.length := (length_packet hash).ge
  exact (Server.sentAs_of_long hlong recv_buf).unique (sentAs_packet hash)

/-- `listen` accepts the packet. -/
lemma header_packet (hash : c.hash_passcode = HASH) (e : Endpoint)
    (recv_buf : Fin BUFLEN → UInt8) :
    Server.header ((Server.Recv.datagram e c.packet).fill recv_buf) = HASH := by
  have htake : (Server.Recv.datagram e c.packet).bytes.take 10 = HASH := take_packet hash
  have hstart := Server.take_prefix_header (.datagram e c.packet) recv_buf
  rw [htake] at hstart
  refine (hstart.eq_of_length ?_).symm
  rw [length_HASH, Server.header, List.length_ofFn]

/-- The frame has the `z` and the channels of the canvas. -/
structure Shows (f : Frame) (c : BuildingCanvas) : Prop where
  z : (f.z.toNat : ℤ) = c.zed_buffer
  windows : ∀ y x, (c.window_data y x).Shown fun k => f.windows (y, x, k)
  segments : ∀ w s, (c.segmented_windows w s).Shown fun k => f.segments (w, s, k)

lemma shows_frame (h : c.InRange) : Shows c.frame c where
  z := toNat_byte h.zed_buffer
  windows y x := Cell.shown_byte (h.windows y x)
  segments w s := Cell.shown_byte (h.segments w s)

/-- The canvases agree in `z` and in every channel. -/
def SameChannels (c c' : BuildingCanvas) : Prop :=
  c.zed_buffer = c'.zed_buffer ∧
  (∀ y x k, (c.window_data y x).channel k = (c'.window_data y x).channel k) ∧
  (∀ w s k, (c.segmented_windows w s).channel k = (c'.segmented_windows w s).channel k)

lemma byte_injective {i j : ℤ} (hi : IsByte i) (hj : IsByte j) (h : byte i = byte j) : i = j := by
  rw [← toNat_byte hi, ← toNat_byte hj, h]

/-- Canvases with one frame agree. -/
lemma sameChannels_of_frame {c c' : BuildingCanvas} (h : c.InRange) (h' : c'.InRange)
    (heq : c.frame = c'.frame) : SameChannels c c' := by
  refine ⟨?_, ?_, ?_⟩
  · exact byte_injective h.zed_buffer h'.zed_buffer (congrArg Frame.z heq)
  · intro y x k
    exact byte_injective (h.windows y x k) (h'.windows y x k)
      (congrFun (congrArg Frame.windows heq) (y, x, k))
  · intro w s k
    exact byte_injective (h.segments w s k) (h'.segments w s k)
      (congrFun (congrArg Frame.segments heq) (w, s, k))

/-- The canvas that shows a frame. -/
def ofFrame (f : Frame) : BuildingCanvas where
  hash_passcode := HASH
  zed_buffer := f.z.toNat
  window_data y x := ⟨0, (f.windows (y, x, 0)).toNat, (f.windows (y, x, 1)).toNat,
    (f.windows (y, x, 2)).toNat, (f.windows (y, x, 3)).toNat⟩
  segmented_windows w s := ⟨0, (f.segments (w, s, 0)).toNat, (f.segments (w, s, 1)).toNat,
    (f.segments (w, s, 2)).toNat, (f.segments (w, s, 3)).toNat⟩

section
variable (f : Frame)

lemma channel_window_ofFrame (y : Fin HEIGHT) (x : Fin WIDTH) (k : Fin CHANNELS) :
    ((ofFrame f).window_data y x).channel k = (f.windows (y, x, k)).toNat := by
  fin_cases k <;> rfl

lemma channel_segment_ofFrame (w : Fin SEGWIDTH) (s : Fin SEGNUM) (k : Fin CHANNELS) :
    ((ofFrame f).segmented_windows w s).channel k = (f.segments (w, s, k)).toNat := by
  fin_cases k <;> rfl

lemma inRange_ofFrame : (ofFrame f).InRange where
  zed_buffer := isByte_toNat f.z
  windows y x k := by
    rw [channel_window_ofFrame]
    exact isByte_toNat _
  segments w s k := by
    rw [channel_segment_ofFrame]
    exact isByte_toNat _

end

/-- The canvas of a stored frame has the packet that was drawn. -/
lemma packet_ofFrame (hash : c.hash_passcode = HASH) : (ofFrame c.frame).packet = c.packet := by
  have hz : byte (ofFrame c.frame).zed_buffer = byte c.zed_buffer := byte_toNat _
  have hwindow (y : Fin HEIGHT) :
      row ((ofFrame c.frame).window_data y) = row (c.window_data y) := by
    simp only [row, Cell.chars, channel_window_ofFrame, byte_toNat]
    rfl
  have hsegment (w : Fin SEGWIDTH) :
      row ((ofFrame c.frame).segmented_windows w) = row (c.segmented_windows w) := by
    simp only [row, Cell.chars, channel_segment_ofFrame, byte_toNat]
    rfl
  simp only [packet, hz, hwindow, hsegment, hash]
  rfl

/-- **The canvas a client draws is the frame the server stores.** The packet has the length
and the hash that `listen` wants, the stored frame shows the canvas, no other canvas has
that frame, and drawing the stored frame gives the packet back. -/
theorem drawn_canvas_is_stored (hash : c.hash_passcode = HASH) (h : c.InRange) :
    ∃ pkt, c.draw = some pkt ∧ pkt.length = BUFLEN ∧
      (∀ (stale : Server.Stale) e, Server.header ((Server.Recv.datagram e pkt).fill stale.recv_buf)
        = HASH) ∧
      (∀ (s : Server) stale e now, s.Aligned →
        e ∈ s.endpoints ∨ s.endpoints.length < NUMBUFS →
        Server.Stored s (Server.listen stale (.datagram e pkt) now s).1 e c.frame now) ∧
      Shows c.frame c ∧
      (∀ c' : BuildingCanvas, c'.InRange → c'.frame = c.frame → SameChannels c' c) ∧
      (ofFrame c.frame).draw = some pkt := by
  refine ⟨c.packet, draw_eq_packet h, length_packet hash, ?_, ?_, shows_frame h, ?_, ?_⟩
  · exact fun stale e => header_packet hash e stale.recv_buf
  · intro s stale e now hs hroom
    rw [← packetFrame_packet hash e stale.recv_buf]
    exact hs.refines.stored stale (.datagram e c.packet) now
      (header_packet hash e stale.recv_buf) hroom
  · exact fun c' h' heq => sameChannels_of_frame h' h heq
  · rw [draw_eq_packet (inRange_ofFrame c.frame), packet_ofFrame hash]

/-- A canvas that is redder to the right and greener to the bottom. -/
def gradient : BuildingCanvas where
  hash_passcode := HASH
  zed_buffer := 1
  window_data y x := ⟨0, 20 * x.val, 30 * y.val, 7, 255⟩
  segmented_windows w s := ⟨0, 20 * w.val, 30 * s.val, 9, 255⟩

lemma inRange_gradient : gradient.InRange := by
  have hshade {m n : ℕ} (hm : m < 12) (hn : n < 8) {b : ℤ} (hb : IsByte b) :
      Cell.InRange ⟨0, 20 * m, 30 * n, b, 255⟩ := by
    have hred : IsByte (20 * m) := by constructor <;> omega
    have hgreen : IsByte (30 * n) := by constructor <;> omega
    intro k
    match k with
    | 0 => exact hred
    | 1 => exact hgreen
    | 2 => exact hb
    | 3 => exact show IsByte 255 by decide
  exact ⟨by decide, fun y x => hshade x.isLt y.isLt (by decide),
    fun w s => hshade w.isLt s.isLt (by decide)⟩

/-- A server that just started and meets old memory stores that canvas in its first slot. -/
theorem gradient_is_stored :
    ∃ pkt, gradient.draw = some pkt ∧ pkt.length = BUFLEN ∧
      (Server.listen ⟨fun _ => 7, default⟩ (.datagram Server.firstSource pkt) 5
          (Server.init default)).1.slots
        = [(Server.firstSource, ⟨Server.firstSource.toStr, gradient.frame⟩, 5)] ∧
      (gradient.frame.windows (3, 2, 0), gradient.frame.windows (3, 2, 1)) = (40, 90) ∧
      (gradient.frame.segments (5, 1, 0), gradient.frame.segments (5, 1, 1)) = (100, 30) := by
  obtain ⟨pkt, hdraw, hlen, -, hstored, -⟩ :=
    drawn_canvas_is_stored (c := gradient) rfl inRange_gradient
  refine ⟨pkt, hdraw, hlen, ?_, rfl, rfl⟩
  rcases hstored (Server.init default) ⟨fun _ => 7, default⟩ Server.firstSource 5
    (Server.aligned_init default) (Or.inr (by decide)) with ⟨hknown, -⟩ | ⟨-, hslots⟩
  · exact absurd hknown List.not_mem_nil
  · exact hslots

end Canvas

end Syndilights.Clients
