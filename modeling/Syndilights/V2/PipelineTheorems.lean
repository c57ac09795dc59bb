import Syndilights.V2.Pipeline
import Syndilights.V2.TeensyTheorems
import Syndilights.V2.ReceiverTheorems
import Syndilights.V2.DataGeneratorTheorems

/-!
# The pipeline delivers every frame

The payloads consist of pulses, 0x00 and 0xFF, so none of the three framings finds its
delimiters inside one. The invariant `Delivers` splits the frames of all sessions into
those shown, those on the way at each stage, and those to come.
-/

namespace Syndilights.V2

/-! ## Payloads -/

/-- A payload that the controller has room for. -/
structure Payload (ledsPerStrip : ℕ) (p : List UInt8) : Prop where
  pulses : ∀ b ∈ p, IsPulse b
  pos : 0 < p.length
  fits : p.length ≤ 24 * ledsPerStrip

lemma IsPulse.ne {b c : UInt8} (h : IsPulse b) (h0 : c ≠ 0x00 := by decide)
    (h1 : c ≠ 0xFF := by decide) : b ≠ c := by
  rcases h with rfl | rfl
  · exact h0.symm
  · exact h1.symm

lemma IsPulse.not_isSpace {b : UInt8} (h : IsPulse b) : isSpace b = false := by
  rcases h with rfl | rfl <;> rfl

/-! ## Lines -/

/-- The handler pushes exactly the payload. -/
lemma handle_payload {leds : ℕ} {p rest : List UInt8} (hp : Payload leds p) :
    handle (p ++ 10 :: rest) = (some p, rest) := by
  have hline : readline (p ++ 10 :: rest) = (p ++ [10], rest) :=
    readline_append fun b hb => (hp.pulses b hb).ne
  have hne : p ≠ [] := List.ne_nil_of_length_pos hp.pos
  have hstrip := strip_newline (trimmed_of_forall fun b hb => (hp.pulses b hb).not_isSpace)
  have hpos := hp.pos
  unfold handle
  rw [hline]
  dsimp only
  rw [hstrip, if_neg (by omega)]

/-! ## The handshake -/

/-- The receiver reads back what the client packed. -/
lemma from_bytes_pack {n : ℕ} (h : n < 2 ^ 32) : from_bytes (pack n) = n := by
  show (n / 256 ^ 0).toUInt8.toNat + 256 * ((n / 256 ^ 1).toUInt8.toNat +
    256 * ((n / 256 ^ 2).toUInt8.toNat + 256 * ((n / 256 ^ 3).toUInt8.toNat + 256 * 0))) = n
  simp only [Nat.toUInt8_eq, UInt8.toNat_ofNat']
  omega

namespace Session

/-- The handshake lets the session pass, and its images fit the controller. -/
structure Valid (s : Session) (config : Config) (ledsPerStrip : ℕ) : Prop where
  accepted : config.check_config s.height s.width s.framerate = none
  pos : 1 ≤ s.width * s.height
  fits : s.width * s.height ≤ ledsPerStrip
  height_lt : s.height < 2 ^ 31
  width_lt : s.width < 2 ^ 31
  framerate_lt : s.framerate < 2 ^ 31
  type_lt : s.type < 8

/-- The payload of each image. -/
def payloads (s : Session) : List (List UInt8) :=
  s.images.map fun pixels => payload s.scale ((inline_image pixels s.type s.long_line).getD [])

variable {s : Session} {config : Config} {leds : ℕ}

lemma payload_of_image (h : s.Valid config leds) (pixels : Image s.width s.height) :
    ∃ image, inline_image pixels s.type s.long_line = some image ∧
      image.length = s.width * s.height :=
  exists_inline_image pixels h.type_lt s.long_line

/-- The data of the images, whatever `data` held before. -/
lemma send_TCP_eq (h : s.Valid config leds) (images : List (Image s.width s.height))
    {data : List Int8} (hdata : data.length = s.width * s.height * 24 + 1) :
    s.send_TCP data images = some (images.map fun pixels =>
      (payload s.scale ((inline_image pixels s.type s.long_line).getD [])).map signed ++ [10]) := by
  induction images generalizing data with
  | nil => rfl
  | cons pixels images ih =>
    rcases payload_of_image h pixels with ⟨image, himage, hlen⟩
    have hlength : ((payload s.scale image).map signed ++ [10]).length
        = s.width * s.height * 24 + 1 := by
      rw [List.length_append, List.length_map, length_payload, hlen]
      rfl
    rw [send_TCP, image2data_eq himage hlen hdata, List.map_cons, himage, Option.getD_some]
    show Option.bind (s.send_TCP _ images) _ = _
    rw [ih hlength]
    rfl

/-- Every image is sent as its payload and a newline. -/
lemma sent_eq (h : s.Valid config leds) :
    s.sent = some (s.payloads.map fun p => p.map signed ++ [10]) := by
  rw [sent, send_TCP_eq h, payloads, List.map_map]
  · rfl
  · rw [prepare_data, List.length_replicate]

lemma payload_of_mem (h : s.Valid config leds) {p : List UInt8} (hp : p ∈ s.payloads) :
    p.length = 24 * (s.width * s.height) ∧ Payload leds p := by
  rcases List.mem_map.mp hp with ⟨pixels, -, rfl⟩
  rcases payload_of_image h pixels with ⟨image, himage, hlen⟩
  have hpos := h.pos
  have hfits := h.fits
  have hlength := length_payload s.scale image
  rw [himage, Option.getD_some]
  rw [hlen] at hlength
  refine ⟨by omega, isPulse_payload s.scale, by omega, by omega⟩

/-- On the wire a signed byte is the byte that was encoded. -/
lemma toUInt8_signed : ∀ b : UInt8, (signed b).toUInt8 = b := by
  have hall : ∀ x : Fin 256, (signed (UInt8.ofFin x)).toUInt8 = UInt8.ofFin x := by decide +kernel
  exact fun b => hall b.toFin

lemma map_toUInt8_signed (bytes : List UInt8) : (bytes.map signed).map Int8.toUInt8 = bytes := by
  rw [List.map_map]
  conv_rhs => rw [← List.map_id bytes]
  exact List.map_congr_left fun b _ => toUInt8_signed b

/-- What the client writes: the handshake, and a line for each image. -/
lemma stream_eq (h : s.Valid config leds) :
    s.stream = pack s.height ++ pack s.width ++ pack s.framerate ++
      s.payloads.flatMap fun p => p ++ [10] := by
  rw [stream, sent_eq h, Option.getD_some, List.flatMap_map]
  congr 2
  funext p
  rw [List.map_append, map_toUInt8_signed]
  rfl

/-- The receiver lets the session pass and has its lines left to read. -/
lemma receive_client_config_stream (h : s.Valid config leds) :
    config.receive_client_config s.stream
      = (none, config.set_config s.framerate, s.payloads.flatMap fun p => p ++ [10]) := by
  have hh := h.height_lt
  have hw := h.width_lt
  have hf := h.framerate_lt
  have hheight : s.stream.take 4 = pack s.height := by
    rw [stream_eq h]
    rfl
  have hwidth : (s.stream.drop 4).take 4 = pack s.width := by
    rw [stream_eq h]
    rfl
  have hframerate : (s.stream.drop 8).take 4 = pack s.framerate := by
    rw [stream_eq h]
    rfl
  have hrest : s.stream.drop 12 = s.payloads.flatMap fun p => p ++ [10] := by
    rw [stream_eq h]
    rfl
  unfold Config.receive_client_config
  rw [hheight, hwidth, hframerate, hrest, from_bytes_pack (by omega), from_bytes_pack (by omega),
    from_bytes_pack (by omega)]
  dsimp only
  rw [h.accepted]

end Session

/-! ## The controller -/

/-- The memory starts with these bytes. -/
def Holds (memory : ℕ → UInt8) (p : List UInt8) : Prop :=
  ∀ k < p.length, p[k]? = some (memory k)

/-- Storing the next byte. -/
lemma Holds.store {memory : ℕ → UInt8} {p : List UInt8} (h : Holds memory p) (b : UInt8) :
    Holds (Function.update memory p.length b) (p ++ [b]) := by
  intro k hk
  rw [List.length_append, List.length_singleton] at hk
  by_cases hlast : k = p.length
  · subst hlast
    rw [Function.update_self, List.getElem?_append_right le_rfl, Nat.sub_self]
    rfl
  · rw [Function.update_of_ne hlast, List.getElem?_append_left (by omega)]
    exact h k (by omega)

/-- Between `loop` and the bytes on the serial line, these payloads are still to be shown:
all of them on the line, or the first one partly in the memory. -/
def Pending (t : Teensy) (serial : List UInt8) (pending : List (List UInt8)) : Prop :=
  (t.mode = .loop ∧ serial = pending.flatMap message) ∨
  ∃ stored rest tail, t.mode = .reading stored.length ∧ Holds t.drawingMemory stored ∧
    pending = (stored ++ rest) :: tail ∧ serial = rest ++ 35 :: tail.flatMap message

/-- A message that is written behind the others. -/
lemma Pending.append {t : Teensy} {serial : List UInt8} {pending : List (List UInt8)}
    (h : Pending t serial pending) (p : List UInt8) :
    Pending t (serial ++ message p) (pending ++ [p]) := by
  rcases h with ⟨hmode, rfl⟩ | ⟨stored, rest, tail, hmode, hmemory, rfl, rfl⟩
  · left
    rw [List.flatMap_append, List.flatMap_singleton]
    exact ⟨hmode, rfl⟩
  · right
    refine ⟨stored, rest, tail ++ [p], hmode, hmemory, rfl, ?_⟩
    rw [List.flatMap_append, List.flatMap_singleton, List.append_assoc, List.cons_append]

/-- With nothing on the line, nothing is pending. -/
lemma Pending.nil {t : Teensy} {pending : List (List UInt8)} (h : Pending t [] pending) :
    pending = [] := by
  rcases h with ⟨-, hserial⟩ | ⟨stored, rest, tail, -, -, -, hserial⟩
  · cases pending with
    | nil => rfl
    | cons p pending => exact absurd hserial (by simp [message])
  · exact absurd hserial (by simp)

/-- One byte: the controller starts a payload, stores a byte of it, or shows it. -/
lemma Pending.read {t : Teensy} {b : UInt8} {serial : List UInt8} {pending : List (List UInt8)}
    (h : Pending t (b :: serial) pending) (hp : ∀ p ∈ pending, Payload t.ledsPerStrip p) :
    ((t.byte b).shows = t.shows ∧ Pending (t.byte b) serial pending) ∨
    ∃ p tail memory, pending = p :: tail ∧ (t.byte b).shows = t.shows ++ [memory] ∧
      Holds memory p ∧ Pending (t.byte b) serial tail := by
  rcases h with ⟨hmode, hserial⟩ | ⟨stored, rest, tail, hmode, hmemory, rfl, hserial⟩
  · cases pending with
    | nil => exact absurd hserial (by simp)
    | cons p tail =>
      -- the byte is the start of the first message
      left
      rw [List.flatMap_cons, message, List.append_assoc, List.append_assoc,
        List.singleton_append, List.cons.injEq] at hserial
      rcases hserial with ⟨rfl, rfl⟩
      rw [Teensy.byte_start hmode]
      refine ⟨rfl, Or.inr ⟨[], p, tail, rfl, ?_, rfl, rfl⟩⟩
      exact fun k hk => absurd hk (Nat.not_lt_zero k)
  · have hpayload := hp _ List.mem_cons_self
    cases rest with
    | nil =>
      -- the byte is the terminator
      right
      rw [List.nil_append, List.cons.injEq] at hserial
      rcases hserial with ⟨rfl, rfl⟩
      rw [Teensy.byte_terminator hmode, List.append_nil]
      exact ⟨stored, tail, t.drawingMemory, rfl, rfl, hmemory, Or.inl ⟨rfl, rfl⟩⟩
    | cons c rest =>
      -- the byte belongs to the payload, and there is room for one more
      left
      rw [List.cons_append, List.cons.injEq] at hserial
      rcases hserial with ⟨rfl, rfl⟩
      have hne : b ≠ 35 := (hpayload.pulses b (by simp)).ne
      have hroom : stored.length + 1 < t.readLength := Teensy.room_of_fits hpayload.fits
      rw [Teensy.byte_store hmode hne hroom]
      refine ⟨rfl, Or.inr ⟨stored ++ [b], rest, tail, ?_, hmemory.store b, ?_, rfl⟩⟩
      · rw [List.length_append, List.length_singleton]
      · rw [List.append_assoc, List.singleton_append]

/-- The controller never restarts while messages are pending. -/
lemma Pending.not_restarted {t : Teensy} {serial : List UInt8} {pending : List (List UInt8)}
    (h : Pending t serial pending) : t.mode ≠ .restarted := by
  rcases h with ⟨hmode, -⟩ | ⟨stored, rest, tail, hmode, -⟩
  · rw [hmode]
    decide
  · rw [hmode]
    simp

/-! ## The invariant -/

/-- What the client still sends as lines. -/
def lines (payloads : List (List UInt8)) : List UInt8 := payloads.flatMap fun p => p ++ [10]

/-- The frames, split into those that were shown, those between forwarder and controller,
those in Redis, those that the receiver has not read yet, and those of later sessions. -/
structure Split (leds : ℕ) (frames : List (List UInt8)) (p : Pipeline)
    (shown pending unread : List (List UInt8)) (sessions : List Session) : Prop where
  frames_eq : frames = shown ++ (pending ++ (p.new.reverse ++ (unread ++
    sessions.flatMap Session.payloads)))
  shows : List.Forall₂ Holds p.teensy.shows shown
  pending : Pending p.teensy p.serial pending
  current : p.current.getD [] = lines unread
  sessions_eq : p.sessions = sessions.map Session.stream
  valid : ∀ s ∈ sessions, s.Valid p.config leds
  leds_eq : p.teensy.ledsPerStrip = leds
  payload : ∀ q ∈ frames, Payload leds q

/-- The invariant of the pipeline. -/
def Delivers (leds : ℕ) (frames : List (List UInt8)) (p : Pipeline) : Prop :=
  ∃ shown pending unread sessions, Split leds frames p shown pending unread sessions

lemma lines_cons (p : List UInt8) (payloads : List (List UInt8)) :
    lines (p :: payloads) = p ++ 10 :: lines payloads := by
  rw [lines, List.flatMap_cons, List.append_assoc, List.singleton_append, lines]

lemma lines_eq_nil {payloads : List (List UInt8)} (h : lines payloads = []) : payloads = [] := by
  cases payloads with
  | nil => rfl
  | cons p payloads => exact absurd h (by simp [lines_cons])

/-- The current frame rate does not decide who is accepted. -/
lemma Session.Valid.set_config {s : Session} {config : Config} {leds : ℕ}
    (h : s.Valid config leds) (framerate : ℕ) : s.Valid (config.set_config framerate) leds :=
  ⟨h.accepted, h.pos, h.fits, h.height_lt, h.width_lt, h.framerate_lt, h.type_lt⟩

section
variable {leds : ℕ} {frames : List (List UInt8)} {p : Pipeline}
  {shown pending unread : List (List UInt8)} {sessions : List Session}

/-- A session is accepted: its frames are what the receiver reads next. -/
lemma Split.accept {s : Session} (h : Split leds frames p shown pending unread (s :: sessions))
    (hcurrent : p.current = none) :
    Split leds frames
      { p with sessions := sessions.map Session.stream, current := some (lines s.payloads),
               config := p.config.set_config s.framerate }
      shown pending s.payloads sessions := by
  have hunread : unread = [] := by
    have hlines := h.current
    rw [hcurrent] at hlines
    exact lines_eq_nil hlines.symm
  refine ⟨?_, h.shows, h.pending, rfl, rfl, ?_, h.leds_eq, h.payload⟩
  · rw [h.frames_eq, hunread, List.nil_append, List.flatMap_cons]
  · exact fun s' hs' => (h.valid s' (List.mem_cons_of_mem s hs')).set_config _

/-- A line is pushed: its frame is in Redis. -/
lemma Split.push {q : List UInt8}
    (h : Split leds frames p shown pending (q :: unread) sessions) :
    Split leds frames { p with current := some (lines unread), new := q :: p.new }
      shown pending unread sessions := by
  refine ⟨?_, h.shows, h.pending, rfl, h.sessions_eq, h.valid, h.leds_eq, h.payload⟩
  rw [h.frames_eq]
  simp

/-- The receiver is done: nothing was left to read. -/
lemma Split.done (h : Split leds frames p shown pending [] sessions) :
    Split leds frames { p with current := none } shown pending [] sessions :=
  ⟨h.frames_eq, h.shows, h.pending, rfl, h.sessions_eq, h.valid, h.leds_eq, h.payload⟩

/-- An entry is forwarded: its frame is on the serial line. -/
lemma Split.forward {new : List (List UInt8)} {q : List UInt8}
    (h : Split leds frames p shown pending unread sessions) (hnew : p.new = new ++ [q]) :
    Split leds frames { p with new := new, serial := p.serial ++ message q }
      shown (pending ++ [q]) unread sessions := by
  refine ⟨?_, h.shows, h.pending.append q, h.current, h.sessions_eq, h.valid, h.leds_eq, h.payload⟩
  rw [h.frames_eq, hnew]
  simp

/-- A byte is read: perhaps a frame is shown. -/
lemma Split.read {b : UInt8} {serial : List UInt8}
    (h : Split leds frames p shown pending unread sessions) (hserial : p.serial = b :: serial) :
    Delivers leds frames { p with serial := serial, teensy := p.teensy.byte b } := by
  have hpending := h.pending
  rw [hserial] at hpending
  have hleds := (Teensy.ledsPerStrip_byte p.teensy b).trans h.leds_eq
  have hpayload : ∀ q ∈ pending, Payload p.teensy.ledsPerStrip q := by
    intro q hq
    rw [h.leds_eq]
    apply h.payload
    rw [h.frames_eq]
    exact List.mem_append_right _ (List.mem_append_left _ hq)
  rcases hpending.read hpayload with ⟨hshows, hnext⟩ | ⟨q, tail, memory, rfl, hshows, hholds, hnext⟩
  · refine ⟨shown, pending, unread, sessions, h.frames_eq, ?_, hnext, h.current, h.sessions_eq,
      h.valid, hleds, h.payload⟩
    rw [hshows]
    exact h.shows
  · refine ⟨shown ++ [q], tail, unread, sessions, ?_, ?_, hnext, h.current, h.sessions_eq,
      h.valid, hleds, h.payload⟩
    · rw [h.frames_eq]
      simp
    · rw [hshows]
      exact List.rel_append h.shows (List.Forall₂.cons hholds List.Forall₂.nil)

end

/-- Every step keeps the invariant. -/
lemma Delivers.step {leds : ℕ} {frames : List (List UInt8)} {p p' : Pipeline}
    (h : Delivers leds frames p) (hstep : Step p p') : Delivers leds frames p' := by
  rcases h with ⟨shown, pending, unread, sessions, h⟩
  cases hstep with
  | accept hcurrent hsessions hconfig =>
    cases sessions with
    | nil => exact absurd (hsessions.symm.trans h.sessions_eq) (by simp)
    | cons s sessions =>
      rcases List.cons.inj (hsessions.symm.trans h.sessions_eq) with ⟨hstream, hrest⟩
      rw [hstream, Session.receive_client_config_stream (h.valid s List.mem_cons_self)] at hconfig
      simp only [Prod.mk.injEq, true_and] at hconfig
      rcases hconfig with ⟨rfl, rfl⟩
      rw [hrest]
      exact ⟨_, _, _, _, h.accept hcurrent⟩
  | refuse hcurrent hsessions hconfig =>
    -- no session is turned away
    cases sessions with
    | nil => exact absurd (hsessions.symm.trans h.sessions_eq) (by simp)
    | cons s sessions =>
      rcases List.cons.inj (hsessions.symm.trans h.sessions_eq) with ⟨hstream, -⟩
      rw [hstream, Session.receive_client_config_stream (h.valid s List.mem_cons_self)] at hconfig
      exact absurd hconfig (by simp)
  | push hcurrent hhandle =>
    have hlines := h.current
    rw [hcurrent, Option.getD_some] at hlines
    cases unread with
    | nil =>
      rw [hlines] at hhandle
      exact absurd hhandle (by simp [handle, lines, readline, strip])
    | cons q unread =>
      have hq : Payload leds q := h.payload q (by rw [h.frames_eq]; simp)
      rw [hlines, lines_cons, handle_payload hq] at hhandle
      simp only [Prod.mk.injEq, Option.some.injEq] at hhandle
      rcases hhandle with ⟨rfl, rfl⟩
      exact ⟨_, _, _, _, h.push⟩
  | done hcurrent hhandle =>
    have hlines := h.current
    rw [hcurrent, Option.getD_some] at hlines
    cases unread with
    | nil => exact ⟨_, _, _, _, h.done⟩
    | cons q unread =>
      -- a frame is left, so the line is not empty
      have hq : Payload leds q := h.payload q (by rw [h.frames_eq]; simp)
      rw [hlines, lines_cons, handle_payload hq] at hhandle
      exact absurd hhandle (by simp)
  | forward hnew =>
    rename_i new q
    have hq : Payload leds q := h.payload q (by rw [h.frames_eq, hnew]; simp)
    rw [if_pos (show q.length > 0 from hq.pos)]
    exact ⟨_, _, _, _, h.forward hnew⟩
  | read hserial => exact h.read hserial

/-- The start of the pipeline satisfies the invariant. -/
lemma delivers_start {config : Config} {sessions : List Session} {leds : ℕ}
    (h : ∀ s ∈ sessions, s.Valid config leds) (memory : ℕ → UInt8) :
    Delivers leds (sessions.flatMap Session.payloads)
      (Pipeline.start config sessions leds memory) := by
  refine ⟨[], [], [], sessions, rfl, List.Forall₂.nil, Or.inl ⟨rfl, rfl⟩, rfl, rfl, h, rfl, ?_⟩
  intro q hq
  rcases List.mem_flatMap.mp hq with ⟨s, hs, hq⟩
  exact (Session.payload_of_mem (h s hs) hq).2

/-- Every reachable state satisfies the invariant. -/
lemma delivers_reachable {config : Config} {sessions : List Session} {leds : ℕ}
    (h : ∀ s ∈ sessions, s.Valid config leds) {memory : ℕ → UInt8} {p : Pipeline}
    (hreach : Relation.ReflTransGen Step (Pipeline.start config sessions leds memory) p) :
    Delivers leds (sessions.flatMap Session.payloads) p := by
  induction hreach with
  | refl => exact delivers_start h memory
  | tail _ hstep ih => exact ih.step hstep

/-! ## Every run ends -/

namespace Pipeline

/-- A bound on the steps that are left: every byte of a client is received, pushed,
forwarded and read at most once. -/
def weight (p : Pipeline) : ℕ :=
  (p.sessions.map fun stream => 5 * stream.length + 2).sum +
    (p.current.map fun stream => 5 * stream.length + 1).getD 0 +
    (p.new.map fun data => data.length + 3).sum + p.serial.length

end Pipeline

/-- The handshake takes bytes away. -/
lemma length_receive_client_config (config : Config) (stream : List UInt8) :
    (config.receive_client_config stream).2.2.length ≤ stream.length := by
  have hrest : (config.receive_client_config stream).2.2 = stream.drop 12 := by
    unfold Config.receive_client_config
    dsimp only
    split <;> rfl
  rw [hrest, List.length_drop]
  omega

/-- Every step makes the weight smaller. -/
lemma Step.weight_lt {p p' : Pipeline} (h : Step p p') : p'.weight < p.weight := by
  unfold Pipeline.weight
  cases h with
  | accept hcurrent hsessions hconfig =>
    rename_i stream rest sessions config
    have hrest := length_receive_client_config p.config stream
    rw [hconfig] at hrest
    dsimp only at hrest
    rw [hcurrent, hsessions]
    simp only [List.map_cons, List.sum_cons, Option.map_some, Option.map_none, Option.getD_some,
      Option.getD_none]
    omega
  | refuse hcurrent hsessions hconfig =>
    rw [hsessions]
    simp only [List.map_cons, List.sum_cons]
    omega
  | push hcurrent hhandle =>
    -- the line is longer than what the entry weighs
    have hlength := length_handle hhandle
    rw [hcurrent]
    simp only [List.map_cons, List.sum_cons, Option.map_some, Option.getD_some]
    omega
  | done hcurrent hhandle =>
    rw [hcurrent]
    simp only [Option.map_some, Option.map_none, Option.getD_some, Option.getD_none]
    omega
  | forward hnew =>
    rename_i new data
    have hmessage : (if data.length > 0 then message data else []).length ≤ data.length + 2 := by
      split_ifs
      · simp [message]
      · exact Nat.zero_le _
    rw [hnew]
    simp only [List.map_append, List.sum_append, List.map_cons, List.sum_cons, List.map_nil,
      List.sum_nil, List.length_append]
    omega
  | read hserial =>
    rw [hserial, List.length_cons]
    dsimp only
    omega

/-- There is no infinite run. -/
lemma no_infinite_run (run : ℕ → Pipeline) : ¬ ∀ n, Step (run n) (run (n + 1)) := by
  intro h
  apply not_strictAnti_of_wellFoundedLT fun n => (run n).weight
  exact strictAnti_nat_of_succ_lt fun n => (h n).weight_lt

/-! ## Where a run ends -/

/-- Where no step is possible, no byte is left anywhere. -/
lemma eq_nil_of_no_step {p : Pipeline} (h : ¬ ∃ p', Step p p') :
    p.sessions = [] ∧ p.current = none ∧ p.new = [] ∧ p.serial = [] := by
  -- a connection that is served can always go on
  have hcurrent : p.current = none := by
    cases hcase : p.current with
    | none => rfl
    | some stream =>
      cases hhandle : handle stream with
      | mk data rest =>
        cases data with
        | none => exact absurd ⟨_, Step.done hcase hhandle⟩ h
        | some data => exact absurd ⟨_, Step.push hcase hhandle⟩ h
  -- so the next one is taken or turned away
  have hsessions : p.sessions = [] := by
    cases hcase : p.sessions with
    | nil => rfl
    | cons stream sessions =>
      cases hconfig : p.config.receive_client_config stream with
      | mk reason received =>
        cases reason with
        | none => exact absurd ⟨_, Step.accept hcurrent hcase hconfig⟩ h
        | some reason => exact absurd ⟨_, Step.refuse hcurrent hcase hconfig⟩ h
  have hnew : p.new = [] := by
    rcases List.eq_nil_or_concat p.new with hnil | ⟨new, data, hconcat⟩
    · exact hnil
    · rw [List.concat_eq_append] at hconcat
      exact absurd ⟨_, Step.forward hconcat⟩ h
  have hserial : p.serial = [] := by
    cases hcase : p.serial with
    | nil => rfl
    | cons b serial => exact absurd ⟨_, Step.read hcase⟩ h
  exact ⟨hsessions, hcurrent, hnew, hserial⟩

section
variable {leds : ℕ} {frames : List (List UInt8)} {p : Pipeline}

/-- At any time, what has been shown are the first frames. -/
lemma Delivers.shows (h : Delivers leds frames p) :
    List.Forall₂ Holds p.teensy.shows (frames.take p.teensy.shows.length) := by
  rcases h with ⟨shown, pending, unread, sessions, h⟩
  have hlength := h.shows.length_eq
  rw [hlength, h.frames_eq, List.take_left]
  exact h.shows

/-- The controller waits for a byte. -/
lemma Delivers.not_restarted (h : Delivers leds frames p) : p.teensy.mode ≠ .restarted := by
  rcases h with ⟨shown, pending, unread, sessions, h⟩
  exact h.pending.not_restarted

/-- At the end, everything has been shown. -/
lemma Delivers.length_shows (h : Delivers leds frames p) (hend : ¬ ∃ p', Step p p') :
    p.teensy.shows.length = frames.length := by
  rcases h with ⟨shown, pending, unread, sessions, h⟩
  rcases eq_nil_of_no_step hend with ⟨hsessions, hcurrent, hnew, hserial⟩
  have hpending : pending = [] := by
    have hline := h.pending
    rw [hserial] at hline
    exact hline.nil
  have hunread : unread = [] := by
    have hlines := h.current
    rw [hcurrent] at hlines
    exact lines_eq_nil hlines.symm
  have hlater : sessions = [] := List.map_eq_nil_iff.mp (h.sessions_eq.symm.trans hsessions)
  rw [h.shows.length_eq, h.frames_eq, hpending, hnew, hunread, hlater]
  simp

end

/-- Whatever the interleaving, the controller shows every frame once and in order: at any
time it has shown the first frames of the sessions, with their payloads in its memory;
every run ends, and where it ends all frames have been shown. -/
theorem pipeline_delivers (config : Config) (sessions : List Session) (ledsPerStrip : ℕ)
    (drawingMemory : ℕ → UInt8) (h : ∀ s ∈ sessions, s.Valid config ledsPerStrip) :
    (∀ s ∈ sessions, s.sent = some (s.payloads.map fun p => p.map signed ++ [10]) ∧
      ∀ p ∈ s.payloads, p.length = 24 * (s.width * s.height)) ∧
    (∀ p, Relation.ReflTransGen Step
        (Pipeline.start config sessions ledsPerStrip drawingMemory) p →
      p.teensy.mode ≠ .restarted ∧
      List.Forall₂ Holds p.teensy.shows
        ((sessions.flatMap Session.payloads).take p.teensy.shows.length) ∧
      ((¬ ∃ p', Step p p') →
        p.teensy.shows.length = (sessions.flatMap Session.payloads).length)) ∧
    ¬ ∃ run : ℕ → Pipeline,
      run 0 = Pipeline.start config sessions ledsPerStrip drawingMemory ∧
      ∀ n, Step (run n) (run (n + 1)) := by
  refine ⟨?_, ?_, ?_⟩
  · intro s hs
    exact ⟨Session.sent_eq (h s hs), fun p hp => (Session.payload_of_mem (h s hs) hp).1⟩
  · intro p hreach
    have hdelivers := delivers_reachable h hreach
    exact ⟨hdelivers.not_restarted, hdelivers.shows, hdelivers.length_shows⟩
  · rintro ⟨run, -, hrun⟩
    exact no_infinite_run run hrun

/-- A client with a window of two pixels that turns from red to green. -/
def redGreen : Session where
  width := 2
  height := 1
  framerate := 40
  type := 0
  long_line := false
  scale := fun c => c / 2
  images := [fun _ => 0xFFFF0000#32, fun _ => 0xFF00FF00#32]

/-- The configuration that `forward.py` writes. -/
def defaultConfig : Config := ⟨25, 20, 40, 40⟩

/-- Two such clients: every run ends with four frames shown. -/
theorem pipeline_delivers_redGreen :
    (∀ s ∈ [redGreen, redGreen], s.Valid defaultConfig 500) ∧
    ∀ p, Relation.ReflTransGen Step
        (Pipeline.start defaultConfig [redGreen, redGreen] 500 fun _ => 0) p →
      (¬ ∃ p', Step p p') → p.teensy.shows.length = 4 := by
  have hvalid : ∀ s ∈ [redGreen, redGreen], s.Valid defaultConfig 500 := by
    intro s hs
    have hs : s = redGreen := by simpa using hs
    subst hs
    exact ⟨rfl, by decide, by decide, by decide, by decide, by decide, by decide⟩
  have hdelivers := pipeline_delivers defaultConfig [redGreen, redGreen] 500 (fun _ => 0) hvalid
  exact ⟨hvalid, fun p hreach hend => (hdelivers.2.1 p hreach).2.2 hend⟩

end Syndilights.V2
