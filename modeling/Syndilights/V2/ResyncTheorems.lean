import Syndilights.V2.PipelineTheorems

/-!
# The serial line after a stall

A stall or a payload that is too long leaves the rest of a message to `loop`. A payload of
pulses has no byte that `loop` reacts to, so the rest is discarded up to the next message.
-/

namespace Syndilights.V2
namespace Teensy

/-! ## Arrivals -/

/-- The byte of an arrival. -/
def Arrival.value : Arrival → Option UInt8
  | .byte b => some b
  | .stall => none

/-- The bytes on the line, without the stalls. -/
def bytes (as : List Arrival) : List UInt8 := as.filterMap Arrival.value

lemma bytes_byte (b : UInt8) (as : List Arrival) : bytes (.byte b :: as) = b :: bytes as := rfl

lemma bytes_stall (as : List Arrival) : bytes (.stall :: as) = bytes as := rfl

/-- Bytes that come in two parts arrive in two parts. -/
lemma bytes_eq_append {as : List Arrival} {front back : List UInt8}
    (h : bytes as = front ++ back) :
    ∃ before after, as = before ++ after ∧ bytes before = front ∧ bytes after = back :=
  List.filterMap_eq_append_iff.mp h

section
variable {t : Teensy} {as : List Arrival}

lemma arrivals_cons (t : Teensy) (a : Arrival) (as : List Arrival) :
    t.arrivals (a :: as) = (t.arrive a).arrivals as := rfl

lemma arrivals_append (t : Teensy) (as bs : List Arrival) :
    t.arrivals (as ++ bs) = (t.arrivals as).arrivals bs :=
  List.foldl_append

lemma ledsPerStrip_arrivals (t : Teensy) (as : List Arrival) :
    (t.arrivals as).ledsPerStrip = t.ledsPerStrip := by
  induction as generalizing t with
  | nil => rfl
  | cons a as ih => rw [arrivals_cons, ih, ledsPerStrip_arrive]

/-- A restart is for ever. -/
lemma mode_arrivals_restarted (h : t.mode = .restarted) : (t.arrivals as).mode = .restarted := by
  induction as generalizing t with
  | nil => exact h
  | cons a as ih => exact ih (mode_arrive_restarted h a)

/-- What has been shown stays shown. -/
lemma shows_prefix_arrive (t : Teensy) (a : Arrival) : t.shows <+: (t.arrive a).shows := by
  unfold arrive
  cases a with
  | byte b =>
    dsimp only
    unfold byte show_leds
    cases t.mode with
    | loop => dsimp only; split_ifs <;> exact List.prefix_rfl
    | reading count =>
      dsimp only
      split_ifs
      · exact List.prefix_append _ _
      · exact List.prefix_rfl
      · exact List.prefix_append _ _
    | restarted => exact List.prefix_rfl
  | stall =>
    dsimp only
    unfold timeout show_leds
    cases t.mode with
    | reading count => exact List.prefix_append _ _
    | _ => exact List.prefix_rfl

lemma shows_prefix_arrivals (t : Teensy) (as : List Arrival) :
    t.shows <+: (t.arrivals as).shows := by
  induction as generalizing t with
  | nil => exact List.prefix_rfl
  | cons a as ih => exact (shows_prefix_arrive t a).trans (ih (t.arrive a))

/-! ## The rest of a message -/

/-- `loop` discards what is no command. -/
lemma arrivals_discard (hmode : t.mode = .loop) (h : ∀ b ∈ bytes as, b ≠ 42 ∧ b ≠ 33) :
    t.arrivals as = t := by
  induction as with
  | nil => rfl
  | cons a as ih =>
    have hsame : t.arrive a = t := by
      cases a with
      | stall => rw [arrive, timeout, hmode]
      | byte b =>
        obtain ⟨hstar, hreset⟩ := h b List.mem_cons_self
        rw [arrive, byte, hmode]
        dsimp only
        rw [if_neg hstar, if_neg hreset]
    rw [arrivals_cons, hsame]
    apply ih
    cases a with
    | stall => exact h
    | byte b => exact fun c hc => h c (List.mem_cons_of_mem b hc)

/-- The rest of a message is no command. -/
lemma rest_ne {rest : List UInt8} (hrest : ∀ b ∈ rest, IsPulse b) :
    ∀ b ∈ rest ++ [35], b ≠ 42 ∧ b ≠ 33 := by
  intro b hb
  rcases List.mem_append.mp hb with hb | hb
  · exact ⟨(hrest b hb).ne, (hrest b hb).ne⟩
  · rw [List.mem_singleton.mp hb]
    decide

/-- The controller is back in `loop` and has shown one frame more. -/
def ShownOnce (t t' : Teensy) : Prop := t'.mode = .loop ∧ t'.shows.length = t.shows.length + 1

lemma shownOnce_show_leds (t : Teensy) : ShownOnce t t.show_leds :=
  ⟨rfl, List.length_append⟩

/-- Wherever the reading of a message ends, its rest is discarded. -/
lemma shownOnce_rest {count : ℕ} {rest : List UInt8} (hmode : t.mode = .reading count)
    (hrest : ∀ b ∈ rest, IsPulse b) (h : bytes as = rest ++ [35]) :
    ShownOnce t (t.arrivals as) := by
  induction as generalizing t count rest with
  | nil => exact absurd h (by simp [bytes])
  | cons a as ih =>
    cases a with
    | stall =>
      -- the rest of the message is left to `loop`
      have hshow : t.arrive .stall = t.show_leds := by rw [arrive, timeout, hmode]
      rw [bytes_stall] at h
      rw [arrivals_cons, hshow, arrivals_discard rfl (by rw [h]; exact rest_ne hrest)]
      exact shownOnce_show_leds t
    | byte b =>
      rw [bytes_byte] at h
      rw [arrivals_cons, arrive]
      cases rest with
      | nil =>
        -- the terminator
        rw [List.nil_append, List.cons.injEq] at h
        rcases h with ⟨rfl, hnil⟩
        rw [byte_terminator hmode, arrivals_discard rfl (by rw [hnil]; simp)]
        exact shownOnce_show_leds t
      | cons c rest =>
        rw [List.cons_append, List.cons.injEq] at h
        rcases h with ⟨rfl, htail⟩
        have hne : b ≠ 35 := (hrest b List.mem_cons_self).ne
        have hrest' : ∀ c ∈ rest, IsPulse c := fun c hc => hrest c (List.mem_cons_of_mem b hc)
        by_cases hroom : count + 1 < t.readLength
        · rw [byte_store hmode hne hroom]
          exact ih rfl hrest' htail
        · -- as many bytes as may be stored: the rest of the message is left to `loop`
          rw [byte_full hmode hne hroom, arrivals_discard rfl (by rw [htail]; exact rest_ne hrest')]
          exact shownOnce_show_leds _

/-- A message is shown once, wherever the line stalls. -/
lemma shownOnce_message {p : List UInt8} (hmode : t.mode = .loop) (hp : ∀ b ∈ p, IsPulse b)
    (h : bytes as = message p) : ShownOnce t (t.arrivals as) := by
  induction as with
  | nil => exact absurd h (by simp [bytes, message])
  | cons a as ih =>
    cases a with
    | stall =>
      have hsame : t.arrive .stall = t := by rw [arrive, timeout, hmode]
      rw [arrivals_cons, hsame]
      exact ih h
    | byte b =>
      rw [bytes_byte, message, List.append_assoc, List.singleton_append, List.cons.injEq] at h
      rcases h with ⟨rfl, hrest⟩
      rw [arrivals_cons, arrive, byte_start hmode]
      exact shownOnce_rest (t := { t with mode := .reading 0 }) rfl hp hrest

/-- Every message is shown once. -/
lemma arrivals_messages {frames : List (List UInt8)} (hmode : t.mode = .loop)
    (hframes : ∀ p ∈ frames, ∀ b ∈ p, IsPulse b) (h : bytes as = frames.flatMap message) :
    (t.arrivals as).mode = .loop ∧
      (t.arrivals as).shows.length = t.shows.length + frames.length := by
  induction frames generalizing t as with
  | nil =>
    have hsame : t.arrivals as = t := arrivals_discard hmode (by rw [h]; simp)
    rw [hsame]
    exact ⟨hmode, rfl⟩
  | cons p frames ih =>
    rw [List.flatMap_cons] at h
    rcases bytes_eq_append h with ⟨first, others, rfl, hfirst, hothers⟩
    have honce := shownOnce_message hmode (hframes p List.mem_cons_self) hfirst
    have hrest := ih honce.1 (fun q hq => hframes q (List.mem_cons_of_mem p hq)) hothers
    rw [arrivals_append]
    refine ⟨hrest.1, ?_⟩
    rw [hrest.2, honce.2, List.length_cons]
    omega

/-! ## A message without a stall -/

/-- A payload that fits is stored completely when no stall cuts it. -/
lemma arrivals_rest {stored rest : List UInt8} (hmode : t.mode = .reading stored.length)
    (hholds : Holds t.drawingMemory stored) (hrest : ∀ b ∈ rest, IsPulse b)
    (hfits : (stored ++ rest).length ≤ 24 * t.ledsPerStrip) :
    ∃ memory, (t.arrivals ((rest ++ [35]).map .byte)).shows = t.shows ++ [memory] ∧
      Holds memory (stored ++ rest) := by
  induction rest generalizing t stored with
  | nil =>
    refine ⟨t.drawingMemory, ?_, by rw [List.append_nil]; exact hholds⟩
    show (t.byte 35).shows = _
    rw [byte_terminator hmode]
    rfl
  | cons b rest ih =>
    have hne : b ≠ 35 := (hrest b List.mem_cons_self).ne
    have hroom := room_of_fits hfits
    have hsplit : stored ++ b :: rest = stored ++ [b] ++ rest := by simp
    rw [hsplit] at hfits ⊢
    have hstore := byte_store hmode hne hroom
    have hmode' : (t.byte b).mode = .reading (stored ++ [b]).length := by
      rw [hstore, List.length_append, List.length_singleton]
    have hholds' : Holds (t.byte b).drawingMemory (stored ++ [b]) := by
      rw [hstore]
      exact hholds.store b
    have hrest' : ∀ c ∈ rest, IsPulse c := fun c hc => hrest c (List.mem_cons_of_mem b hc)
    have hshows : (t.byte b).shows = t.shows := by rw [hstore]
    rw [List.cons_append, List.map_cons, arrivals_cons, arrive, ← hshows]
    rw [← ledsPerStrip_byte t b] at hfits
    exact ih hmode' hholds' hrest' hfits

lemma arrivals_message {p : List UInt8} (hmode : t.mode = .loop) (hp : ∀ b ∈ p, IsPulse b)
    (hfits : p.length ≤ 24 * t.ledsPerStrip) :
    ∃ memory, (t.arrivals ((message p).map .byte)).shows = t.shows ++ [memory] ∧
      Holds memory p := by
  rw [message, List.append_assoc, List.singleton_append, List.map_cons, arrivals_cons, arrive,
    byte_start hmode]
  have hnone : Holds t.drawingMemory [] := fun k hk => absurd hk (Nat.not_lt_zero k)
  exact arrivals_rest (t := { t with mode := .reading 0 }) rfl hnone hp hfits

end

/-- **The protocol resynchronises.** For every sequence of messages of pulses and stalls
anywhere on the line: the controller never restarts, shows every message exactly once, and
stores a payload that fits and is not cut by a stall completely. -/
theorem resynchronises (ledsPerStrip : ℕ) (drawingMemory : ℕ → UInt8) (frames : List (List UInt8))
    (hframes : ∀ p ∈ frames, ∀ b ∈ p, IsPulse b) (as : List Arrival)
    (hline : bytes as = frames.flatMap message) :
    (∀ before after, as = before ++ after →
      ((start ledsPerStrip drawingMemory).arrivals before).mode ≠ .restarted) ∧
    (∀ before after i, as = before ++ after → i ≤ frames.length →
      bytes before = (frames.take i).flatMap message →
      ((start ledsPerStrip drawingMemory).arrivals before).shows.length = i) ∧
    ((start ledsPerStrip drawingMemory).arrivals as).shows.length = frames.length ∧
    ∀ before after i p, frames[i]? = some p → p.length ≤ 24 * ledsPerStrip →
      bytes before = (frames.take i).flatMap message →
      as = before ++ (message p).map .byte ++ after →
      ∃ memory, ((start ledsPerStrip drawingMemory).arrivals as).shows[i]? = some memory ∧
        Holds memory p := by
  have hall (as : List Arrival) {i : ℕ} (hi : i ≤ frames.length)
      (has : bytes as = (frames.take i).flatMap message) :
      ((start ledsPerStrip drawingMemory).arrivals as).mode = .loop ∧
        ((start ledsPerStrip drawingMemory).arrivals as).shows.length = i := by
    have hmessages := arrivals_messages (t := start ledsPerStrip drawingMemory) rfl
      (fun p hp => hframes p (List.mem_of_mem_take hp)) has
    refine ⟨hmessages.1, ?_⟩
    rw [hmessages.2, List.length_take, Nat.min_eq_left hi]
    exact Nat.zero_add i
  have hend := hall as le_rfl (by rw [List.take_length, hline])
  refine ⟨?_, ?_, hend.2, ?_⟩
  · rintro before after rfl hrestarted
    have hmode := hend.1
    rw [arrivals_append, mode_arrivals_restarted hrestarted] at hmode
    exact absurd hmode (by simp)
  · rintro before after i - hi hbefore
    exact (hall before hi hbefore).2
  · rintro before after i p hp hfits hbefore rfl
    have hi : i < frames.length := (List.getElem?_eq_some_iff.mp hp).1
    obtain ⟨hmode, hlength⟩ := hall before hi.le hbefore
    have hpulses := hframes p (List.mem_of_getElem? hp)
    have hleds : ((start ledsPerStrip drawingMemory).arrivals before).ledsPerStrip = ledsPerStrip :=
      ledsPerStrip_arrivals _ _
    obtain ⟨memory, hshows, hholds⟩ := arrivals_message hmode hpulses (by rw [hleds]; exact hfits)
    refine ⟨memory, ?_, hholds⟩
    -- what comes after leaves the frame where it is
    have hprefix := shows_prefix_arrivals
      ((start ledsPerStrip drawingMemory).arrivals (before ++ (message p).map .byte)) after
    rw [← arrivals_append, arrivals_append _ before, hshows] at hprefix
    obtain ⟨later, hlater⟩ := hprefix
    rw [← hlater, List.append_assoc, List.getElem?_append_right (by omega), hlength, Nat.sub_self]
    rfl

/-- A message of three pulses, cut by a stall behind the second one. -/
def cutMessage : List Arrival := [.byte 42, .byte 0xFF, .byte 0, .stall, .byte 0xFF, .byte 35]

lemma bytes_cutMessage : bytes cutMessage = message [0xFF, 0, 0xFF] := rfl

/-- Two LEDs would need 48 bytes; a stall cuts the first message, and the second message
follows. -/
theorem resynchronises_cut :
    ((start 2 fun _ => 0).arrivals
      (cutMessage ++ (message [0xFF]).map Arrival.byte ++ [])).shows.length = 2 ∧
    ∃ memory, ((start 2 fun _ => 0).arrivals
      (cutMessage ++ (message [0xFF]).map Arrival.byte ++ [])).shows[1]? = some memory ∧
        Holds memory [0xFF] := by
  have hframes : ∀ p ∈ [[0xFF, 0, 0xFF], [0xFF]], ∀ b ∈ p, IsPulse b := by
    simp [IsPulse]
  have hall := resynchronises 2 (fun _ => 0) [[0xFF, 0, 0xFF], [0xFF]] hframes
    (cutMessage ++ (message [0xFF]).map Arrival.byte ++ []) rfl
  have hsecond := hall.2.2.2 cutMessage [] 1 [0xFF] rfl (by decide) bytes_cutMessage rfl
  exact ⟨hall.2.2.1, hsecond⟩

end Teensy
end Syndilights.V2
