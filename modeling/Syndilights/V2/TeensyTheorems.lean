import Syndilights.V2.Teensy

/-!
# Where the controller stores bytes

`loop` lets `readBytesUntil` store one byte more than the drawing memory has room for. The
memory is safe exactly as long as no payload on the line is longer than it.
-/

namespace Syndilights.V2
namespace Teensy

/-! ## One byte -/

section
variable {t : Teensy} {count : ℕ}

/-- A payload starts. -/
lemma byte_start (h : t.mode = .loop) : t.byte 42 = { t with mode := .reading 0 } := by
  unfold byte
  rw [h]
  rfl

/-- A payload ends, and is shown. -/
lemma byte_terminator (h : t.mode = .reading count) : t.byte 35 = t.show_leds := by
  unfold byte
  rw [h]
  rfl

/-- A byte of a payload is stored, when there is room for one more. -/
lemma byte_store (h : t.mode = .reading count) {b : UInt8} (hb : b ≠ 35)
    (hroom : count + 1 < t.readLength) :
    t.byte b = { t with
      drawingMemory := Function.update t.drawingMemory count b
      mode := .reading (count + 1) } := by
  unfold byte
  rw [h]
  dsimp only
  rw [if_neg hb]
  exact if_pos hroom

/-- The last byte for which there is room is stored, and the frame is shown. -/
lemma byte_full (h : t.mode = .reading count) {b : UInt8} (hb : b ≠ 35)
    (hfull : ¬count + 1 < t.readLength) :
    t.byte b = show_leds { t with
      drawingMemory := Function.update t.drawingMemory count b
      mode := .reading (count + 1) } := by
  unfold byte
  rw [h]
  dsimp only
  rw [if_neg hb]
  exact if_neg hfull

/-- A payload that fits leaves room for one byte more. -/
lemma room_of_fits {stored rest : List UInt8} {b : UInt8}
    (h : (stored ++ b :: rest).length ≤ 24 * t.ledsPerStrip) :
    stored.length + 1 < t.readLength := by
  rw [List.length_append, List.length_cons] at h
  unfold readLength
  omega

end

lemma ledsPerStrip_byte (t : Teensy) (b : UInt8) : (t.byte b).ledsPerStrip = t.ledsPerStrip := by
  unfold byte show_leds
  cases t.mode <;> dsimp only <;> split_ifs <;> rfl

/-- `storeIndex` is where the drawing memory changes. -/
lemma drawingMemory_byte (t : Teensy) (b : UInt8) :
    (t.byte b).drawingMemory = match t.storeIndex b with
      | some k => Function.update t.drawingMemory k b
      | none => t.drawingMemory := by
  unfold byte storeIndex show_leds
  cases t.mode with
  | loop => dsimp only; split_ifs <;> rfl
  | reading count => dsimp only; split_ifs <;> rfl
  | restarted => rfl

/-- After a reset command nothing is stored. -/
lemma mode_arrive_restarted {t : Teensy} (h : t.mode = .restarted) (a : Arrival) :
    (t.arrive a).mode = .restarted := by
  cases a with
  | byte b => rw [arrive, byte, h]; exact h
  | stall => rw [arrive, timeout, h]; exact h

/-! ## All bytes -/

/-- The controller when `setup` is done. -/
def start (ledsPerStrip : ℕ) (drawingMemory : ℕ → UInt8) : Teensy :=
  ⟨ledsPerStrip, drawingMemory, .loop, []⟩

/-- Every byte that is stored lands in the drawing memory, which has
`sizeof(int)*6*ledsPerStrip` bytes. -/
def StaysInside (t : Teensy) (as : List Arrival) : Prop :=
  ∀ before b after k, as = before ++ .byte b :: after →
    (t.arrivals before).storeIndex b = some k → k < 4 * 6 * t.ledsPerStrip

/-- The payloads on the line, of any length: the bytes behind a `*` up to the next `#`, the
next stall or the end. `p` is a payload that has been started. Behind a reset command
nothing counts. -/
def payloads : (p : Option (List UInt8)) → List Arrival → List (List UInt8)
  | p, [] => p.toList
  | none, .stall :: as => payloads none as
  | none, .byte b :: as =>
    if b = 42 then payloads (some []) as else if b = 33 then [] else payloads none as
  | some p, .stall :: as => p :: payloads none as
  | some p, .byte b :: as =>
    if b = 35 then p :: payloads none as else payloads (some (p ++ [b])) as

/-- A payload that has been started only grows. -/
lemma exists_longer (p : List UInt8) (as : List Arrival) :
    ∃ q ∈ payloads (some p) as, p.length ≤ q.length := by
  induction as generalizing p with
  | nil => exact ⟨p, List.mem_singleton_self p, le_rfl⟩
  | cons a as ih =>
    cases a with
    | stall => exact ⟨p, List.mem_cons_self, le_rfl⟩
    | byte b =>
      rw [payloads]
      split_ifs with hend
      · exact ⟨p, List.mem_cons_self, le_rfl⟩
      · rcases ih (p ++ [b]) with ⟨q, hq, hlen⟩
        rw [List.length_append, List.length_singleton] at hlen
        exact ⟨q, hq, by omega⟩

section
variable {t : Teensy} {as : List Arrival}

lemma ledsPerStrip_arrive (t : Teensy) (a : Arrival) :
    (t.arrive a).ledsPerStrip = t.ledsPerStrip := by
  cases a with
  | byte b => exact ledsPerStrip_byte t b
  | stall =>
    unfold arrive timeout show_leds
    cases t.mode <;> rfl

/-- The first arrival, and the others. -/
lemma staysInside_cons {a : Arrival} :
    StaysInside t (a :: as) ↔
      (∀ b k, a = .byte b → t.storeIndex b = some k → k < 4 * 6 * t.ledsPerStrip) ∧
      StaysInside (t.arrive a) as := by
  constructor
  · intro h
    constructor
    · intro b k ha hk
      exact h [] b as k (by rw [ha, List.nil_append]) hk
    · intro before b after k hsplit hk
      rw [ledsPerStrip_arrive]
      exact h (a :: before) b after k (by rw [hsplit, List.cons_append]) hk
  · rintro ⟨hfirst, hrest⟩ before b after k hsplit hk
    cases before with
    | nil =>
      rw [List.nil_append, List.cons.injEq] at hsplit
      exact hfirst b k hsplit.1 hk
    | cons c before =>
      rw [List.cons_append, List.cons.injEq] at hsplit
      rcases hsplit with ⟨rfl, hsplit⟩
      have hlt := hrest before b after k hsplit hk
      rwa [ledsPerStrip_arrive] at hlt

lemma staysInside_restarted (h : t.mode = .restarted) : StaysInside t as := by
  induction as generalizing t with
  | nil => exact fun before b after k hsplit => absurd hsplit (by simp)
  | cons a as ih =>
    refine staysInside_cons.mpr ⟨?_, ih (mode_arrive_restarted h a)⟩
    intro b k _ hk
    rw [storeIndex, h] at hk
    exact absurd hk (by simp)

/-- The arrival stores nothing. -/
lemma staysInside_skip {a : Arrival} (h : ∀ b, a = .byte b → t.storeIndex b = none) :
    StaysInside t (a :: as) ↔ StaysInside (t.arrive a) as := by
  rw [staysInside_cons, and_iff_right_iff_imp]
  intro _ b k ha hk
  rw [h b ha] at hk
  exact absurd hk (by simp)

/-- The controller is where the payloads say it is. -/
def InStep (t : Teensy) : Option (List UInt8) → Prop
  | none => t.mode = .loop
  | some p => t.mode = .reading p.length ∧ p.length ≤ 24 * t.ledsPerStrip

/-- A byte of a payload that still fits, behind it. -/
lemma inStep_store {p : List UInt8} (h : InStep t (some p)) {b : UInt8} (hb : b ≠ 35)
    (hroom : p.length < 24 * t.ledsPerStrip) : InStep (t.byte b) (some (p ++ [b])) := by
  have hread : p.length + 1 < t.readLength := by
    unfold readLength
    omega
  rw [byte_store h.1 hb hread, InStep, List.length_append, List.length_singleton]
  exact ⟨rfl, hroom⟩

/-- The drawing memory is safe for the rest of the line when the payloads on it fit. -/
def SafeIffFits (t : Teensy) (p : Option (List UInt8)) (as : List Arrival) : Prop :=
  StaysInside t as ↔ ∀ q ∈ payloads p as, q.length ≤ 24 * t.ledsPerStrip

lemma safeIffFits_nil {p : Option (List UInt8)} (h : InStep t p) : SafeIffFits t p [] := by
  have hnone : StaysInside t [] := fun before b after k hsplit => absurd hsplit (by simp)
  rw [SafeIffFits, iff_true_left hnone]
  cases p with
  | none => exact fun q hq => absurd hq List.not_mem_nil
  | some p => exact fun q hq => by rw [List.mem_singleton.mp hq]; exact h.2

/-- Between two payloads. -/
lemma safeIffFits_loop (h : InStep t none) (a : Arrival)
    (ih : ∀ {t p}, InStep t p → SafeIffFits t p as) : SafeIffFits t none (a :: as) := by
  have hmode : t.mode = .loop := h
  rw [SafeIffFits, staysInside_skip fun b _ => by rw [storeIndex, hmode]]
  cases a with
  | stall =>
    have hloop : t.arrive .stall = t := by rw [arrive, timeout, hmode]
    rw [hloop, payloads]
    exact ih h
  | byte b =>
    rw [payloads]
    split_ifs with hstar hreset
    · -- a payload starts
      rw [hstar, ← ledsPerStrip_arrive t (.byte 42)]
      apply ih
      rw [arrive, byte_start hmode]
      exact ⟨rfl, Nat.zero_le _⟩
    · -- the controller restarts
      have hrestarted : (t.arrive (.byte b)).mode = .restarted := by
        rw [arrive, byte, hmode]
        dsimp only
        rw [if_neg hstar, if_pos hreset]
      exact iff_of_true (staysInside_restarted hrestarted) fun q hq => absurd hq List.not_mem_nil
    · -- the byte is discarded
      have hloop : t.arrive (.byte b) = t := by
        rw [arrive, byte, hmode]
        dsimp only
        rw [if_neg hstar, if_neg hreset]
      rw [hloop]
      exact ih h

/-- A byte of a payload is stored behind the others. -/
lemma safeIffFits_store {p : List UInt8} (h : InStep t (some p)) {b : UInt8} (hb : b ≠ 35)
    (ih : ∀ {t p}, InStep t p → SafeIffFits t p as) :
    StaysInside t (.byte b :: as) ↔
      ∀ q ∈ payloads (some (p ++ [b])) as, q.length ≤ 24 * t.ledsPerStrip := by
  have hstore : t.storeIndex b = some p.length := by
    rw [storeIndex, h.1]
    exact if_neg hb
  by_cases hroom : p.length < 24 * t.ledsPerStrip
  · rw [staysInside_cons, and_iff_right, ← ledsPerStrip_arrive t (.byte b)]
    · exact ih (inStep_store h hb hroom)
    · intro c k hc hk
      rw [← Arrival.byte.inj hc, hstore, Option.some.injEq] at hk
      omega
  · apply iff_of_false
    · intro hinside
      have hlt := (staysInside_cons.mp hinside).1 b p.length rfl hstore
      omega
    · intro hall
      rcases exists_longer (p ++ [b]) as with ⟨q, hq, hlen⟩
      have hle := hall q hq
      rw [List.length_append, List.length_singleton] at hlen
      omega

/-- Within a payload. -/
lemma safeIffFits_reading {p : List UInt8} (h : InStep t (some p)) (a : Arrival)
    (ih : ∀ {t p}, InStep t p → SafeIffFits t p as) : SafeIffFits t (some p) (a :: as) := by
  have hshow : InStep t.show_leds none := rfl
  cases a with
  | stall =>
    have hloop : t.arrive .stall = t.show_leds := by rw [arrive, timeout, h.1]
    rw [SafeIffFits, staysInside_skip fun b hb => by simp at hb, hloop, payloads,
      List.forall_mem_cons, and_iff_right h.2]
    exact ih hshow
  | byte b =>
    rw [SafeIffFits, payloads]
    split_ifs with hend
    · -- the payload ends
      have hloop : t.arrive (.byte b) = t.show_leds := by
        rw [hend]
        exact byte_terminator h.1
      have hnone : t.storeIndex b = none := by rw [storeIndex, h.1]; exact if_pos hend
      rw [staysInside_skip fun c hc => by rw [← Arrival.byte.inj hc, hnone], hloop,
        List.forall_mem_cons, and_iff_right h.2]
      exact ih hshow
    · exact safeIffFits_store h hend ih

/-- The induction over what arrives: as long as every payload fits, the controller counts the
same payload as the line shows. -/
lemma safeIffFits_of_inStep {p : Option (List UInt8)} (h : InStep t p) : SafeIffFits t p as := by
  induction as generalizing t p with
  | nil => exact safeIffFits_nil h
  | cons a as ih =>
    cases p with
    | none => exact safeIffFits_loop h a ih
    | some p => exact safeIffFits_reading h a ih

end

/-- **When the drawing memory is safe.** Whatever arrives after `setup`, every stored byte
lands in the drawing memory exactly when no payload on the line is longer than it. -/
theorem staysInside_iff (ledsPerStrip : ℕ) (drawingMemory : ℕ → UInt8) (as : List Arrival) :
    StaysInside (start ledsPerStrip drawingMemory) as ↔
      ∀ p ∈ payloads none as, p.length ≤ 24 * ledsPerStrip :=
  safeIffFits_of_inStep (p := none) rfl

/-- One LED, and 25 bytes without a `#`. -/
theorem byte_stored_outside :
    ¬ StaysInside (start 1 fun _ => 0) (.byte 42 :: List.replicate 25 (.byte 0)) := by
  intro h
  have hlt := h (.byte 42 :: List.replicate 24 (.byte 0)) 0 [] 24 (by decide) (by decide)
  exact absurd hlt (by decide)

end Teensy
end Syndilights.V2
