import Syndilights.V2.Pacing

/-!
# Late frames do not delay the next ones

The counter is not reset by a frame sync but moved on by the delay, so the frames that the board
paces keep a schedule of their own, whatever else it does in between. The schedule is kept until
a frame is more than 71 minutes late.
-/

namespace Syndilights.V2.VideoDisplay

/-! ## Waiting -/

section
variable {elapsed : ElapsedMicros} {usec : UInt32} {time due : ℕ}

/-- The wait ends when the counter is there. -/
lemma wait_eq : elapsed.wait usec time = time + (usec.toNat - (elapsed.read time).toNat) := by
  induction time using ElapsedMicros.wait.induct elapsed usec with
  | case1 time hlt ih =>
    have hread := ElapsedMicros.read_succ hlt
    rw [UInt32.lt_iff_toNat_lt] at hlt
    rw [ElapsedMicros.wait, if_pos (UInt32.lt_iff_toNat_lt.mpr hlt), ih, hread]
    omega
  | case2 time hge =>
    rw [ElapsedMicros.wait, if_neg hge]
    rw [UInt32.lt_iff_toNat_lt] at hge
    omega

/-- The counter is right up to multiples of 71 minutes. -/
lemma toNat_read_zero (h : due ≤ time) :
    ((ElapsedMicros.zero due).read time).toNat = (time - due) % 2 ^ 32 := by
  show (UInt32.ofNat time - UInt32.ofNat due).toNat = _
  rw [UInt32.toNat_sub, UInt32.toNat_ofNat', UInt32.toNat_ofNat']
  omega

lemma zero_sub (usec : ℕ) :
    (ElapsedMicros.zero due).sub (UInt32.ofNat usec) = .zero (due + usec) := by
  show ElapsedMicros.mk (UInt32.ofNat due + UInt32.ofNat usec) = .mk (UInt32.ofNat (due + usec))
  rw [UInt32.ofNat_add]

/-- The wait of a frame, when the last one was due at a known time. -/
lemma wait_zero (h : due ≤ time) {usec : ℕ} (husec : usec < 2 ^ 32) :
    (ElapsedMicros.zero due).wait (UInt32.ofNat usec) time =
      time + (usec - (time - due) % 2 ^ 32) := by
  rw [wait_eq, toNat_read_zero h, UInt32.toNat_ofNat', Nat.mod_eq_of_lt husec]

end

/-! ## The delay -/

section
variable {sizeof usec : ℕ} {serial drawingMemory : List UInt8}

/-- The delay is the number in front of the image. -/
lemma readFrame_eq_some (h : (readFrame sizeof serial).1 = some (usec, drawingMemory)) :
    (serial.take 2).length = 2 ∧ from_bytes (serial.take 2) = usec := by
  unfold readFrame at h
  dsimp only at h
  split_ifs at h with hfield himage
  · cases h
    exact ⟨not_not.mp hfield, rfl⟩

/-- A paced frame comes behind a `$`. -/
lemma loop_eq_paced (h : (loop sizeof serial).1 = .paced usec drawingMemory) :
    ∃ rest, serial = 36 :: rest ∧ (readFrame sizeof rest).1 = some (usec, drawingMemory) := by
  rcases serial with _ | ⟨startChar, rest⟩
  · cases h
  rcases hread : (readFrame sizeof rest).1 with _ | ⟨n, image⟩
  · simp only [loop, hread, Option.elim_none] at h
    split_ifs at h
  · simp only [loop, hread, Option.elim_some] at h
    split_ifs at h with hmaster hpaced
    · cases h
      exact ⟨rest, congrArg (· :: rest) hpaced, hread⟩

/-- The delay has two bytes. -/
lemma usec_lt (h : (loop sizeof serial).1 = .paced usec drawingMemory) : usec < 2 ^ 16 := by
  obtain ⟨rest, -, hread⟩ := loop_eq_paced h
  obtain ⟨htwo, rfl⟩ := readFrame_eq_some hread
  match rest.take 2, htwo with
  | [a, b], _ =>
    have ha := a.toNat_lt
    have hb := b.toNat_lt
    show a.toNat + 256 * (b.toNat + 256 * 0) < 2 ^ 16
    omega

end

/-! ## The schedule -/

/-- When the last paced frame was due, if the counter started at `due`: a reset starts it again,
and no other command moves it. -/
def lastDue (sizeof due : ℕ) (it : Iteration) : ℕ :=
  match (loop sizeof it.serial).1 with
  | .paced usec _ => due + usec
  | .reset => it.received
  | _ => due

/-- The same after several iterations from power-up. -/
def due (sizeof : ℕ) (its : List Iteration) : ℕ := its.foldl (lastDue sizeof) 0

/-- The counter counts from when the last frame was due, and that is past. -/
def Scheduled (sizeof : ℕ) (its : List Iteration) (b : Board) : Prop :=
  b.elapsedUsecSinceLastFrameSync = .zero (due sizeof its) ∧ due sizeof its ≤ b.now

section
variable {sizeof : ℕ} {its : List Iteration} {it : Iteration} {b b' : Board}

/-- One iteration keeps the schedule. -/
lemma scheduled_step (h : Scheduled sizeof its b) (hstep : Board.step sizeof b it = some b') :
    Scheduled sizeof (its ++ [it]) b' := by
  obtain ⟨helapsed, hdue⟩ := h
  obtain ⟨⟨hnow, hstarted, hsync⟩, rfl⟩ := ActionSystem.of_guard hstep
  have hreceived : due sizeof its ≤ it.received := by omega
  have hlast : due sizeof (its ++ [it]) = lastDue sizeof (due sizeof its) it := by
    rw [due, List.foldl_append]
    rfl
  rw [Scheduled, hlast, lastDue]
  cases hcommand : (loop sizeof it.serial).1 with
  | master usec memory =>
    refine ⟨helapsed, ?_⟩
    show due sizeof its ≤ it.received + UInt32.toNat _
    omega
  | paced usec memory =>
    have husec := usec_lt hcommand
    refine ⟨?_, ?_⟩
    · show b.elapsedUsecSinceLastFrameSync.sub (UInt32.ofNat usec) = _
      rw [helapsed, zero_sub]
    · show due sizeof its + usec ≤ b.elapsedUsecSinceLastFrameSync.wait (UInt32.ofNat usec) _
      rw [helapsed, wait_zero hreceived (by omega)]
      omega
  | slave memory =>
    cases hcame : it.sync with
    | none =>
      rw [Board.perform, hcame]
      exact ⟨helapsed, hreceived⟩
    | some time =>
      rw [hcame] at hsync
      rw [Board.perform, hcame]
      exact ⟨helapsed, le_trans hreceived hsync⟩
  | reset => exact ⟨rfl, le_rfl⟩
  | query => exact ⟨helapsed, hreceived⟩
  | nothing => exact ⟨helapsed, hreceived⟩

/-- From power-up on. -/
lemma scheduled_run (hrun : ActionSystem.run (Board.step sizeof) .boot its = some b) :
    Scheduled sizeof its b :=
  ActionSystem.run_history (I := Scheduled sizeof) ⟨rfl, le_rfl⟩
    (fun _ _ _ _ _ h _ hstep => scheduled_step h hstep) ActionSystem.meets_true hrun

/-- **The schedule.** After any run from power-up, the next paced frame is shown when it is due or,
if it comes late, at once, except when it is so late that the counter has come round. In each case
the frame behind it is due a delay later, however late this one was. -/
theorem shown_when_due_iff (hrun : ActionSystem.run (Board.step sizeof) .boot its = some b)
    (hstep : Board.step sizeof b it = some b') {usec : ℕ} {drawingMemory : List UInt8}
    (hpaced : (loop sizeof it.serial).1 = .paced usec drawingMemory) :
    due sizeof (its ++ [it]) = due sizeof its + usec ∧
    (b'.shown = b.shown ++ [(max it.received (due sizeof its + usec), drawingMemory)] ↔
      (2 ^ 32 ≤ it.received - due sizeof its →
        usec ≤ (it.received - due sizeof its) % 2 ^ 32)) := by
  obtain ⟨helapsed, hdue⟩ := scheduled_run hrun
  obtain ⟨⟨hnow, hstarted, -⟩, rfl⟩ := ActionSystem.of_guard hstep
  have hreceived : due sizeof its ≤ it.received := by omega
  have husec := usec_lt hpaced
  constructor
  · rw [due, List.foldl_append, List.foldl_cons, List.foldl_nil, lastDue, hpaced]
    rfl
  · rw [hpaced]
    show b.shown ++ [(b.elapsedUsecSinceLastFrameSync.wait (UInt32.ofNat usec) it.received,
      drawingMemory)] = _ ↔ _
    rw [helapsed, wait_zero hreceived (by omega), List.append_cancel_left_eq, List.cons.injEq,
      Prod.mk.injEq]
    simp only [and_true]
    omega

end

/-- The counter is reset. -/
def reset : List Iteration := [⟨3, [64], 5, none⟩]

/-- A frame of one byte, that is to be shown 100 microseconds later. -/
def frame : Iteration := ⟨6, [36, 100, 0, 7], 50, none⟩

/-- It is received after 50 microseconds, and shown after 105. -/
theorem shown_when_due_iff_frame : ∃ b, Board.step 1 ⟨.zero 5, 5, []⟩ frame = some b ∧
    b.shown = [(105, [7])] ∧ due 1 (reset ++ [frame]) = 105 := by
  have hrun : ActionSystem.run (Board.step 1) .boot reset = some ⟨.zero 5, 5, []⟩ := rfl
  have hstep : Board.step 1 ⟨.zero 5, 5, []⟩ frame =
    some (Board.perform ⟨.zero 5, 5, []⟩ frame (.paced 100 [7])) := rfl
  obtain ⟨hdue, hshown⟩ := shown_when_due_iff hrun hstep rfl
  exact ⟨_, hstep, hshown.mpr fun hlate => absurd hlate (by decide), hdue⟩

end Syndilights.V2.VideoDisplay
