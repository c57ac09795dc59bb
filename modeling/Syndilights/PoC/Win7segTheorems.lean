import Syndilights.PoC.Win7seg

/-!
# When the machines draw again

Both machines compare a clock of 16 bits with an absolute deadline. They draw again in time exactly
if the deadline is below the top of the clock, or wraps together with the clock.
-/

namespace Syndilights.PoC.Win7seg
open PolledTimer

/-! ## The clock -/

/-- The clock of the machines has 2 * 32768 values. -/
lemma toInt_myclock (time : ℕ) : (myclock time).toInt = clock 32768 time := by
  have hbits : (myclock time).toBitVec = (Int16.ofNat time).toBitVec := by
    apply BitVec.eq_of_toNat_eq
    show (time % 2 ^ 32) % 2 ^ 16 = time % 2 ^ 16
    omega
  rw [Int16.toBitVec_inj.mp hbits, Int16.toInt_ofNat']
  rfl

/-- The deadline is what the clock shows a period later. -/
lemma toInt_deadline (time period : ℕ) :
    (myclock time + Int16.ofNat period).toInt = clock 32768 (time + period) := by
  rw [Int16.toInt_add, toInt_myclock, Int16.toInt_ofNat']
  unfold clock
  rw [Int.add_bmod_bmod, Int.bmod_add_bmod]

/-! ## One call of the display machine -/

section
variable {now : Int16} {s : Display} {body : Display → Display} {period : ℕ}

lemma whenDue_of_lt (h : s.nextdclock < now) : whenDue now period body s =
    (body { s with nextdclock := now + Int16.ofNat period }, some period) := if_pos h

lemma whenDue_of_not_lt (h : ¬s.nextdclock < now) : whenDue now period body s = (s, none) :=
  if_neg h

/-- What is drawn leaves the deadline alone, and the state is the same or the next. -/
structure Draws (body : Display → Display) : Prop where
  nextdclock : ∀ s, (body s).nextdclock = s.nextdclock
  state7 : ∀ s, (body s).state7 ≤ s.state7 + 1

lemma draws_countDown : Draws countDown where
  nextdclock s := by
    unfold countDown
    dsimp only
    split_ifs <;> rfl
  state7 s := by
    unfold countDown
    dsimp only
    split_ifs
    · exact le_rfl
    · exact Nat.le_succ _

lemma draws_scroll : Draws scroll where
  nextdclock s := by
    unfold scroll
    split_ifs <;> rfl
  state7 s := by
    unfold scroll
    split_ifs
    · exact le_rfl
    · exact Nat.le_succ _

lemma draws_playPattern : Draws playPattern where
  nextdclock s := by
    unfold playPattern
    dsimp only
    split_ifs <;> rfl
  state7 s := by
    unfold playPattern
    dsimp only
    split_ifs
    · exact le_rfl
    · exact Nat.le_succ _

/-- The pattern player draws its last segment. -/
def PlaysLast (s : Display) : Prop := s.state7 = 5 ∧ pats[s.i + 2]? = some (-1)

instance (s : Display) : Decidable (PlaysLast s) :=
  inferInstanceAs (Decidable (s.state7 = 5 ∧ pats[s.i + 2]? = some (-1)))

/-- The pattern player ends behind its last segment. -/
lemma state7_playPattern (s : Display) :
    (playPattern s).state7 = if pats[s.i + 2]? = some (-1) then s.state7 + 1 else s.state7 := by
  unfold playPattern
  dsimp only
  split_ifs <;> rfl

/-- The period of the next deadline. -/
def periodOf (s : Display) : ℕ := if s.state7 ≤ 1 then 5 else 200

/-- The counter and the scroller do not lead into the last state. -/
lemma not_playsLast (hdraws : Draws body) {s₀ : Display} (h₀ : s₀.state7 ≤ 4) (h : s.state7 ≤ 4) :
    (body s₀).state7 = 6 ↔ PlaysLast s := by
  have hnext := hdraws.state7 s₀
  refine iff_of_false (by omega) fun hlast => ?_
  have hfive := hlast.1
  omega

/-- In all states but the last the machine looks at the clock. -/
lemma displays_eq (now : Int16) (h : s.state7 ≤ 5) :
    ∃ body s₀, Draws body ∧ s₀.nextdclock = s.nextdclock ∧ s₀.state7 ≤ 5 ∧
      displays now s = whenDue now (periodOf s) body s₀ ∧
      ∀ deadline, (body { s₀ with nextdclock := deadline }).state7 = 6 ↔ PlaysLast s := by
  unfold displays periodOf
  rcases (by omega : s.state7 = 0 ∨ s.state7 = 1 ∨ s.state7 = 2 ∨ s.state7 = 3 ∨ s.state7 = 4 ∨
    s.state7 = 5) with h0 | h1 | h2 | h3 | h4 | h5
  · rw [h0]
    exact ⟨countDown, { s with j := 2560, state7 := 0 + 1 }, draws_countDown, rfl,
      Nat.le_of_ble_eq_true rfl, rfl,
      fun _ => not_playsLast draws_countDown (Nat.le_of_ble_eq_true rfl) (by omega)⟩
  · rw [h1]
    exact ⟨countDown, s, draws_countDown, rfl, h, rfl,
      fun _ => not_playsLast draws_countDown (h1.trans_le (by omega)) (by omega)⟩
  · rw [h2]
    exact ⟨scroll, { s with state7 := 2 + 1, i := 0 }, draws_scroll, rfl,
      Nat.le_of_ble_eq_true rfl, rfl,
      fun _ => not_playsLast draws_scroll (Nat.le_of_ble_eq_true rfl) (by omega)⟩
  · rw [h3]
    exact ⟨scroll, s, draws_scroll, rfl, h, rfl,
      fun _ => not_playsLast draws_scroll (h3.trans_le (by omega)) (by omega)⟩
  · rw [h4]
    refine ⟨playPattern, { s with i := 0, state7 := 4 + 1 }, draws_playPattern, rfl, le_rfl, rfl,
      fun deadline => ?_⟩
    -- the pattern has more than one segment
    have hfirst : pats[0 + 2]? ≠ some (-1) := by decide
    rw [state7_playPattern, if_neg hfirst]
    refine iff_of_false (Nat.ne_of_lt (Nat.lt_succ_self 5)) fun hlast => ?_
    have hfive := hlast.1
    omega
  · rw [h5]
    refine ⟨playPattern, s, draws_playPattern, rfl, h, rfl, fun deadline => ?_⟩
    rw [state7_playPattern, PlaysLast]
    dsimp only
    split_ifs with hlast
    · exact iff_of_true (by omega) ⟨h5, hlast⟩
    · exact iff_of_false (by omega) fun hboth => hlast hboth.2

/-- When the machine fires, and what it schedules. -/
lemma displays_fires (h : s.state7 ≤ 5) :
    (displays now s).2 = if s.nextdclock < now then some (periodOf s) else none := by
  rcases displays_eq now h with ⟨body, s₀, -, hdeadline, -, heq, -⟩
  rw [heq, ← hdeadline]
  split_ifs with hdue
  · rw [whenDue_of_lt hdue]
  · rw [whenDue_of_not_lt hdue]

/-- A machine that waits keeps its deadline. -/
lemma displays_waits (h : s.state7 ≤ 5) (hdue : ¬s.nextdclock < now) :
    (displays now s).1.state7 ≤ 5 ∧ (displays now s).1.nextdclock = s.nextdclock := by
  rcases displays_eq now h with ⟨body, s₀, -, hdeadline, hstate, heq, -⟩
  rw [← hdeadline] at hdue
  rw [heq, whenDue_of_not_lt hdue]
  exact ⟨hstate, hdeadline⟩

/-- A machine that fires sets its deadline; only the last segment leads into the last state. -/
lemma displays_fired (h : s.state7 ≤ 5) (hdue : s.nextdclock < now) :
    (displays now s).1.nextdclock = now + Int16.ofNat (periodOf s) ∧
      (displays now s).1.state7 ≤ 6 ∧ ((displays now s).1.state7 = 6 ↔ PlaysLast s) := by
  rcases displays_eq now h with ⟨body, s₀, hdraws, hdeadline, hstate, heq, hlast⟩
  rw [← hdeadline] at hdue
  rw [heq, whenDue_of_lt hdue]
  refine ⟨hdraws.nextdclock _, ?_, hlast _⟩
  have hnext := hdraws.state7 { s₀ with nextdclock := now + Int16.ofNat (periodOf s) }
  exact hnext.trans (Nat.succ_le_succ hstate)

/-- In the last state the machine starts again. -/
lemma displays_last (now : Int16) (h : s.state7 = 6) :
    displays now s = ({ s with state7 := 0 }, none) := by
  unfold displays
  rw [h]
  rfl

end

/-! ## The display machine in a run -/

section
variable {time : ℕ → ℕ} {i p : ℕ}

/-- The states of the machine are the ones that the source names. -/
lemma state7_le (time : ℕ → ℕ) (k : ℕ) : (stateAt time k).display.state7 ≤ 6 := by
  -- on the calls; the last state is left at once
  induction k with
  | zero => exact Nat.zero_le 6
  | succ k ih =>
    show (displays (myclock (time k)) (stateAt time k).display).1.state7 ≤ 6
    rcases Nat.lt_or_eq_of_le ih with hlt | hlast
    · have hlooks := Nat.le_of_lt_succ hlt
      by_cases hdue : (stateAt time k).display.nextdclock < myclock (time k)
      · exact (displays_fired hlooks hdue).2.1
      · exact (displays_waits hlooks hdue).1.trans (Nat.le_succ 5)
    · rw [displays_last _ hlast]
      exact Nat.zero_le 6

/-- A call in which the machine fires. -/
lemma displayFires_eq_some (h : displayFires time i = some p) :
    (stateAt time i).display.state7 ≤ 5 ∧
      (stateAt time i).display.nextdclock < myclock (time i) ∧
      p = periodOf (stateAt time i).display := by
  unfold displayFires at h
  rcases Nat.lt_or_eq_of_le (state7_le time i) with hlt | hlast
  · have hlooks := Nat.le_of_lt_succ hlt
    rw [displays_fires hlooks, Option.ite_none_right_eq_some] at h
    exact ⟨hlooks, h.1, (Option.some.inj h.2).symm⟩
  · rw [displays_last _ hlast] at h
    exact absurd h (by simp)

/-- The call in which the machine next looks at the clock. -/
def displayNext (time : ℕ → ℕ) (i : ℕ) : ℕ :=
  if PlaysLast (stateAt time i).display then i + 2 else i + 1

/-- The machine waits for a deadline that it set at the time `t`. -/
def Armed (time : ℕ → ℕ) (t : ℤ) (k : ℕ) : Prop :=
  (stateAt time k).display.state7 ≤ 5 ∧
    (stateAt time k).display.nextdclock.toInt = clock 32768 t

lemma Armed.isSome_iff {t : ℤ} {k : ℕ} (h : Armed time t k) :
    (displayFires time k).isSome ↔ clock 32768 t < clock 32768 (time k) := by
  unfold displayFires
  rw [displays_fires h.1, ← h.2, ← toInt_myclock, ← Int16.lt_iff_toInt_lt]
  split_ifs with hdue
  · exact iff_of_true rfl hdue
  · exact iff_of_false Bool.false_ne_true hdue

lemma Armed.succ {t : ℤ} {k : ℕ} (h : Armed time t k) (hquiet : ¬(displayFires time k).isSome) :
    Armed time t (k + 1) := by
  have hdue : ¬(stateAt time k).display.nextdclock < myclock (time k) := by
    rwa [Int16.lt_iff_toInt_lt, toInt_myclock, h.2, ← h.isSome_iff]
  have hwaits := displays_waits h.1 hdue
  exact ⟨hwaits.1, (congrArg Int16.toInt hwaits.2).trans h.2⟩

/-- The state behind a call in which the machine fires. -/
lemma display_succ (h : displayFires time i = some p) :
    (stateAt time (i + 1)).display.nextdclock.toInt = clock 32768 (time i + p) ∧
      ((stateAt time (i + 1)).display.state7 = 6 ↔ PlaysLast (stateAt time i).display) := by
  rcases displayFires_eq_some h with ⟨hlooks, hdue, hp⟩
  have hfired := displays_fired hlooks hdue
  rw [← hp] at hfired
  rw [← toInt_deadline]
  exact ⟨congrArg Int16.toInt hfired.1, hfired.2.2⟩

/-- The call that leaves the last state. -/
lemma display_restarts (hlast : (stateAt time i).display.state7 = 6) :
    displayFires time i = none ∧
      (stateAt time (i + 1)).display = { (stateAt time i).display with state7 := 0 } := by
  have hcall := displays_last (myclock (time i)) hlast
  exact ⟨congrArg Prod.snd hcall, congrArg Prod.fst hcall⟩

/-- **The display machine waits for its deadline.** -/
lemma display_waits (hpolls : Polls time) (h : displayFires time i = some p) :
    Waits 32768 time (fun k => (displayFires time k).isSome) i p (displayNext time i) := by
  rcases display_succ h with ⟨hdeadline, hsix⟩
  have htwo : 2 ≤ p := by
    rw [(displayFires_eq_some h).2.2, periodOf]
    split_ifs <;> omega
  have hoften := hpolls.often i
  have hoften' : time (i + 2) ≤ time (i + 1) + 1 := hpolls.often (i + 1)
  unfold displayNext
  split_ifs with hlast
  · -- the call in between leaves the last state without a look at the clock
    rcases display_restarts (hsix.mpr hlast) with ⟨hrest, hnext⟩
    refine waits_of_armed (Armed time (time i + p)) (by omega) (by omega) ?_ ?_
      (fun k hk => hk.isSome_iff) fun k hk hquiet => hk.succ hquiet
    · intro k hik hkn
      obtain rfl : k = i + 1 := by omega
      rw [hrest]
      exact Bool.false_ne_true
    · rw [Armed, hnext]
      exact ⟨Nat.zero_le 5, hdeadline⟩
  · have hstate : (stateAt time (i + 1)).display.state7 ≤ 5 := by
      have hle := state7_le time (i + 1)
      have hne := mt hsix.mp hlast
      omega
    exact waits_of_armed (Armed time (time i + p)) (Nat.lt_succ_self i) (by omega)
      (fun k hik hkn => absurd hik (by omega)) ⟨hstate, hdeadline⟩
      (fun k hk => hk.isSome_iff) fun k hk hquiet => hk.succ hquiet

end

/-! ## The windows machine in a run -/

section
variable {now : Int16} {s : Windows} {time : ℕ → ℕ} {i p : ℕ}

lemma nextwclock_scan (s : Windows) : (scan s).nextwclock = s.nextwclock := by
  unfold scan
  split_ifs <;> rfl

lemma nextwclock_walk (s : Windows) : (walk s).nextwclock = s.nextwclock := by
  unfold walk
  dsimp only
  split_ifs <;> rfl

lemma nextwclock_wipe (s : Windows) : (wipe s).nextwclock = s.nextwclock := by
  unfold wipe
  split_ifs <;> rfl

/-- What is drawn leaves the deadline alone. -/
lemma nextwclock_pattern (s : Windows) : (pattern s).nextwclock = s.nextwclock := by
  unfold pattern
  split <;> first | rfl | apply nextwclock_scan | apply nextwclock_walk | apply nextwclock_wipe

lemma windowsFires_eq (time : ℕ → ℕ) (k : ℕ) : windowsFires time k =
    if (stateAt time k).windows.nextwclock < myclock (time k) then some 120 else none := by
  unfold windowsFires windows
  split_ifs <;> rfl

/-- The deadline of the windows machine after a call. -/
lemma nextwclock_succ (time : ℕ → ℕ) (k : ℕ) : (stateAt time (k + 1)).windows.nextwclock =
    if (stateAt time k).windows.nextwclock < myclock (time k) then
      myclock (time k) + Int16.ofNat 120
    else (stateAt time k).windows.nextwclock := by
  show (windows _ _).1.nextwclock = _
  unfold windows
  split_ifs
  · exact nextwclock_pattern _
  · rfl

lemma windowsFires_isSome_iff (time : ℕ → ℕ) (k : ℕ) : (windowsFires time k).isSome ↔
    (stateAt time k).windows.nextwclock.toInt < clock 32768 (time k) := by
  rw [windowsFires_eq, ← toInt_myclock, ← Int16.lt_iff_toInt_lt]
  split_ifs with hdue
  · exact iff_of_true rfl hdue
  · exact iff_of_false Bool.false_ne_true hdue

/-- **The windows machine waits for its deadline.** -/
lemma windows_waits (hpolls : Polls time) (h : windowsFires time i = some p) :
    Waits 32768 time (fun k => (windowsFires time k).isSome) i p (i + 1) := by
  rw [windowsFires_eq, Option.ite_none_right_eq_some] at h
  obtain ⟨hdue, rfl⟩ : _ ∧ p = 120 := ⟨h.1, (Option.some.inj h.2).symm⟩
  have hoften := hpolls.often i
  refine waits_of_armed
    (fun k => (stateAt time k).windows.nextwclock.toInt = clock 32768 (time i + (120 : ℕ)))
    (Nat.lt_succ_self i) (by omega) (fun k hik hkn => absurd hik (by omega)) ?_ ?_ ?_
  · rw [nextwclock_succ, if_pos hdue, toInt_deadline]
  · intro k hk
    rw [windowsFires_isSome_iff, hk]
  · intro k hk hquiet
    rw [windowsFires_isSome_iff, ← toInt_myclock, ← Int16.lt_iff_toInt_lt] at hquiet
    rwa [nextwclock_succ, if_neg hquiet]

end

/-! ## On time -/

/-- The clock shows `c`, the deadline is `p` later, and the machine next looks after `d`: the
deadline is below the top of the clock, or both wrap. -/
def Clear (c : Int16) (p d : ℕ) : Prop :=
  c.toInt + p < 32767 ∨ (32767 < c.toInt + p ∧ 32767 < c.toInt + d)

instance (c : Int16) (p d : ℕ) : Decidable (Clear c p d) :=
  inferInstanceAs (Decidable (_ ∨ _))

section
variable {time : ℕ → ℕ} {fires : ℕ → Prop} {i p n : ℕ}

lemma onTime_iff_clear (hw : Waits 32768 time fires i p n) (hpolls : Polls time) (hp : p ≤ 200) :
    OnTime time fires i p ↔ Clear (myclock (time i)) p (time n - time i) := by
  rw [hw.onTime_iff hpolls (by omega) (by omega), ← toInt_myclock, Clear]
  push_cast
  omega

lemma period_le (h : displayFires time i = some p) : p ≤ 200 := by
  rw [(displayFires_eq_some h).2.2, periodOf]
  split_ifs <;> omega

lemma windows_onTime_iff (hpolls : Polls time) (h : windowsFires time i = some p) :
    OnTime time (fun k => (windowsFires time k).isSome) i p ↔
      Clear (myclock (time i)) p (time (i + 1) - time i) := by
  refine onTime_iff_clear (windows_waits hpolls h) hpolls ?_
  rw [windowsFires_eq, Option.ite_none_right_eq_some, Option.some.injEq] at h
  omega

/-- **When the machines draw again in time.** In every run, after every call in which a machine
fires. -/
theorem machines_onTime_iff (hpolls : Polls time) (i : ℕ) :
    (∀ p, displayFires time i = some p →
      (OnTime time (fun k => (displayFires time k).isSome) i p ↔
        Clear (myclock (time i)) p (time (displayNext time i) - time i))) ∧
    (∀ p, windowsFires time i = some p →
      (OnTime time (fun k => (windowsFires time k).isSome) i p ↔
        Clear (myclock (time i)) p (time (i + 1) - time i))) :=
  ⟨fun _ h => onTime_iff_clear (display_waits hpolls h) hpolls (period_le h),
    fun _ h => windows_onTime_iff hpolls h⟩

end

/-- The first calls in which the machines fire. -/
theorem machines_onTime_start :
    OnTime (fun k => k) (fun k => (displayFires (fun k => k) k).isSome) 1 5 ∧
      OnTime (fun k => k) (fun k => (windowsFires (fun k => k) k).isSome) 1 120 :=
  ⟨((machines_onTime_iff polls_id 1).1 5 (by decide)).mpr (by decide),
    ((machines_onTime_iff polls_id 1).2 120 (by decide)).mpr (by decide)⟩

/-- The windows machine, polled every millisecond since power-up, fires each 121 of them at
first. -/
lemma windowsFires_start (m : ℕ) (hm : m ≤ 270) :
    windowsFires (fun k => k) (1 + 121 * m) = some 120 := by
  induction m with
  | zero => decide
  | succ m ih =>
    have hfires := ih (by omega)
    have hclear : Clear (myclock (1 + 121 * m)) 120 (1 + 121 * m + 1 - (1 + 121 * m)) := by
      rw [Clear, toInt_myclock, clock_of_lt (by omega)]
      omega
    rcases (windows_onTime_iff polls_id hfires).mpr hclear with ⟨f, hif, hf, hlate, hbefore⟩
    dsimp only at hlate
    -- the poll in front of it is within the period
    have hlast : f - 1 ≤ 1 + 121 * m + 120 := by
      rcases Nat.eq_or_lt_of_le (Nat.le_sub_one_of_lt hif) with heq | hlt
      · omega
      · exact (hbefore (f - 1) hlt (by omega)).2
    obtain rfl : f = 1 + 121 * (m + 1) := by omega
    rw [windowsFires_eq] at hf ⊢
    by_contra hnone
    rw [if_neg fun hdue => hnone (if_pos hdue)] at hf
    exact Bool.false_ne_true hf

/-- Polled every millisecond since power-up, the windows machine fires after 32671 of them, and
then too early. -/
theorem windows_early :
    windowsFires (fun k => k) 32671 = some 120 ∧
      ¬OnTime (fun k => k) (fun k => (windowsFires (fun k => k) k).isSome) 32671 120 := by
  have hfires : windowsFires (fun k => k) 32671 = some 120 := windowsFires_start 270 le_rfl
  have hclear : ¬Clear (myclock 32671) 120 (32672 - 32671) := by decide
  exact ⟨hfires, fun honTime => hclear ((windows_onTime_iff polls_id hfires).mp honTime)⟩

end Syndilights.PoC.Win7seg
