import Mathlib.Tactic

/-!
# Timers on a clock that wraps

A program polls a signed clock with `2 * h` values. A timer that fires at some poll sets an
absolute deadline, a period later, and fires again at a poll whose clock is above it.
-/

namespace PolledTimer

/-! ## Polls -/

/-- The times of the polls: at least one in each unit of time, and time goes on. -/
structure Polls (time : ℕ → ℕ) : Prop where
  mono : ∀ k, time k ≤ time (k + 1)
  often : ∀ k, time (k + 1) ≤ time k + 1
  unbounded : ∀ t, ∃ k, t ≤ time k

section
variable {time : ℕ → ℕ}

lemma polls_id : Polls fun k => k where
  mono := Nat.le_succ
  often := fun _ => le_rfl
  unbounded t := ⟨t, le_rfl⟩

lemma Polls.monotone (h : Polls time) : Monotone time := monotone_nat_of_le_succ h.mono

/-- The first poll that is more than a period later. -/
lemma Polls.exists_first (h : Polls time) (i p : ℕ) :
    ∃ f, i < f ∧ time f = time i + p + 1 ∧ ∀ k < f, time k ≤ time i + p := by
  have hexists : ∃ k, time i + p < time k := h.unbounded (time i + p + 1)
  have hfirst : time i + p < time (Nat.find hexists) := Nat.find_spec hexists
  have hbefore : ∀ k < Nat.find hexists, time k ≤ time i + p := fun k hk =>
    not_lt.mp (Nat.find_min hexists hk)
  have hlt : i < Nat.find hexists := by
    by_contra hle
    have hmono := h.monotone (not_lt.mp hle)
    omega
  -- the poll in front of it is within the period, so it is one unit behind it
  obtain ⟨l, hl⟩ : ∃ l, Nat.find hexists = l + 1 := Nat.exists_eq_succ_of_ne_zero (by omega)
  refine ⟨Nat.find hexists, hlt, ?_, hbefore⟩
  have hlast := hbefore l (by omega)
  have hoften := h.often l
  rw [← hl] at hoften
  omega

end

/-- The timer that fired at poll `i` next fires at the first poll more than `p` later. -/
def OnTime (time : ℕ → ℕ) (fires : ℕ → Prop) (i p : ℕ) : Prop :=
  ∃ f, i < f ∧ fires f ∧ time i + p < time f ∧
    ∀ k, i < k → k < f → ¬fires k ∧ time k ≤ time i + p

/-! ## The clock -/

/-- What a clock with `2 * h` values shows. -/
def clock (h : ℕ) (t : ℤ) : ℤ := t.bmod (2 * h)

section
variable {h : ℕ} {t : ℤ} {p d : ℕ}

lemma clock_lt (hpos : 0 < h) : clock h t < h := by
  have hlt := Int.bmod_lt (x := t) (m := 2 * h) (by omega)
  unfold clock
  omega

lemma le_clock (hpos : 0 < h) : -(h : ℤ) ≤ clock h t := by
  have hle := Int.le_bmod (x := t) (m := 2 * h) (by omega)
  unfold clock
  omega

lemma clock_add : clock h (t + d) = (clock h t + d).bmod (2 * h) := Int.bmod_add_bmod.symm

/-- The clock starts at zero. -/
lemma clock_of_lt (hd : d < h) : clock h d = d :=
  Int.bmod_eq_of_le_mul_two (by push_cast; omega) (by push_cast; omega)

/-- The clock has not wrapped. -/
lemma clock_add_of_lt (hpos : 0 < h) (hd : clock h t + d < h) :
    clock h (t + d) = clock h t + d := by
  have hle := le_clock (t := t) hpos
  rw [clock_add]
  exact Int.bmod_eq_of_le_mul_two (by push_cast; omega) (by push_cast; omega)

/-- The clock has wrapped. -/
lemma clock_add_of_le (hpos : 0 < h) (hd : (h : ℤ) ≤ clock h t + d) (hmax : d ≤ 2 * h) :
    clock h (t + d) = clock h t + d - 2 * h := by
  have hlt := clock_lt (t := t) hpos
  have hwrap : (clock h t + d - (2 * h : ℕ)).bmod (2 * h) = clock h t + d - (2 * h : ℕ) :=
    Int.bmod_eq_of_le_mul_two (by push_cast; omega) (by push_cast; omega)
  rw [clock_add, ← Int.sub_bmod_right, hwrap]
  push_cast
  rfl

/-! ## Deadlines -/

/-- The deadline is below the top of the clock: it is passed in time. -/
lemma passed_iff_of_lt (hpos : 0 < h) (hp : clock h t + p + 1 < h) (hd : d ≤ p + 1) :
    clock h (t + p) < clock h (t + d) ↔ p < d := by
  rw [clock_add_of_lt hpos (by omega), clock_add_of_lt hpos (by omega)]
  omega

/-- The deadline is the top of the clock: it is never passed. -/
lemma not_passed (hpos : 0 < h) (hp : clock h t + p + 1 = h) (u : ℤ) :
    ¬clock h (t + p) < clock h u := by
  have hlt := clock_lt (t := u) hpos
  rw [clock_add_of_lt hpos (by omega)]
  omega

/-- The deadline has wrapped: it is passed until the clock wraps, too. -/
lemma passed_iff_of_le (hpos : 0 < h) (hp : (h : ℤ) ≤ clock h t + p) (hmax : p + 1 ≤ 2 * h)
    (hd : d ≤ p + 1) :
    clock h (t + p) < clock h (t + d) ↔ clock h t + d < h ∨ p < d := by
  rw [clock_add_of_le hpos hp (by omega)]
  by_cases hwrap : clock h t + d < h
  · rw [clock_add_of_lt hpos hwrap]
    omega
  · rw [clock_add_of_le hpos (not_lt.mp hwrap) (by omega)]
    omega

end

/-! ## A timer that waits -/

/-- After poll `i` the timer rests until poll `n`, and from there on compares the clock with the
deadline, until it fires. -/
structure Waits (h : ℕ) (time : ℕ → ℕ) (fires : ℕ → Prop) (i p n : ℕ) : Prop where
  lt : i < n
  soon : time n ≤ time i + p
  rests : ∀ k, i < k → k < n → ¬fires k
  compares : ∀ k, n ≤ k → (∀ l, i < l → l < k → ¬fires l) →
    (fires k ↔ clock h (time i + p) < clock h (time k))

section
variable {h : ℕ} {time : ℕ → ℕ} {fires : ℕ → Prop} {i p n : ℕ}

/-- What holds while the timer is armed is kept until it fires. -/
lemma waits_of_armed (armed : ℕ → Prop) (hlt : i < n) (hsoon : time n ≤ time i + p)
    (hrests : ∀ k, i < k → k < n → ¬fires k) (hn : armed n)
    (hfires : ∀ k, armed k → (fires k ↔ clock h (time i + p) < clock h (time k)))
    (hkeeps : ∀ k, armed k → ¬fires k → armed (k + 1)) : Waits h time fires i p n where
  lt := hlt
  soon := hsoon
  rests := hrests
  compares k hk hquiet := by
    refine hfires k ?_
    -- on the polls from the first look on
    induction k, hk using Nat.le_induction with
    | base => exact hn
    | succ k hk ih =>
      have harmed := ih fun l hil hlk => hquiet l hil (Nat.lt_succ_of_lt hlk)
      exact hkeeps k harmed (hquiet k (by omega) (Nat.lt_succ_self k))

/-- A timer that does not see its deadline early fires at the first poll behind it. -/
lemma Waits.onTime (hw : Waits h time fires i p n) (hpolls : Polls time)
    (hpassed : ∀ k, n ≤ k → time k ≤ time i + p + 1 →
      (clock h (time i + p) < clock h (time k) ↔ time i + p < time k)) :
    OnTime time fires i p := by
  rcases hpolls.exists_first i p with ⟨f, hif, hf, hbefore⟩
  -- up to `f` every look is within the period, so none of them fires
  have hquiet : ∀ k, i < k → k < f → ¬fires k := by
    intro k
    induction k using Nat.strong_induction_on with
    | _ k ih =>
      intro hik hkf hfires
      have hk := hbefore k hkf
      rcases lt_or_ge k n with hkn | hnk
      · exact hw.rests k hik hkn hfires
      · have hclock := (hw.compares k hnk fun l hil hlk => ih l hlk hil (by omega)).mp hfires
        have hlate := (hpassed k hnk (by omega)).mp hclock
        omega
  -- the first look is within the period, so it is not behind `f`
  have hnf : n ≤ f := by
    by_contra hlt
    have hmono := hpolls.monotone (le_of_not_ge hlt)
    have hsoon := hw.soon
    omega
  have hfires : fires f :=
    (hw.compares f hnf hquiet).mpr ((hpassed f hnf hf.le).mpr (by omega))
  exact ⟨f, hif, hfires, by omega, fun k hik hkf => ⟨hquiet k hik hkf, hbefore k hkf⟩⟩

/-- The time of a poll at which the timer looks, counted from poll `i`. -/
lemma Waits.time_eq (hw : Waits h time fires i p n) (hpolls : Polls time) {k : ℕ} (hk : n ≤ k) :
    (time k : ℤ) = time i + (time k - time i : ℕ) := by
  have hmono := hpolls.monotone (hw.lt.le.trans hk)
  omega

/-- A deadline below the top of the clock. -/
lemma Waits.onTime_of_lt (hw : Waits h time fires i p n) (hpolls : Polls time) (hpos : 0 < h)
    (hbelow : clock h (time i) + p + 1 < h) : OnTime time fires i p := by
  refine hw.onTime hpolls fun k hk hle => ?_
  rw [hw.time_eq hpolls hk, passed_iff_of_lt hpos hbelow (by omega)]
  omega

/-- A deadline at the top of the clock: the timer never fires again. -/
lemma Waits.not_onTime_top (hw : Waits h time fires i p n) (hpos : 0 < h)
    (htop : clock h (time i) + p + 1 = h) : ¬OnTime time fires i p := by
  rintro ⟨f, hif, hfires, -, hbefore⟩
  rcases lt_or_ge f n with hfn | hnf
  · exact hw.rests f hif hfn hfires
  · have hclock := (hw.compares f hnf fun l hil hlf => (hbefore l hil hlf).1).mp hfires
    exact not_passed hpos htop _ hclock

/-- A deadline that has wrapped: the timer is on time if the clock has, too. -/
lemma Waits.onTime_iff_of_le (hw : Waits h time fires i p n) (hpolls : Polls time) (hpos : 0 < h)
    (hmax : p + 1 ≤ 2 * h) (hwraps : (h : ℤ) ≤ clock h (time i) + p) :
    OnTime time fires i p ↔ h ≤ clock h (time i) + (time n - time i : ℕ) := by
  have hpassed : ∀ k, n ≤ k → time k ≤ time i + p + 1 →
      (clock h (time i + p) < clock h (time k) ↔
        clock h (time i) + (time k - time i : ℕ) < h ∨ p < time k - time i) := by
    intro k hk hle
    rw [hw.time_eq hpolls hk]
    exact passed_iff_of_le hpos hwraps hmax (by omega)
  have hsoon := hw.soon
  constructor
  · -- a look before the clock wraps sees the deadline at once
    rintro ⟨f, hif, hfires, hlate, hbefore⟩
    by_contra hlook
    have hn : fires n := by
      rw [hw.compares n le_rfl hw.rests, hpassed n le_rfl (by omega)]
      exact Or.inl (not_le.mp hlook)
    have hfn : f ≤ n := by
      by_contra hlt
      exact (hbefore n hw.lt (not_le.mp hlt)).1 hn
    have hmono := hpolls.monotone hfn
    omega
  · intro hlook
    refine hw.onTime hpolls fun k hk hle => ?_
    have hmono := hpolls.monotone hk
    rw [hpassed k hk hle]
    omega

/-- **When a timer is on time.** Its deadline is below the top of the clock; or it has wrapped, and
so has the clock when the timer first looks. -/
lemma Waits.onTime_iff (hw : Waits h time fires i p n) (hpolls : Polls time) (hpos : 0 < h)
    (hmax : p + 1 ≤ 2 * h) :
    OnTime time fires i p ↔ clock h (time i) + p + 1 < h ∨
      (h ≤ clock h (time i) + p ∧ h ≤ clock h (time i) + (time n - time i : ℕ)) := by
  rcases lt_trichotomy (clock h (time i) + p + 1) h with hbelow | htop | habove
  · exact iff_of_true (hw.onTime_of_lt hpolls hpos hbelow) (Or.inl hbelow)
  · exact iff_of_false (hw.not_onTime_top hpos htop) (by omega)
  · rw [hw.onTime_iff_of_le hpolls hpos hmax (by omega)]
    omega

end

end PolledTimer
