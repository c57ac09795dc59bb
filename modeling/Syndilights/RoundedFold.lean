import Mathlib.Tactic

/-!
# Folds that round down after every step

A number goes through a list of steps and is rounded down to an integer after each of them.
If no step moves two numbers apart, an error that was made once does not grow: the result
stays below the exact one by less than one for each step.
-/

namespace RoundedFold

/-! ## The two folds -/

/-- The number after all steps. -/
def exact {K : Type*} (steps : List (K → K)) (x : K) : K := steps.foldl (fun x g => g x) x

@[simp] lemma exact_concat {K : Type*} (steps : List (K → K)) (g : K → K) (x : K) :
    exact (steps ++ [g]) x = g (exact steps x) := by
  rw [exact, List.foldl_append]
  rfl

variable {K : Type*} [Field K] [LinearOrder K]

section
variable [FloorRing K]

/-- The integer after all steps, each of which is rounded down. -/
def rounded (steps : List (K → K)) (n : ℤ) : ℤ := steps.foldl (fun n g => ⌊g n⌋) n

@[simp] lemma rounded_concat (steps : List (K → K)) (g : K → K) (n : ℤ) :
    rounded (steps ++ [g]) n = ⌊g (rounded steps n)⌋ := by
  rw [rounded, List.foldl_append]
  rfl

end

variable [IsStrictOrderedRing K]

/-! ## Steps -/

/-- A step that keeps the order of two numbers and does not move them apart. -/
structure Contracts (g : K → K) : Prop where
  mono : Monotone g
  short : ∀ ⦃x y⦄, x ≤ y → g y - g x ≤ y - x

/-- Moving a fixed part of the way towards a number. -/
lemma contracts_towards {α : K} (h0 : 0 ≤ α) (h1 : α ≤ 1) (v : K) :
    Contracts fun x => (1 - α) * x + α * v where
  mono x y hxy := by
    have hmul := mul_le_mul_of_nonneg_left hxy (sub_nonneg.mpr h1)
    show (1 - α) * x + α * v ≤ (1 - α) * y + α * v
    linarith only [hmul]
  short x y hxy := by
    have hmul := mul_nonneg h0 (sub_nonneg.mpr hxy)
    show (1 - α) * y + α * v - ((1 - α) * x + α * v) ≤ y - x
    linarith only [hmul]

/-- Moving towards a number of an interval stays in the interval. -/
lemma towards_mem {α lo hi x v : K} (h0 : 0 ≤ α) (h1 : α ≤ 1) (hx : x ∈ Set.Icc lo hi)
    (hv : v ∈ Set.Icc lo hi) : (1 - α) * x + α * v ∈ Set.Icc lo hi := by
  have hx0 := mul_le_mul_of_nonneg_left hx.1 (sub_nonneg.mpr h1)
  have hx1 := mul_le_mul_of_nonneg_left hx.2 (sub_nonneg.mpr h1)
  have hv0 := mul_le_mul_of_nonneg_left hv.1 h0
  have hv1 := mul_le_mul_of_nonneg_left hv.2 h0
  constructor
  · linarith only [hx0, hv0]
  · linarith only [hx1, hv1]

/-! ## The error -/

variable [FloorRing K]

section
variable {steps : List (K → K)} (h : ∀ g ∈ steps, Contracts g) {n : ℤ} {x : K} (hx : n ≤ x)
include h hx

omit [IsStrictOrderedRing K] in
/-- Rounding down stays below. -/
theorem rounded_le_exact : (rounded steps n : K) ≤ exact steps x := by
  induction steps using List.reverseRecOn with
  | nil => exact hx
  | append_singleton steps g ih =>
    rw [List.forall_mem_append] at h
    rw [rounded_concat, exact_concat]
    have hg := h.2 g List.mem_cons_self
    calc (⌊g (rounded steps n)⌋ : K)
      _ ≤ g (rounded steps n) := Int.floor_le _
      _ ≤ g (exact steps x) := hg.mono (ih h.1)

/-- What one more step does to the error. -/
lemma error_concat {g : K → K} (hg : Contracts g) :
    exact (steps ++ [g]) x - rounded (steps ++ [g]) n < exact steps x - rounded steps n + 1 := by
  have hshort := hg.short (rounded_le_exact h hx)
  have hfloor := Int.lt_floor_add_one (g (rounded steps n))
  rw [exact_concat, rounded_concat]
  linarith only [hshort, hfloor]

/-- The error grows by at most one with each step. -/
lemma error_le_add_length :
    exact steps x - rounded steps n ≤ x - n + steps.length := by
  induction steps using List.reverseRecOn with
  | nil => simp [exact, rounded]
  | append_singleton steps g ih =>
    rw [List.forall_mem_append] at h
    have herror := error_concat h.1 hx (h.2 g List.mem_cons_self)
    have hlength := ih h.1
    rw [List.length_append, List.length_singleton]
    push_cast
    linarith only [herror, hlength]

/-- With a step at all, it is less than one for each step. -/
theorem error_lt_add_length (hne : steps ≠ []) :
    exact steps x - rounded steps n < x - n + steps.length := by
  rcases List.eq_nil_or_concat steps with hnil | ⟨front, g, hconcat⟩
  · exact absurd hnil hne
  · rw [List.concat_eq_append] at hconcat
    subst hconcat
    rw [List.forall_mem_append] at h
    have herror := error_concat h.1 hx (h.2 g List.mem_cons_self)
    have hlength := error_le_add_length h.1 hx
    rw [List.length_append, List.length_singleton]
    push_cast
    linarith only [herror, hlength]

end

end RoundedFold
