import Mathlib.Data.Nat.Bitwise
import Mathlib.Tactic

/-!
# Loops over the bits of a mask

The loop `for (mask = 1 << n; mask; mask >>= 1)`, and the numbers it takes apart and puts
together: the bits of a number from the highest to the lowest.
-/

namespace MaskLoop

/-! ## Bits, from the highest to the lowest -/

/-- The lowest `n` bits of a number, the highest of them first. -/
def bits (v n : ℕ) : List Bool := (List.range n).map fun j => v.testBit (n - 1 - j)

@[simp] lemma bits_zero (v : ℕ) : bits v 0 = [] := rfl

lemma bits_succ (v n : ℕ) : bits v (n + 1) = v.testBit n :: bits v n := by
  rw [bits, List.range_succ_eq_map, List.map_cons, List.map_map, bits]
  congr 1
  apply List.map_congr_left
  intro j _
  show v.testBit (n + 1 - 1 - (j + 1)) = v.testBit (n - 1 - j)
  rw [Nat.add_sub_cancel, Nat.sub_sub, Nat.add_comm 1 j]

@[simp] lemma length_bits (v n : ℕ) : (bits v n).length = n := by
  rw [bits, List.length_map, List.length_range]

/-- Two numbers with the same lowest bits. -/
lemma bits_congr {v w n : ℕ} (h : ∀ i < n, v.testBit i = w.testBit i) : bits v n = bits w n := by
  apply List.map_congr_left
  intro j hj
  rw [List.mem_range] at hj
  exact h _ (by omega)

/-- A number of two parts is the bits of the one before those of the other. -/
theorem bits_append (a : ℕ) {b m : ℕ} (hb : b < 2 ^ m) (n : ℕ) :
    bits (a <<< m ||| b) (n + m) = bits a n ++ bits b m := by
  induction n with
  | zero =>
    rw [Nat.zero_add, bits_zero, List.nil_append]
    apply bits_congr
    intro i hi
    rw [Nat.testBit_or, Nat.testBit_shiftLeft, decide_eq_false (by omega), Bool.false_and,
      Bool.false_or]
  | succ n ih =>
    have hlt : b < 2 ^ (n + m) := lt_of_lt_of_le hb (Nat.pow_le_pow_right (by decide) (by omega))
    have hbit : (a <<< m ||| b).testBit (n + m) = a.testBit n := by
      rw [Nat.testBit_or, Nat.testBit_shiftLeft, Nat.testBit_lt_two_pow hlt, Bool.or_false,
        decide_eq_true (by omega), Bool.true_and, Nat.add_sub_cancel]
    rw [Nat.add_right_comm, bits_succ, hbit, ih, bits_succ, List.cons_append]

/-- Testing a bit with a mask. -/
lemma and_two_pow_ne_zero (v n : ℕ) : v &&& 2 ^ n ≠ 0 ↔ v.testBit n = true := by
  rw [Nat.and_two_pow]
  cases v.testBit n <;> simp

/-- The lowest `n + 1` bits are bit `n` and the lowest `n`. -/
lemma or_mod_two_pow (v n : ℕ) :
    (if v.testBit n then 2 ^ n else 0) ||| v % 2 ^ n = v % 2 ^ (n + 1) := by
  apply Nat.eq_of_testBit_eq
  intro i
  rw [Nat.testBit_or, Nat.testBit_mod_two_pow, Nat.testBit_mod_two_pow]
  have hbit : (if v.testBit n then 2 ^ n else 0).testBit i = (decide (n = i) && v.testBit n) := by
    cases v.testBit n
    · simp
    · simp [Nat.testBit_two_pow]
  rw [hbit]
  rcases lt_trichotomy i n with h | rfl | h
  · simp [h, Nat.lt_succ_of_lt h, h.ne']
  · simp
  · simp [h.ne, not_lt_of_gt h, show ¬ i < n + 1 by omega]

/-! ## The loop -/

section
variable {m : Type → Type} [Monad m] {σ : Type} (body : ℕ → σ → m σ)

/-- `for (; mask; mask >>= 1) body`, started in `s`. -/
def run (mask : ℕ) (s : σ) : m σ :=
  if mask = 0 then pure s else body mask s >>= run (mask >>> 1)
termination_by mask
decreasing_by
  rw [Nat.shiftRight_one]
  omega

lemma run_zero (s : σ) : run body 0 s = pure s := by
  rw [run, if_pos rfl]

/-- The first round, and the others. -/
lemma run_two_pow_succ (n : ℕ) (s : σ) :
    run body (2 ^ (n + 1)) s = body (2 ^ (n + 1)) s >>= run body (2 ^ n) := by
  have hhalf : 2 ^ (n + 1) >>> 1 = 2 ^ n := by
    rw [Nat.shiftRight_one, Nat.pow_succ, Nat.mul_div_cancel _ (by decide)]
  rw [run, if_neg (by positivity), hhalf]

/-- The last round. -/
lemma run_two_pow_zero [LawfulMonad m] (s : σ) : run body (2 ^ 0) s = body (2 ^ 0) s := by
  rw [run, if_neg (by decide)]
  show body 1 s >>= run body 0 = body 1 s
  rw [show run body 0 = pure from funext (run_zero body), bind_pure]

end

end MaskLoop
