import Mathlib.Tactic

/-!
# Blocks of cells

Cells with integer addresses, and lists that are written into them from an address on.
-/

namespace CellBlock

variable {β : Type*}

/-- The cells after a list was written from an address on. -/
def write (cells : ℤ → β) (addr : ℤ) : List β → ℤ → β
  | [] => cells
  | b :: bytes => write (Function.update cells addr b) (addr + 1) bytes

/-- The cells from an address on are those of the list. -/
def Holds (cells : ℤ → β) (addr : ℤ) (bytes : List β) : Prop :=
  ∀ (i : ℕ) (b : β), bytes[i]? = some b → cells (addr + i) = b

section
variable {cells : ℤ → β} {addr a : ℤ} {bytes : List β}

/-- The cells in front of the block and behind it stay as they are. -/
lemma write_of_outside (h : a < addr ∨ addr + bytes.length ≤ a) :
    write cells addr bytes a = cells a := by
  induction bytes generalizing cells addr with
  | nil => rfl
  | cons b bytes ih =>
    rw [List.length_cons] at h
    push_cast at h
    have hne : a ≠ addr := by omega
    rw [write, ih (by omega), Function.update_of_ne hne]

/-- The block holds what was written. -/
lemma holds_write : Holds (write cells addr bytes) addr bytes := by
  induction bytes generalizing cells addr with
  | nil => exact fun i b hb => absurd hb (by simp)
  | cons c bytes ih =>
    intro i b hb
    cases i with
    | zero =>
      obtain rfl : c = b := Option.some.inj hb
      rw [write, write_of_outside (Or.inl (by push_cast; omega)), Nat.cast_zero, add_zero,
        Function.update_self]
    | succ i =>
      have hnext : addr + (i + 1 : ℕ) = addr + 1 + i := by
        push_cast
        ring
      rw [hnext, write]
      exact ih i b hb

/-- A block that is held holds its fronts. -/
lemma Holds.take (h : Holds cells addr bytes) (n : ℕ) : Holds cells addr (bytes.take n) := by
  intro i b hb
  rw [List.getElem?_take] at hb
  split_ifs at hb
  exact h i b hb

/-- One cell more. -/
lemma Holds.concat (h : Holds cells addr bytes) (b : β) :
    Holds (Function.update cells (addr + bytes.length) b) addr (bytes ++ [b]) := by
  intro i d hd
  by_cases hi : i < bytes.length
  · rw [List.getElem?_append_left hi] at hd
    rw [Function.update_of_ne (by omega)]
    exact h i d hd
  · have hlast : i = bytes.length := by
      have hlt := (List.getElem?_eq_some_iff.mp hd).1
      rw [List.length_append, List.length_singleton] at hlt
      omega
    subst hlast
    rw [List.getElem?_concat_length, Option.some.injEq] at hd
    rw [Function.update_self, hd]

end

end CellBlock
