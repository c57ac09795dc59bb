import Mathlib.Tactic

/-!
# Cellular automata

Cells at the elements of a commutative group. In each step all cells change at once, each by a rule
of its own state and of the states around it, at the same offsets for all of them.

* `iterate_shift` — steps commute with translations;
* `iterate_mem` — states that the rule does not leave are not left.
-/

namespace CellularAutomaton

section
variable {G α : Type*} [AddCommGroup G]

/-- The translated cells: each holds what the one at the distance `v` held. -/
def shift (v : G) (cells : G → α) : G → α := fun c => cells (c + v)

/-- The states around a cell. -/
def around (offsets : List G) (cells : G → α) (c : G) : List α := offsets.map fun o => cells (c + o)

/-- One step. -/
def step (offsets : List G) (rule : α → List α → α) (cells : G → α) : G → α :=
  fun c => rule (cells c) (around offsets cells c)

variable {offsets : List G} {rule : α → List α → α} {cells : G → α}

lemma around_shift (v c : G) :
    around offsets (shift v cells) c = around offsets cells (c + v) := by
  unfold around shift
  simp only [add_right_comm]

/-- A step commutes with every translation. -/
lemma step_shift (v : G) :
    step offsets rule (shift v cells) = shift v (step offsets rule cells) := by
  funext c
  show rule (cells (c + v)) (around offsets (shift v cells) c) = _
  rw [around_shift]
  rfl

/-- **Translations.** Any number of steps commutes with every translation. -/
theorem iterate_shift (v : G) (n : ℕ) :
    (step offsets rule)^[n] (shift v cells) = shift v ((step offsets rule)^[n] cells) := by
  have hcommute : Function.Commute (step offsets rule) (shift v) := fun _ => step_shift v
  exact (hcommute.iterate_left n) cells

/-- A rule that does not leave some states. -/
lemma step_mem {S : Set α} (hrule : ∀ a ∈ S, ∀ l, (∀ b ∈ l, b ∈ S) → rule a l ∈ S)
    (hcells : ∀ c, cells c ∈ S) (c : G) : step offsets rule cells c ∈ S := by
  refine hrule _ (hcells c) _ fun b hb => ?_
  rcases List.mem_map.mp hb with ⟨o, -, rfl⟩
  exact hcells (c + o)

/-- **States.** No number of steps leaves states that the rule does not leave. -/
theorem iterate_mem {S : Set α} (hrule : ∀ a ∈ S, ∀ l, (∀ b ∈ l, b ∈ S) → rule a l ∈ S)
    (hcells : ∀ c, cells c ∈ S) (n : ℕ) (c : G) : (step offsets rule)^[n] cells c ∈ S := by
  induction n generalizing c with
  | zero => exact hcells c
  | succ n ih =>
    rw [Function.iterate_succ_apply']
    exact step_mem hrule ih c

end

end CellularAutomaton
