import Syndilights.PoC.Biglife

/-!
# The pass plays life on a torus

The pass is one step of the cellular automaton B3/S23 on the group of the indexes, whatever the
buffer holds before.
-/

namespace Syndilights.PoC.Biglife
open CellularAutomaton

/-! ## Indexes -/

section
variable {n : ℕ} [NeZero n]

lemma val_index {e : ℤ} (h : 0 ≤ e) : (index n e h).val = e.toNat % n := by
  obtain ⟨k, rfl⟩ := Int.eq_ofNat_of_zero_le h
  show ((k : ℤ).tmod n).toNat = _
  rw [← Int.ofNat_tmod, Int.toNat_natCast, Int.toNat_natCast]

/-- The wrap-around is the arithmetic of the indexes. -/
lemma before_eq (x : Fin n) : before x = x - 1 := by
  apply Fin.ext
  rw [before, val_index, Fin.val_sub, Fin.val_one']
  have hpos := Nat.pos_of_neZero n
  rcases Nat.lt_or_eq_of_le hpos with hlt | hone
  · rw [Nat.mod_eq_of_lt hlt]
    congr 1
    omega
  · -- an array of one has one index
    have hzero : ∀ k, k % n = 0 := fun k => by
      have hmod := Nat.mod_lt k hpos
      omega
    rw [hzero, hzero]

lemma after_eq (x : Fin n) : after x = x + 1 := by
  apply Fin.ext
  have he : ((x.val : ℤ) + 1 + n).toNat = x.val + 1 + n := by omega
  rw [after, val_index, he, Nat.add_mod_right, Fin.val_add, Fin.val_one', Nat.add_mod_mod]

end

/-! ## The buffer -/

/-- The buffer is written in full. -/
lemma copy_eq {MAXX MAXY : ℕ} (lifearray lifebuf : Grid MAXX MAXY) :
    copy lifearray lifebuf = lifearray := by
  funext ⟨i, j⟩
  refine ForLoop.run₂_updates (fun buf : Grid MAXX MAXY => buf (i, j)) (fun _ => lifearray (i, j))
    j i ?_ ?_ lifebuf
  · exact fun buf => Function.update_self ..
  · intro j' i' hne buf
    refine Function.update_of_ne (fun heq => hne ?_) ..
    -- the loops count rows first, the array columns
    rw [Prod.mk.injEq] at heq ⊢
    exact ⟨heq.2.symm, heq.1.symm⟩

/-! ## Life -/

section
variable {MAXX MAXY : ℕ} [NeZero MAXX] [NeZero MAXY]

/-- The eight positions around a cell. -/
def neighbours (MAXX MAXY : ℕ) [NeZero MAXX] [NeZero MAXY] : List (Fin MAXX × Fin MAXY) :=
  [(-1, -1), (0, -1), (1, -1), (-1, 0), (1, 0), (-1, 1), (0, 1), (1, 1)]

/-- B3/S23: a cell is born with three living neighbours, and survives with two or three. -/
def b3s23 (self : ℤ) (around : List ℤ) : ℤ :=
  if around.count 1 = 3 ∨ (self = 1 ∧ around.count 1 = 2) then 1 else 0

/-- The next generation of a field. -/
def life (field : Grid MAXX MAXY) : Grid MAXX MAXY := step (neighbours MAXX MAXY) b3s23 field

/-- Every cell is dead or alive. -/
def Binary (field : Grid MAXX MAXY) : Prop := ∀ c, field c ∈ ({0, 1} : Set ℤ)

lemma b3s23_binary (self : ℤ) (around : List ℤ) : b3s23 self around ∈ ({0, 1} : Set ℤ) := by
  unfold b3s23
  split_ifs <;> simp

/-- The living are counted by a sum. -/
lemma sum_eq_count {l : List ℤ} (h : ∀ a ∈ l, a ∈ ({0, 1} : Set ℤ)) : l.sum = l.count 1 := by
  induction l with
  | nil => rfl
  | cons a l ih =>
    rw [List.forall_mem_cons] at h
    rw [List.sum_cons, ih h.2, List.count_cons]
    rcases h.1 with rfl | rfl
    · simp
    · simp [add_comm]

/-! ## The pass -/

/-- What is counted are the cells at the eight positions. -/
lemma count_eq (lifebuf : Grid MAXX MAXY) (x : Fin MAXX) (y : Fin MAXY) :
    count lifebuf x y = (around (neighbours MAXX MAXY) lifebuf (x, y)).sum := by
  unfold count
  simp only [before_eq, after_eq, around, neighbours, List.map_cons, List.map_nil, List.sum_cons,
    List.sum_nil, Prod.mk_add_mk, add_zero, sub_eq_add_neg]
  ring

/-- What one cell becomes. -/
def becomes (count self : ℤ) : ℤ := if count = 3 then 1 else if count ≠ 2 then 0 else self

lemma cell_self (lifebuf : Grid MAXX MAXY) (x : Fin MAXX) (y : Fin MAXY) (s : Field MAXX MAXY) :
    (cell lifebuf x y s).lifearray (x, y) =
      becomes (count lifebuf x y) (s.lifearray (x, y)) := by
  unfold cell becomes
  dsimp only
  by_cases hthree : count lifebuf x y = 3
  · rw [if_pos hthree, if_pos hthree]
    exact Function.update_self ..
  · rw [if_neg hthree, if_neg hthree]
    split_ifs
    · exact Function.update_self ..
    · rfl

lemma cell_of_ne (lifebuf : Grid MAXX MAXY) {x : Fin MAXX} {y : Fin MAXY}
    {c : Fin MAXX × Fin MAXY} (h : c ≠ (x, y)) (s : Field MAXX MAXY) :
    (cell lifebuf x y s).lifearray c = s.lifearray c := by
  unfold cell
  dsimp only
  by_cases hthree : count lifebuf x y = 3
  · rw [if_pos hthree]
    exact Function.update_of_ne h ..
  · rw [if_neg hthree]
    split_ifs
    · exact Function.update_of_ne h ..
    · rfl

/-- Each cell is written once, from a count of what was there before the pass. -/
lemma generation_apply (lifearray lifebuf : Grid MAXX MAXY) (x : Fin MAXX) (y : Fin MAXY) :
    (generation lifearray lifebuf).lifearray (x, y) =
      becomes (count lifearray x y) (lifearray (x, y)) := by
  unfold generation
  rw [copy_eq]
  refine ForLoop.run₂_updates (fun s : Field MAXX MAXY => s.lifearray (x, y))
    (becomes (count lifearray x y)) y x (cell_self lifearray x y) ?_ ⟨lifearray, 0⟩
  -- the count is taken from the copy, so the order of the cells does not matter
  intro y' x' hne s
  refine cell_of_ne lifearray (fun heq => hne ?_) s
  rw [Prod.mk.injEq] at heq ⊢
  exact ⟨heq.2.symm, heq.1.symm⟩

/-- On a dead or living cell, the code's branches are the rule. -/
lemma becomes_eq {self : ℤ} {l : List ℤ} (hself : self ∈ ({0, 1} : Set ℤ))
    (hl : ∀ a ∈ l, a ∈ ({0, 1} : Set ℤ)) : becomes l.sum self = b3s23 self l := by
  rw [sum_eq_count hl, becomes, b3s23]
  rcases hself with rfl | rfl
  · split_ifs <;> omega
  · split_ifs <;> omega

/-- **One pass is one generation.** -/
lemma generation_eq {lifearray : Grid MAXX MAXY} (h : Binary lifearray)
    (lifebuf : Grid MAXX MAXY) : (generation lifearray lifebuf).lifearray = life lifearray := by
  funext ⟨x, y⟩
  rw [generation_apply, count_eq]
  refine becomes_eq (h (x, y)) fun a ha => ?_
  rcases List.mem_map.mp ha with ⟨o, -, rfl⟩
  exact h _

/-! ## Generations -/

lemma iterate_binary {field : Grid MAXX MAXY} (h : Binary field) (k : ℕ) :
    Binary (life^[k] field) :=
  iterate_mem (fun a _ l _ => b3s23_binary a l) h k

lemma generations_eq {lifearray : Grid MAXX MAXY} (h : Binary lifearray)
    (lifebuf : ℕ → Grid MAXX MAXY) (k : ℕ) :
    generations lifebuf lifearray k = life^[k] lifearray := by
  induction k with
  | zero => rfl
  | succ k ih =>
    show (generation (generations lifebuf lifearray k) (lifebuf k)).lifearray = _
    rw [ih, generation_eq (iterate_binary h k), Function.iterate_succ_apply']

lemma shift_binary {field : Grid MAXX MAXY} (h : Binary field) (v : Fin MAXX × Fin MAXY) :
    Binary (shift v field) := fun c => h (c + v)

/-- What is said of the passes over a field. -/
structure PlaysLife (lifearray : Grid MAXX MAXY) : Prop where
  next : ∀ lifebuf, (generation lifearray lifebuf).lifearray = life lifearray
  iterates : ∀ lifebuf k, generations lifebuf lifearray k = life^[k] lifearray
  binary : ∀ lifebuf k, Binary (generations lifebuf lifearray k)
  translates : ∀ lifebuf lifebuf' v k,
    generations lifebuf' (shift v lifearray) k = shift v (generations lifebuf lifearray k)

/-- **Life on a torus.** For a field of any size, whatever the buffer holds before each pass. -/
theorem playsLife {lifearray : Grid MAXX MAXY} (h : Binary lifearray) : PlaysLife lifearray where
  next := generation_eq h
  iterates := generations_eq h
  binary lifebuf k := by
    rw [generations_eq h]
    exact iterate_binary h k
  translates lifebuf lifebuf' v k := by
    rw [generations_eq h, generations_eq (shift_binary h v)]
    exact iterate_shift v k

end

/-- The glider of the sketch. -/
def glider : Grid 12 8 := fun c =>
  if c ∈ [(1, 0), (0, 1), (0, 2), (1, 2), (2, 2)] then 1 else 0

theorem playsLife_glider : PlaysLife glider :=
  playsLife fun c => by
    unfold glider
    split_ifs <;> simp

end Syndilights.PoC.Biglife
