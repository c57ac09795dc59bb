import Mathlib.Tactic

/-!
# Strided layouts

Offsets of the form `i * s + x` with `x < s`, and lists that are a concatenation of
chunks of equal length `s`: position `i * s + x` of the list is position `x` of chunk `i`.
-/

namespace Strided

/-! ## Offsets -/

/-- An offset determines its row and its position in the row. -/
lemma row_unique {s i x i' x' : ℕ} (hx : x < s) (hx' : x' < s)
    (h : i * s + x = i' * s + x') : i = i' ∧ x = x' := by
  have hs : 0 < s := by omega
  have hdiv : ∀ i x : ℕ, x < s → (i * s + x) / s = i := by
    intro i x hx
    rw [Nat.add_comm, Nat.add_mul_div_right _ _ hs, Nat.div_eq_of_lt hx, Nat.zero_add]
  have hi : i = i' := by rw [← hdiv i x hx, ← hdiv i' x' hx', h]
  subst hi
  exact ⟨rfl, by omega⟩

/-- An offset in rows of cells determines row, cell and position in the cell. -/
lemma cell_unique {s c i j k i' j' k' : ℕ} (hj : j * c + k < s) (hj' : j' * c + k' < s)
    (hk : k < c) (hk' : k' < c) (h : i * s + j * c + k = i' * s + j' * c + k') :
    i = i' ∧ j = j' ∧ k = k' := by
  rcases row_unique hj hj' (by omega : i * s + (j * c + k) = i' * s + (j' * c + k')) with ⟨hi, hrow⟩
  exact ⟨hi, row_unique hk hk' hrow⟩

/-! ## Lists of chunks -/

variable {α β : Type*}

lemma length_flatMap {l : List α} {f : α → List β} {s : ℕ} (hf : ∀ a ∈ l, (f a).length = s) :
    (l.flatMap f).length = l.length * s := by
  rw [List.length_flatMap, List.map_congr_left hf, List.map_const', List.sum_replicate,
    smul_eq_mul]

/-- Position `i * s + x` of the concatenation is position `x` of the `i`-th chunk. -/
theorem getElem?_flatMap {l : List α} {f : α → List β} {s : ℕ}
    (hf : ∀ a ∈ l, (f a).length = s) {i x : ℕ} (hx : x < s) :
    (l.flatMap f)[i * s + x]? = l[i]?.bind fun a => (f a)[x]? := by
  induction l generalizing i with
  | nil => simp
  | cons a l ih =>
    have ha : (f a).length = s := hf a List.mem_cons_self
    rw [List.flatMap_cons]
    cases i with
    | zero =>
      rw [Nat.zero_mul, Nat.zero_add, List.getElem?_append_left (by omega)]
      rfl
    | succ i =>
      have hpos : (i + 1) * s + x - s = i * s + x := by rw [Nat.add_mul]; omega
      have hle : s ≤ (i + 1) * s + x := by rw [Nat.add_mul]; omega
      rw [List.getElem?_append_right (by omega), ha, hpos,
        ih fun b hb => hf b (List.mem_cons_of_mem a hb)]
      rfl

/-- `getElem?_flatMap` over all indices below `n`. -/
theorem getElem?_flatMap_finRange {n s : ℕ} {f : Fin n → List β} (hf : ∀ i, (f i).length = s)
    (i : Fin n) {x : ℕ} (hx : x < s) :
    ((List.finRange n).flatMap f)[i * s + x]? = (f i)[x]? := by
  rw [getElem?_flatMap (fun a _ => hf a) hx, List.getElem?_eq_getElem (by simp)]
  simp

/-- Setting position `x` of chunk `i` sets position `i * s + x` of the concatenation. -/
lemma flatten_set {chunks : List (List β)} {s : ℕ} (h : ∀ c ∈ chunks, c.length = s) {i x : ℕ}
    {c : List β} (hc : chunks[i]? = some c) (hx : x < s) (b : β) :
    (chunks.set i (c.set x b)).flatten = chunks.flatten.set (i * s + x) b := by
  induction chunks generalizing i with
  | nil => exact absurd hc (by simp)
  | cons d chunks ih =>
    have hd : d.length = s := h d List.mem_cons_self
    cases i with
    | zero =>
      obtain rfl : d = c := Option.some.inj hc
      rw [List.set_cons_zero, List.flatten_cons, List.flatten_cons, Nat.zero_mul, Nat.zero_add,
        List.set_append_left _ _ (by omega)]
    | succ i =>
      have hpos : (i + 1) * s + x - d.length = i * s + x := by rw [Nat.add_mul]; omega
      have hle : d.length ≤ (i + 1) * s + x := by rw [Nat.add_mul]; omega
      rw [List.set_cons_succ, List.flatten_cons, List.flatten_cons,
        List.set_append_right _ _ hle, hpos, ih (fun d hd => h d (List.mem_cons_of_mem _ hd)) hc]

/-- `flatten_set` for two functions that differ in one position of one chunk. -/
lemma flatMap_finRange_set {n s : ℕ} {f g : Fin n → List β} (hf : ∀ i, (f i).length = s)
    (i : Fin n) {x : ℕ} (hx : x < s) {b : β} (hi : g i = (f i).set x b)
    (hother : ∀ j, j ≠ i → g j = f j) :
    (List.finRange n).flatMap g = ((List.finRange n).flatMap f).set (i * s + x) b := by
  have hchunk : ((List.finRange n).map f)[i.val]? = some (f i) := by simp
  have hmap : (List.finRange n).map g = ((List.finRange n).map f).set i ((f i).set x b) := by
    apply List.ext_getElem
    · simp
    · intro j hj hj'
      rw [List.getElem_set, List.getElem_map, List.getElem_map, List.getElem_finRange]
      split_ifs with heq
      · rw [← hi]
        exact congrArg g (Fin.ext heq.symm)
      · exact hother _ fun h => heq (congrArg Fin.val h).symm
  rw [List.flatMap_def, List.flatMap_def, hmap, flatten_set _ hchunk hx]
  intro c hc
  rcases List.mem_map.mp hc with ⟨j, -, rfl⟩
  exact hf j

/-- A loop that appends one chunk in each iteration. -/
lemma foldlM_append {l : List α} {step : List β → α → Option (List β)} (g : α → List β)
    (h : ∀ a ∈ l, ∀ acc, step acc a = some (acc ++ g a)) (acc : List β) :
    l.foldlM step acc = some (acc ++ l.flatMap g) := by
  induction l generalizing acc with
  | nil => simp
  | cons a l ih =>
    rw [List.foldlM_cons, h a List.mem_cons_self]
    show List.foldlM step (acc ++ g a) l = _
    rw [ih fun b hb => h b (List.mem_cons_of_mem a hb), List.flatMap_cons, List.append_assoc]

end Strided
