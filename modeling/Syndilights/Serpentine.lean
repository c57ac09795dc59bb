import Syndilights.Strided

/-!
# Walks through a grid, line by line

`n` lines of `m` places each, some of them walked backwards. In a serpentine every second line
is: if neighbours in a line and neighbours across two lines are related, the whole walk is then
a chain.
-/

namespace Serpentine

variable {α β : Type*} (place : ℕ → ℕ → α) (m : ℕ) (back : ℕ → Bool) (n i : ℕ)

/-- Line `i` as it is walked. -/
def walked : List α :=
  let line := (List.range m).map (place i)
  if back i then line.reverse else line

/-- The walk through the first `n` lines. -/
def path : List α := (List.range n).flatMap (walked place m back)

lemma path_succ : path place m back (n + 1) = path place m back n ++ walked place m back n := by
  rw [path, List.range_succ, List.flatMap_append, List.flatMap_singleton, path]

lemma map_walked (f : α → β) :
    (walked place m back i).map f = walked (fun i k => f (place i k)) m back i := by
  unfold walked
  dsimp only
  split_ifs
  · rw [List.map_reverse, List.map_map]
    rfl
  · rw [List.map_map]
    rfl

lemma map_path (f : α → β) :
    (path place m back n).map f = path (fun i k => f (place i k)) m back n := by
  rw [path, path, List.map_flatMap]
  simp only [map_walked]

variable {place m back n i}

lemma mem_walked {a : α} : a ∈ walked place m back i ↔ ∃ k < m, place i k = a := by
  unfold walked
  split_ifs <;> simp

lemma mem_path {a : α} : a ∈ path place m back n ↔ ∃ i < n, ∃ k < m, place i k = a := by
  simp only [path, List.mem_flatMap, List.mem_range, mem_walked]

lemma length_walked : (walked place m back i).length = m := by
  unfold walked
  split_ifs <;> simp

lemma length_path : (path place m back n).length = n * m := by
  rw [path, Strided.length_flatMap fun i _ => length_walked, List.length_range]

/-- Where a place is in its line. -/
lemma getElem?_walked {k : ℕ} (hk : k < m) :
    (walked place m back i)[if back i then m - 1 - k else k]? = some (place i k) := by
  unfold walked
  dsimp only
  split_ifs
  · rw [List.getElem?_reverse (by rw [List.length_map, List.length_range]; omega),
      List.length_map, List.length_range, Nat.sub_sub_self (by omega), List.getElem?_map,
      List.getElem?_range hk]
    rfl
  · rw [List.getElem?_map, List.getElem?_range hk]
    rfl

/-- Where a place is in the walk. -/
lemma getElem?_path {k : ℕ} (hi : i < n) (hk : k < m) :
    (path place m back n)[i * m + if back i then m - 1 - k else k]? = some (place i k) := by
  have hlt : (if back i then m - 1 - k else k) < m := by
    split_ifs <;> omega
  rw [path, Strided.getElem?_flatMap (fun i _ => length_walked) hlt, List.getElem?_range hi]
  exact getElem?_walked hk

/-- Different positions have different places: nothing is visited twice. -/
lemma nodup_path (hinj : ∀ i < n, ∀ k < m, ∀ i' < n, ∀ k' < m, place i k = place i' k' →
    i = i' ∧ k = k') : (path place m back n).Nodup := by
  rw [path, List.nodup_flatMap]
  constructor
  · intro i hi
    have hi' := List.mem_range.mp hi
    have hline : ((List.range m).map (place i)).Nodup := by
      apply List.Nodup.map_on _ List.nodup_range
      intro k hk k' hk' heq
      exact (hinj i hi' k (List.mem_range.mp hk) i hi' k' (List.mem_range.mp hk') heq).2
    unfold walked
    split_ifs
    · exact List.nodup_reverse.mpr hline
    · exact hline
  · apply List.Nodup.pairwise_of_forall_ne List.nodup_range
    intro i hi i' hi' hne a ha ha'
    rcases mem_walked.mp ha with ⟨k, hk, hplace⟩
    rcases mem_walked.mp ha' with ⟨k', hk', hplace'⟩
    exact hne (hinj i (List.mem_range.mp hi) k hk i' (List.mem_range.mp hi') k' hk'
      (hplace.trans hplace'.symm)).1

/-! ## Serpentines -/

section
variable {R : α → α → Prop} (hsymm : ∀ a b, R a b → R b a)

include hsymm in
/-- A line is a chain in both directions. -/
lemma isChain_walked (along : ∀ k, k + 1 < m → R (place i k) (place i (k + 1))) :
    (walked place m back i).IsChain R := by
  have hline : ((List.range m).map (place i)).IsChain R := by
    rw [List.isChain_map, List.isChain_range]
    intro k hk
    exact along k (by omega)
  unfold walked
  split_ifs
  · rw [List.isChain_reverse]
    exact hline.imp hsymm
  · exact hline

/-- A line starts at its first place, or at its last one if it is walked backwards. -/
lemma head?_walked {a : α} (h : a ∈ (walked place m back i).head?) :
    0 < m ∧ a = place i (if back i then m - 1 else 0) := by
  cases m with
  | zero =>
    unfold walked at h
    simp at h
  | succ m =>
    refine ⟨Nat.succ_pos m, ?_⟩
    unfold walked at h
    split_ifs at h ⊢
    · rw [List.head?_reverse, List.range_succ, List.map_append, List.map_singleton,
        List.getLast?_concat] at h
      exact (Option.some.inj h).symm
    · rw [List.range_succ_eq_map, List.map_cons, List.head?_cons] at h
      exact (Option.some.inj h).symm

/-- It ends at the other end. -/
lemma getLast?_walked {a : α} (h : a ∈ (walked place m back i).getLast?) :
    a = place i (if back i then 0 else m - 1) := by
  cases m with
  | zero =>
    unfold walked at h
    simp at h
  | succ m =>
    unfold walked at h
    split_ifs at h ⊢
    · rw [List.getLast?_reverse, List.range_succ_eq_map, List.map_cons, List.head?_cons] at h
      exact (Option.some.inj h).symm
    · rw [List.range_succ, List.map_append, List.map_singleton, List.getLast?_concat] at h
      exact (Option.some.inj h).symm

include hsymm in
/-- **Continuity.** A serpentine never leaves the relation, also not at the turns. -/
theorem isChain_path (hback : ∀ i, back (i + 1) = !back i)
    (along : ∀ i < n, ∀ k, k + 1 < m → R (place i k) (place i (k + 1)))
    (across : ∀ i, i + 1 < n → ∀ k < m, R (place i k) (place (i + 1) k)) :
    (path place m back n).IsChain R := by
  induction n with
  | zero => exact List.IsChain.nil
  | succ n ih =>
    rw [path_succ, List.isChain_append]
    refine ⟨?_, isChain_walked hsymm (along n (Nat.lt_succ_self n)), ?_⟩
    · apply ih
      · exact fun i hi => along i (by omega)
      · exact fun i hi => across i (by omega)
    · intro a ha b hb
      rcases head?_walked hb with ⟨hm, rfl⟩
      cases n with
      | zero => exact absurd ha (by simp [path])
      | succ n =>
        -- a line that is not empty is the end of what was walked before it
        have hne : walked place m back n ≠ [] := by
          apply List.ne_nil_of_length_pos
          rwa [length_walked]
        rw [path_succ, List.getLast?_append_of_ne_nil _ hne] at ha
        rw [getLast?_walked ha, hback n]
        cases back n with
        | true => exact across n (by omega) 0 hm
        | false => exact across n (by omega) (m - 1) (by omega)

end

end Serpentine
