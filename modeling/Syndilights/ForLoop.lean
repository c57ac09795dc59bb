import Mathlib.Tactic

/-!
# Counted loops

The C loop `for (i = 0; i < n; i++) body` as a fold over `Fin n`, with the rules its
users reason by:

* `run_at` — one iteration establishes an assertion, the later ones keep it;
* `run_frame` — what no iteration touches is untouched by the loop;
* `run_updates` — a cell that exactly one iteration updates is updated once.

The `run₂` and `run₃` rules are the same for nested loops, and `writeRows` is the loop nest
that lays out a three-dimensional array in rows of a flat one, each closed by a separator.
-/

namespace ForLoop

variable {σ α : Type*}

/-- The state after `for (i = 0; i < n; i++) body`, started in `s`. -/
def run (n : ℕ) (body : Fin n → σ → σ) (s : σ) : σ :=
  Fin.foldl n (fun s i => body i s) s

@[simp] lemma run_zero (body : Fin 0 → σ → σ) (s : σ) : run 0 body s = s := rfl

/-- A loop of `n + 1` iterations is a loop of `n` followed by the last iteration. -/
lemma run_succ (n : ℕ) (body : Fin (n + 1) → σ → σ) (s : σ) :
    run (n + 1) body s = body (Fin.last n) (run n (fun i => body i.castSucc) s) := by
  simp only [run, Fin.foldl_succ_last]

/-! ## Rules for one loop -/

/-- An assertion that every iteration keeps holds after the loop. -/
theorem run_keeps {P : σ → Prop} {n : ℕ} {body : Fin n → σ → σ}
    (keep : ∀ i s, P s → P (body i s)) {s : σ} (hs : P s) : P (run n body s) := by
  induction n with
  | zero => exact hs
  | succ n ih =>
    rw [run_succ]
    exact keep _ _ (ih fun i s => keep i.castSucc s)

/-- `P` is kept until iteration `i`, which turns it into `Q`, and `Q` is kept by the
iterations after it. -/
theorem run_at {P Q : σ → Prop} {n : ℕ} {body : Fin n → σ → σ} (i : Fin n)
    (before : ∀ j, j < i → ∀ s, P s → P (body j s))
    (here : ∀ s, P s → Q (body i s))
    (after : ∀ j, i < j → ∀ s, Q s → Q (body j s))
    {s : σ} (hs : P s) : Q (run n body s) := by
  induction n with
  | zero => exact i.elim0
  | succ n ih =>
    rw [run_succ]
    rcases Fin.eq_castSucc_or_eq_last i with ⟨i', rfl⟩ | rfl
    · -- iteration `i` is one of the first `n`
      refine after _ (Fin.castSucc_lt_last i') _ (ih i' ?_ here ?_)
      · exact fun j hj => before j.castSucc (Fin.castSucc_lt_castSucc_iff.mpr hj)
      · exact fun j hj => after j.castSucc (Fin.castSucc_lt_castSucc_iff.mpr hj)
    · -- iteration `i` is the last one
      refine here _ (run_keeps (P := P) ?_ hs)
      exact fun j s => before j.castSucc (Fin.castSucc_lt_last j) s

/-- What no iteration touches is untouched by the loop. -/
theorem run_frame (get : σ → α) {n : ℕ} {body : Fin n → σ → σ}
    (frame : ∀ i s, get (body i s) = get s) (s : σ) : get (run n body s) = get s :=
  run_keeps (P := fun t => get t = get s) (fun i t ht => (frame i t).trans ht) rfl

/-- A cell that only iteration `i` updates holds the updated value after the loop. -/
theorem run_updates (get : σ → α) (f : α → α) {n : ℕ} {body : Fin n → σ → σ} (i : Fin n)
    (here : ∀ s, get (body i s) = f (get s))
    (other : ∀ j, j ≠ i → ∀ s, get (body j s) = get s) (s : σ) :
    get (run n body s) = f (get s) := by
  refine run_at (P := fun t => get t = get s) (Q := fun t => get t = f (get s)) i ?_ ?_ ?_ rfl
  · exact fun j hj t ht => (other j hj.ne t).trans ht
  · exact fun t ht => (here t).trans (congrArg f ht)
  · exact fun j hj t ht => (other j hj.ne' t).trans ht

/-! ## Rules for two nested loops -/

/-- `for i < n, for j < m : body i j`. -/
def run₂ (n m : ℕ) (body : Fin n → Fin m → σ → σ) (s : σ) : σ :=
  run n (fun i => run m fun j => body i j) s

/-- `run_updates` for two nested loops: the cell of the indices `i` and `j`. -/
theorem run₂_updates {n m : ℕ} {body : Fin n → Fin m → σ → σ} (get : σ → α) (f : α → α)
    (i : Fin n) (j : Fin m) (here : ∀ s, get (body i j s) = f (get s))
    (other : ∀ i' j', (i', j') ≠ (i, j) → ∀ s, get (body i' j' s) = get s) (s : σ) :
    get (run₂ n m body s) = f (get s) := by
  refine run_updates get f i (run_updates get f j here ?_) ?_ s
  · intro j' hj
    exact other i j' (by simp [hj])
  · intro i' hi
    exact run_frame get fun j' => other i' j' (by simp [hi])

/-! ## Rules for three nested loops -/

/-- `for i < n, for j < m, for k < l : body i j k`. -/
def run₃ (n m l : ℕ) (body : Fin n → Fin m → Fin l → σ → σ) (s : σ) : σ :=
  run n (fun i => run m fun j => run l fun k => body i j k) s

variable {n m l : ℕ} {body : Fin n → Fin m → Fin l → σ → σ}

/-- `run_frame` for three nested loops. -/
theorem run₃_frame (get : σ → α) (frame : ∀ i j k s, get (body i j k s) = get s) (s : σ) :
    get (run₃ n m l body s) = get s :=
  run_frame get (fun i => run_frame get fun j => run_frame get fun k => frame i j k) s

/-- `run_updates` for three nested loops: the cell of the indices `i`, `j`, `k`. -/
theorem run₃_updates (get : σ → α) (f : α → α) (i : Fin n) (j : Fin m) (k : Fin l)
    (here : ∀ s, get (body i j k s) = f (get s))
    (other : ∀ i' j' k', (i', j', k') ≠ (i, j, k) → ∀ s, get (body i' j' k' s) = get s) (s : σ) :
    get (run₃ n m l body s) = f (get s) := by
  refine run_updates get f i (run_updates get f j (run_updates get f k here ?_) ?_) ?_ s
  · intro k' hk
    exact other i j k' (by simp [hk])
  · intro j' hj
    exact run_frame get fun k' => other i j' k' (by simp [hj])
  · intro i' hi
    exact run_frame get fun j' => run_frame get fun k' => other i' j' k' (by simp [hi])

/-! ## Rows of a flat array -/

section
variable {β : Type*} {N : ℕ}

/-- Write `v i j k` to the cell `cell i j k` for all indices, and `c` to the cell `close i`
after each row `i`. -/
def writeRows (n m l : ℕ) (cell : Fin n → Fin m → Fin l → Fin N) (close : Fin n → Fin N)
    (v : Fin n → Fin m → Fin l → β) (c : β) (data : Fin N → β) : Fin N → β :=
  run n (fun i data =>
    Function.update
      (run m (fun j => run l fun k data => Function.update data (cell i j k) (v i j k)) data)
      (close i) c) data

variable {cell : Fin n → Fin m → Fin l → Fin N} {close : Fin n → Fin N}
  {v : Fin n → Fin m → Fin l → β} {c : β} {p : Fin N}

/-- One row writes neither into the cells of the others nor elsewhere. -/
lemma row_frame (i : Fin n) (hcell : ∀ j k, p ≠ cell i j k) (hclose : p ≠ close i)
    (data : Fin N → β) :
    Function.update
      (run m (fun j => run l fun k data => Function.update data (cell i j k) (v i j k)) data)
      (close i) c p = data p := by
  rw [Function.update_of_ne hclose]
  refine run_frame (fun d : Fin N → β => d p) (fun j => ?_) data
  exact run_frame (fun d : Fin N → β => d p) fun k d => Function.update_of_ne (hcell j k) ..

/-- A cell outside the rows keeps its content. -/
theorem writeRows_frame (hcell : ∀ i j k, p ≠ cell i j k) (hclose : ∀ i, p ≠ close i)
    (data : Fin N → β) : writeRows n m l cell close v c data p = data p :=
  run_frame (fun d : Fin N → β => d p) (fun i d => row_frame i (hcell i) (hclose i) d) data

/-- A cell of the rows holds the value of its indices. -/
theorem writeRows_cell (i : Fin n) (j : Fin m) (k : Fin l)
    (hcell : ∀ i' j' k', (i', j', k') ≠ (i, j, k) → cell i j k ≠ cell i' j' k')
    (hclose : ∀ i', cell i j k ≠ close i') (data : Fin N → β) :
    writeRows n m l cell close v c data (cell i j k) = v i j k := by
  refine run_updates (fun d : Fin N → β => d (cell i j k)) (fun _ => v i j k) i ?_ ?_ data
  · -- row `i`: the loops write the cell, the separator goes elsewhere
    intro d
    rw [Function.update_of_ne (hclose i)]
    refine run_updates (fun d : Fin N → β => d (cell i j k)) (fun _ => v i j k) j ?_ ?_ d
    · refine run_updates (fun d : Fin N → β => d (cell i j k)) (fun _ => v i j k) k ?_ ?_
      · exact fun d => Function.update_self ..
      · exact fun k' hk d => Function.update_of_ne (hcell i j k' (by simp [hk])) ..
    · intro j' hj
      exact run_frame (fun d : Fin N → β => d (cell i j k)) fun k' d =>
        Function.update_of_ne (hcell i j' k' (by simp [hj])) ..
  · intro i' hi d
    exact row_frame i' (fun j' k' => hcell i' j' k' (by simp [hi])) (hclose i') d

/-- The separator of row `i`. -/
theorem writeRows_close (i : Fin n) (hcell : ∀ i' j k, close i ≠ cell i' j k)
    (hclose : ∀ i', i' ≠ i → close i ≠ close i') (data : Fin N → β) :
    writeRows n m l cell close v c data (close i) = c := by
  refine run_updates (fun d : Fin N → β => d (close i)) (fun _ => c) i ?_ ?_ data
  · exact fun d => Function.update_self ..
  · exact fun i' hi d => row_frame i' (hcell i') (hclose i' hi) d

end

end ForLoop
