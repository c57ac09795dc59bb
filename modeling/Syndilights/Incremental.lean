import Mathlib.Tactic

/-!
# Incremental parsers

A parser that takes its input as it arrives. In a state and with some input at hand it either
makes a step, which takes a front of the input and may put something out, or it needs more.
More input does not change a step that was possible without it; so it does not matter in
which pieces the input arrives.
-/

/-- A parser with states `σ`, input `α` and output `ε`. -/
structure Incremental (σ α ε : Type*) where
  /-- A step: the next state, the output and what is left of the input. -/
  next : σ → List α → Option (σ × List ε × List α)
  stable : ∀ {s x s' out rest}, next s x = some (s', out, rest) →
    ∀ y, next s (x ++ y) = some (s', out, rest ++ y)
  /-- Bounds the steps that are possible without more input. -/
  rank : σ → List α → ℕ
  next_lt : ∀ {s x s' out rest}, next s x = some (s', out, rest) → rank s' rest < rank s x

namespace Incremental

variable {σ α ε : Type*} (m : Incremental σ α ε)

/-! ## As far as the input goes -/

/-- All the steps that are possible: the state, the output and the input left. -/
def drain (s : σ) (x : List α) : σ × List ε × List α :=
  match _ : m.next s x with
  | none => (s, [], x)
  | some (s', out, rest) =>
    let d := drain s' rest
    (d.1, out ++ d.2.1, d.2.2)
termination_by m.rank s x
decreasing_by exact m.next_lt ‹_›

variable {m} {s s' : σ} {x rest : List α} {out : List ε}

/-- Nothing is possible. -/
lemma drain_of_none (h : m.next s x = none) : m.drain s x = (s, [], x) := by
  rw [drain]
  split
  · rfl
  · rename_i heq
    rw [h] at heq
    cases heq

/-- The first step, and the others. -/
lemma drain_of_some (h : m.next s x = some (s', out, rest)) :
    m.drain s x = ((m.drain s' rest).1, out ++ (m.drain s' rest).2.1, (m.drain s' rest).2.2) := by
  rw [drain]
  split
  · rename_i heq
    rw [h] at heq
    cases heq
  · rename_i heq
    rw [h] at heq
    cases heq
    rfl

/-- Induction on the steps that the input allows. -/
theorem drain_induction {P : σ → List α → Prop} (stop : ∀ s x, m.next s x = none → P s x)
    (step : ∀ s x s' out rest, m.next s x = some (s', out, rest) → P s' rest → P s x) (s : σ)
    (x : List α) : P s x := by
  induction h : m.rank s x using Nat.strongRecOn generalizing s x with
  | _ n ih =>
    cases hnext : m.next s x with
    | none => exact stop s x hnext
    | some r =>
      obtain ⟨s', out, rest⟩ := r
      exact step s x s' out rest hnext (ih _ (h ▸ m.next_lt hnext) s' rest rfl)

variable (m s x)

/-- More input continues where the parser has stopped. -/
theorem drain_append (y : List α) :
    m.drain s (x ++ y) = ((m.drain (m.drain s x).1 ((m.drain s x).2.2 ++ y)).1,
      (m.drain s x).2.1 ++ (m.drain (m.drain s x).1 ((m.drain s x).2.2 ++ y)).2.1,
      (m.drain (m.drain s x).1 ((m.drain s x).2.2 ++ y)).2.2) := by
  induction s, x using drain_induction (m := m) with
  | stop s x h => rw [drain_of_none h, List.nil_append]
  | step s x s' out rest h ih =>
    rw [drain_of_some (m.stable h y), drain_of_some h, ih, List.append_assoc]

/-! ## Runs -/

/-- The parser gets from one state to another, with this output. -/
def Reaches (s : σ) (x : List α) (out : List ε) (s' : σ) (rest : List α) : Prop :=
  m.drain s x = ((m.drain s' rest).1, out ++ (m.drain s' rest).2.1, (m.drain s' rest).2.2)

section
variable {m s x}

lemma Reaches.refl : m.Reaches s x [] s x := rfl

lemma Reaches.trans {s'' : σ} {rest' : List α} {out' : List ε} (h : m.Reaches s x out s' rest)
    (h' : m.Reaches s' rest out' s'' rest') : m.Reaches s x (out ++ out') s'' rest' := by
  rw [Reaches] at h h' ⊢
  rw [h, h', List.append_assoc]

end

/-! ## Input in pieces -/

/-- A piece of input arrives: the state, all the output so far, and the input left. -/
def feed (d : σ × List ε × List α) (piece : List α) : σ × List ε × List α :=
  ((m.drain d.1 (d.2.2 ++ piece)).1, d.2.1 ++ (m.drain d.1 (d.2.2 ++ piece)).2.1,
    (m.drain d.1 (d.2.2 ++ piece)).2.2)

/-- One piece or two make no difference. -/
lemma feed_feed (d : σ × List ε × List α) (piece piece' : List α) :
    m.feed (m.feed d piece) piece' = m.feed d (piece ++ piece') := by
  simp only [feed]
  rw [← List.append_assoc, drain_append m d.1 (d.2.2 ++ piece) piece', List.append_assoc]

/-- **The pieces do not matter.** -/
theorem feed_pieces (d : σ × List ε × List α) (piece : List α) (pieces : List (List α)) :
    (piece :: pieces).foldl m.feed d = m.feed d (piece :: pieces).flatten := by
  induction pieces generalizing d piece with
  | nil => rw [List.flatten_singleton]; rfl
  | cons piece' pieces ih =>
    rw [List.foldl_cons, ih, feed_feed, List.flatten_cons, List.flatten_cons, List.flatten_cons]

end Incremental
