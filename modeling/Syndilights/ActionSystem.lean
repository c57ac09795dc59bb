import Mathlib.Tactic

/-!
# Systems that take labelled actions

A system is a partial step function: `step s a` is the state after the action `a`, or nothing
if `a` cannot be taken in the state `s`. A run is a list of actions.
-/

namespace ActionSystem

variable {σ α : Type*} (step : σ → α → Option σ)

/-! ## Runs -/

/-- The state after a list of actions, if each of them is possible when its turn comes. -/
def run (s : σ) (actions : List α) : Option σ := actions.foldlM step s

@[simp] lemma run_nil (s : σ) : run step s [] = some s := rfl

lemma run_cons (s : σ) (a : α) (actions : List α) :
    run step s (a :: actions) = (step s a).bind fun mid => run step mid actions := rfl

/-- A run goes through the state after each of its fronts. -/
lemma run_append (s : σ) (before after : List α) :
    run step s (before ++ after) = (run step s before).bind fun mid => run step mid after := by
  simp only [run, List.foldlM_append]
  rfl

/-- The last action of a run. -/
lemma run_concat_eq_some {s s' : σ} {actions : List α} {a : α} :
    run step s (actions ++ [a]) = some s' ↔
      ∃ mid, run step s actions = some mid ∧ step mid a = some s' := by
  rw [run_append, Option.bind_eq_some_iff]
  simp [run]

/-- A front of a possible run is possible. -/
lemma run_before {s s' : σ} {before after : List α}
    (hrun : run step s (before ++ after) = some s') :
    ∃ mid, run step s before = some mid ∧ run step mid after = some s' := by
  rwa [run_append, Option.bind_eq_some_iff] at hrun

/-- An action that is taken when its guard holds. -/
lemma of_guard {c : Prop} [Decidable c] {s s' : σ} (h : (if c then some s else none) = some s') :
    c ∧ s = s' := by
  rwa [Option.ite_none_right_eq_some, Option.some.injEq] at h

/-! ## Invariants -/

/-- Every action of the run meets the condition in the state in which it is taken. -/
def Meets (ok : σ → α → Prop) (s : σ) (actions : List α) : Prop :=
  ∀ before a after mid, actions = before ++ a :: after → run step s before = some mid → ok mid a

variable {step} {ok : σ → α → Prop} {s s' : σ} {actions : List α}

/-- The front of a run. -/
lemma Meets.before {later : List α} (h : Meets step ok s (actions ++ later)) :
    Meets step ok s actions := by
  intro before b after mid hsplit hmid
  apply h before b (after ++ later) mid _ hmid
  rw [hsplit, List.append_assoc, List.cons_append]

lemma Meets.last {a : α} (h : Meets step ok s (actions ++ [a])) {mid : σ}
    (hmid : run step s actions = some mid) : ok mid a :=
  h actions a [] mid rfl hmid

lemma Meets.nil : Meets step ok s [] := fun _ _ _ _ hsplit _ => absurd hsplit (by simp)

/-- A run that starts with an action that meets the condition. -/
lemma Meets.cons {a : α} {mid : σ} (hok : ok s a) (ha : step s a = some mid)
    (hrest : Meets step ok mid actions) : Meets step ok s (a :: actions) := by
  intro before b after t hsplit ht
  cases before with
  | nil =>
    rw [List.nil_append, List.cons.injEq] at hsplit
    rw [run_nil, Option.some.injEq] at ht
    rw [← hsplit.1, ← ht]
    exact hok
  | cons c before =>
    rw [List.cons_append, List.cons.injEq] at hsplit
    rw [← hsplit.1, run_cons, ha] at ht
    exact hrest before b after t hsplit.2 ht

lemma meets_true : Meets step (fun _ _ => True) s actions := fun _ _ _ _ _ _ => trivial

/-- What holds at the start and is kept by every action that meets the condition holds after
every run. The invariant may speak about the actions so far. -/
theorem run_history {I : List α → σ → Prop} (hinit : I [] s)
    (hstep : ∀ actions a mid s', run step s actions = some mid → I actions mid → ok mid a →
      step mid a = some s' → I (actions ++ [a]) s')
    (hmeets : Meets step ok s actions) (hrun : run step s actions = some s') :
    I actions s' := by
  induction actions using List.reverseRecOn generalizing s' with
  | nil =>
    rw [run_nil, Option.some.injEq] at hrun
    exact hrun ▸ hinit
  | append_singleton actions a ih =>
    rcases (run_concat_eq_some step).mp hrun with ⟨mid, hmid, ha⟩
    exact hstep actions a mid s' hmid (ih hmeets.before hmid) (hmeets.last hmid) ha

/-- The same for an invariant of the states alone. -/
theorem run_invariant {I : σ → Prop} (hinit : I s)
    (hstep : ∀ a mid s', I mid → ok mid a → step mid a = some s' → I s')
    (hmeets : Meets step ok s actions) (hrun : run step s actions = some s') : I s' :=
  run_history (I := fun _ => I) hinit
    (fun _ a mid s' _ hinv hok ha => hstep a mid s' hinv hok ha) hmeets hrun

/-! ## Progress -/

end ActionSystem
