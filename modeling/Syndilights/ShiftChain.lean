import Mathlib.Tactic

/-!
# Chains of shift registers with a latch

Registers of the kind of the 74HC595 in a chain: a rising clock shifts the level of the data
line into the first stage, and a rising latch copies the stages to the outputs.

* `run_pulses` — what a sequence of clock pulses leaves in the stages;
* `outputs_moment` — when the stages are loaded with the latch low, the outputs go from one
  load to the next and show nothing in between.
-/

namespace ShiftChain

/-- The lines of a chain. -/
inductive Line
  | data
  | clock
  | latch
deriving DecidableEq

/-- A line is driven to a level. -/
abbrev Write := Line × Bool

/-- The levels of the lines, the stages from the data line on, and the outputs. -/
structure Chain where
  data : Bool
  clock : Bool
  latch : Bool
  stages : List Bool
  outputs : List Bool
deriving DecidableEq

namespace Chain

/-- The stages with one more level in front; the last one is lost. -/
def shift (level : Bool) (stages : List Bool) : List Bool :=
  (level :: stages).take stages.length

/-- One write. -/
def drive (c : Chain) : Write → Chain
  | (.data, level) => { c with data := level }
  | (.clock, level) =>
    { c with
      clock := level
      stages := if !c.clock && level then shift c.data c.stages else c.stages }
  | (.latch, level) =>
    { c with
      latch := level
      outputs := if !c.latch && level then c.stages else c.outputs }

/-- Writes, one after the other. -/
def run (c : Chain) (writes : List Write) : Chain := writes.foldl drive c

end Chain

open Chain

section
variable {c : Chain} {writes : List Write}

@[simp] lemma run_nil : c.run [] = c := rfl

lemma run_cons (w : Write) : c.run (w :: writes) = (c.drive w).run writes := rfl

lemma run_append (more : List Write) : c.run (writes ++ more) = (c.run writes).run more :=
  List.foldl_append

lemma length_shift (level : Bool) (stages : List Bool) :
    (shift level stages).length = stages.length := by
  rw [shift, List.length_take, List.length_cons]
  omega

lemma length_stages_drive (w : Write) : (c.drive w).stages.length = c.stages.length := by
  obtain ⟨line, level⟩ := w
  cases line with
  | data => rfl
  | latch => rfl
  | clock =>
    show (if !c.clock && level then shift c.data c.stages else c.stages).length = _
    split
    · exact length_shift _ _
    · rfl

/-- The chain has as many stages as before. -/
lemma length_stages_run : (c.run writes).stages.length = c.stages.length := by
  induction writes generalizing c with
  | nil => rfl
  | cons w writes ih => rw [run_cons, ih, length_stages_drive]

/-! ## Loading the stages -/

/-- The writes that clock one level in: the clock idles low, and the data line is zeroed. -/
def pulse (level : Bool) : List Write :=
  [(.clock, false), (.data, level), (.clock, true), (.data, false)]

lemma run_pulse (level : Bool) : c.run (pulse level) =
    { c with data := false, clock := true, stages := shift level c.stages } := by
  cases hclock : c.clock <;> simp [pulse, run_cons, drive]

/-- What is shifted in, and what is left of the stages. -/
lemma shift_take (bits stages : List Bool) (level : Bool) {n : ℕ} (hn : stages.length = n) :
    shift level ((bits ++ stages).take n) = (level :: (bits ++ stages)).take n := by
  have hlength : ((bits ++ stages).take n).length = n := by
    rw [List.length_take, List.length_append, hn]
    omega
  rw [shift, hlength]
  cases n with
  | zero => rfl
  | succ n =>
    rw [List.take_succ_cons, List.take_succ_cons, List.take_take]
    congr 2
    omega

/-- **Pulses.** The last level is in the first stage, and the levels shifted out at the end of
the chain are lost. -/
theorem run_pulses (bits : List Bool) :
    (c.run (bits.flatMap pulse)).stages = (bits.reverse ++ c.stages).take c.stages.length := by
  induction bits using List.reverseRecOn with
  | nil => exact (List.take_length).symm
  | append_singleton bits level ih =>
    rw [List.flatMap_append, run_append, List.flatMap_singleton, run_pulse, List.reverse_append]
    show shift level (c.run (bits.flatMap pulse)).stages = _
    rw [ih, shift_take _ _ _ rfl]
    rfl

/-! ## The latch -/

/-- Writes that leave the latch alone. -/
def Unlatched (writes : List Write) : Prop := ∀ w ∈ writes, w.1 ≠ .latch

lemma unlatched_pulse (level : Bool) : Unlatched (pulse level) := by
  intro w hw
  simp only [pulse, List.mem_cons, List.not_mem_nil, or_false] at hw
  rcases hw with rfl | rfl | rfl | rfl
  all_goals
    intro hline
    cases hline

lemma Unlatched.append {more : List Write} (h : Unlatched writes) (hmore : Unlatched more) :
    Unlatched (writes ++ more) := by
  intro w hw
  rcases List.mem_append.mp hw with hw | hw
  · exact h w hw
  · exact hmore w hw

lemma Unlatched.flatMap {α : Type*} {l : List α} {f : α → List Write}
    (h : ∀ a ∈ l, Unlatched (f a)) : Unlatched (l.flatMap f) := by
  intro w hw
  obtain ⟨a, ha, hw⟩ := List.mem_flatMap.mp hw
  exact h a ha w hw

lemma Unlatched.of_prefix {front : List Write} (h : Unlatched writes) (hfront : front <+: writes) :
    Unlatched front := fun w hw => h w (hfront.subset hw)

/-- Without the latch the outputs stay. -/
lemma run_unlatched (h : Unlatched writes) :
    (c.run writes).outputs = c.outputs ∧ (c.run writes).latch = c.latch := by
  induction writes generalizing c with
  | nil => exact ⟨rfl, rfl⟩
  | cons w writes ih =>
    obtain ⟨line, level⟩ := w
    have hstep : (c.drive (line, level)).outputs = c.outputs ∧
        (c.drive (line, level)).latch = c.latch := by
      cases line with
      | data => exact ⟨rfl, rfl⟩
      | clock => exact ⟨rfl, rfl⟩
      | latch => exact absurd rfl (h _ List.mem_cons_self)
    have hrest := ih (c := c.drive (line, level)) fun w hw => h w (List.mem_cons_of_mem _ hw)
    rw [run_cons, hrest.1, hrest.2]
    exact hstep

/-- Ground the latch, load, and return it high. -/
def frame (load : List Write) : List Write := (.latch, false) :: (load ++ [(.latch, true)])

/-- In front of the last write of a frame the outputs are the old ones. -/
lemma outputs_front {load front : List Write} (h : Unlatched load)
    (hfront : front <+: (.latch, false) :: load) : (c.run front).outputs = c.outputs := by
  cases front with
  | nil => rfl
  | cons w front =>
    obtain ⟨rfl, htail⟩ := List.cons_prefix_cons.mp hfront
    rw [run_cons, (run_unlatched (h.of_prefix htail)).1]
    show (if !c.latch && false then c.stages else c.outputs) = c.outputs
    rw [Bool.and_false, if_neg Bool.false_ne_true]

/-- The last write shows the stages. -/
lemma run_frame {load : List Write} (h : Unlatched load) :
    (c.run (frame load)).outputs = ((c.drive (.latch, false)).run load).stages := by
  have hlatch : ((c.drive (.latch, false)).run load).latch = false := (run_unlatched h).2
  rw [frame, run_cons, run_append]
  show (if !((c.drive (.latch, false)).run load).latch && true then _ else _) = _
  rw [hlatch]
  rfl

/-- A frame that is not complete. -/
lemma prefix_of_ne_frame {load front : List Write} (hfront : front <+: frame load)
    (hne : front ≠ frame load) : front <+: (.latch, false) :: load := by
  rw [frame, ← List.cons_append] at hfront hne
  exact (List.prefix_concat_iff.mp hfront).resolve_left hne

/-! ## Runs of frames -/

/-- The writes of the first `k` frames. -/
def frames (load : ℕ → List Write) (k : ℕ) : List Write :=
  (List.range k).flatMap fun i => frame (load i)

lemma frames_succ (load : ℕ → List Write) (k : ℕ) :
    frames load (k + 1) = frames load k ++ frame (load k) := by
  rw [frames, List.range_succ, List.flatMap_append, List.flatMap_singleton, frames]

/-- **Nothing in between.** When load `i` brings the stages to `shown i` from wherever they are,
the outputs are the old ones until the first frame ends, and then those of the last frame that
has ended, at every moment up to the last write of the next. -/
theorem outputs_moment {load : ℕ → List Write} {shown : ℕ → List Bool} {n : ℕ}
    (hload : ∀ i, Unlatched (load i))
    (hshown : ∀ i (c : Chain), c.stages.length = n → (c.run (load i)).stages = shown i)
    (hlength : c.stages.length = n) (k : ℕ) {front : List Write}
    (hfront : front <+: (.latch, false) :: load k) :
    (c.run (frames load k ++ front)).outputs = if k = 0 then c.outputs else shown (k - 1) := by
  rw [run_append, outputs_front (hload k) hfront]
  cases k with
  | zero => rfl
  | succ k =>
    rw [if_neg k.succ_ne_zero, Nat.add_sub_cancel, frames_succ, run_append,
      run_frame (hload k)]
    apply hshown
    show (c.run (frames load k)).stages.length = n
    rw [length_stages_run, hlength]

/-- What holds of the outputs at first and of every load holds at every moment. -/
theorem outputs_invariant {P : List Bool → Prop} {n : ℕ} {loads : List (List Write)}
    (hload : ∀ load ∈ loads, Unlatched load)
    (hshown : ∀ load ∈ loads, ∀ c : Chain, c.stages.length = n → P (c.run load).stages)
    (hlength : c.stages.length = n) (hP : P c.outputs) {front : List Write}
    (hfront : front <+: loads.flatMap frame) : P (c.run front).outputs := by
  induction loads generalizing c front with
  | nil =>
    rw [List.prefix_nil.mp hfront]
    exact hP
  | cons load loads ih =>
    have hquiet := hload load List.mem_cons_self
    have hend : P (c.run (frame load)).outputs := by
      rw [run_frame hquiet]
      exact hshown load List.mem_cons_self _ hlength
    rw [List.flatMap_cons] at hfront
    rcases List.prefix_or_prefix_of_prefix hfront (List.prefix_append _ _) with hfront | ⟨rest, rfl⟩
    · by_cases hall : front = frame load
      · rw [hall]
        exact hend
      · rw [outputs_front hquiet (prefix_of_ne_frame hfront hall)]
        exact hP
    · rw [run_append]
      refine ih (fun l hl => hload l (List.mem_cons_of_mem _ hl))
        (fun l hl => hshown l (List.mem_cons_of_mem _ hl)) ?_ hend
        ((List.prefix_append_right_inj _).mp hfront)
      rw [length_stages_run, hlength]

end

end ShiftChain
