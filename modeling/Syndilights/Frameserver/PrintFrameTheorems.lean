import Syndilights.Frameserver.PrintFrame

/-!
# What the console shows of a frame

Every window and every colour of a segment has cells of its own, so the picture is always right.
The numbers are not: one digit does not erase a third one that was printed before.
-/

namespace Syndilights.Frameserver.Server
open Terminal

/-! ## The picture -/

/-- The cell of a window. -/
def windowAt (i : Fin HEIGHT) (j : Fin WIDTH) : ℕ × ℕ := (i + 2, j)

/-- The cells of a segment in one colour. -/
def segmentAt (w : Fin SEGWIDTH) (n : Fin SEGNUM) (a : Fin (SEGCHANNELS - 1)) : List (ℕ × ℕ) :=
  [(HEIGHT + 2 + a * 8 + (segmentPlaces n).1.2, w * 7 + (segmentPlaces n).1.1),
   (HEIGHT + 2 + a * 8 + (segmentPlaces n).2.2, w * 7 + (segmentPlaces n).2.1)]

/-- The frame is on the screen, and nothing else has changed. -/
structure ShowsFrame (s s' : Screen) (frame : Frame) : Prop where
  size : s'.rows = s.rows ∧ s'.cols = s.cols
  window : ∀ i j, s.Has (windowAt i j) →
    s'.cells (windowAt i j) = ⟨brtoc (frame.windows (i, j, 0)), s.pair⟩
  segment : ∀ w n a, ∀ p ∈ segmentAt w n a, s.Has p →
    s'.cells p = ⟨brtoc (frame.segments (w, n, a.castSucc)), a + 1⟩
  others : ∀ p, (∀ i j, p ≠ windowAt i j) → (∀ w n a, p ∉ segmentAt w n a) →
    s'.cells p = s.cells p

/-- Where a segment lies in its block of 7 by 8 cells. -/
lemma segmentPlaces_le (n : Fin SEGNUM) :
    (segmentPlaces n).1.1 < 7 ∧ 1 ≤ (segmentPlaces n).1.2 ∧ (segmentPlaces n).1.2 < 8 ∧
      (segmentPlaces n).2.1 < 7 ∧ 1 ≤ (segmentPlaces n).2.2 ∧ (segmentPlaces n).2.2 < 8 := by
  fin_cases n <;> decide

/-- No two segments of a display share a cell. -/
lemma segmentPlaces_disjoint {n n' : Fin SEGNUM} {q : ℕ × ℕ}
    (h : q = (segmentPlaces n).1 ∨ q = (segmentPlaces n).2)
    (h' : q = (segmentPlaces n').1 ∨ q = (segmentPlaces n').2) : n = n' := by
  have hall : ∀ n n' : Fin SEGNUM, n ≠ n' → (segmentPlaces n).1 ≠ (segmentPlaces n').1 ∧
      (segmentPlaces n).1 ≠ (segmentPlaces n').2 ∧ (segmentPlaces n).2 ≠ (segmentPlaces n').1 ∧
      (segmentPlaces n).2 ≠ (segmentPlaces n').2 := by decide
  by_contra hne
  obtain ⟨h₁, h₂, h₃, h₄⟩ := hall n n' hne
  rcases h with rfl | rfl
  · rcases h' with h' | h'
    · exact h₁ h'
    · exact h₂ h'
  · rcases h' with h' | h'
    · exact h₃ h'
    · exact h₄ h'

section
variable {s : Screen} {frame : Frame} {p : ℕ × ℕ}

/-- A cell belongs to one segment in one colour. -/
lemma segmentAt_unique {w w' : Fin SEGWIDTH} {n n' : Fin SEGNUM} {a a' : Fin (SEGCHANNELS - 1)}
    (h : p ∈ segmentAt w n a) (h' : p ∈ segmentAt w' n' a') : w = w' ∧ n = n' ∧ a = a' := by
  -- the cell in its block, and the block
  have hplace : ∀ {w : Fin SEGWIDTH} {n : Fin SEGNUM} {a : Fin (SEGCHANNELS - 1)},
      p ∈ segmentAt w n a → ∃ q : ℕ × ℕ, (q = (segmentPlaces n).1 ∨ q = (segmentPlaces n).2) ∧
        q.1 < 7 ∧ q.2 < 8 ∧ p = (a * 8 + q.2 + 10, w * 7 + q.1) := by
    intro w n a h
    obtain ⟨hx₁, -, hy₁, hx₂, -, hy₂⟩ := segmentPlaces_le n
    have hheight : HEIGHT = 8 := rfl
    rcases List.mem_pair.mp h with rfl | rfl
    · exact ⟨_, .inl rfl, hx₁, hy₁, by rw [Prod.mk.injEq, hheight]; omega⟩
    · exact ⟨_, .inr rfl, hx₂, hy₂, by rw [Prod.mk.injEq, hheight]; omega⟩
  obtain ⟨q, hq, hx, hy, hp⟩ := hplace h
  obtain ⟨q', hq', hx', hy', hp'⟩ := hplace h'
  rw [hp, Prod.mk.injEq] at hp'
  have hcol : w.val = w'.val ∧ q.1 = q'.1 := by omega
  have hrow : a.val = a'.val ∧ q.2 = q'.2 := by omega
  obtain rfl : q = q' := Prod.ext hcol.2 hrow.2
  exact ⟨Fin.ext hcol.1, segmentPlaces_disjoint hq hq', Fin.ext hrow.1⟩

lemma windowAt_injective {i i' : Fin HEIGHT} {j j' : Fin WIDTH}
    (h : windowAt i j = windowAt i' j') : i = i' ∧ j = j' := by
  rw [windowAt, windowAt, Prod.mk.injEq] at h
  exact ⟨Fin.ext (by omega), Fin.ext h.2⟩

/-- The segments are below the windows. -/
lemma windowAt_notMem (i : Fin HEIGHT) (j : Fin WIDTH) (w : Fin SEGWIDTH) (n : Fin SEGNUM)
    (a : Fin (SEGCHANNELS - 1)) : windowAt i j ∉ segmentAt w n a := by
  intro h
  have hi := i.isLt
  rcases List.mem_pair.mp h with h | h
  · have hrow := congrArg Prod.fst h
    simp only [windowAt] at hrow
    omega
  · have hrow := congrArg Prod.fst h
    simp only [windowAt] at hrow
    omega

/-! ## One print -/

lemma cells_printWindow (i : Fin HEIGHT) (j : Fin WIDTH) : (printWindow frame i j s).cells p =
    if p = windowAt i j ∧ s.Has p then ⟨brtoc (frame.windows (i, j, 0)), s.pair⟩
    else s.cells p := Screen.cells_mvprintw_char _

lemma size_printWindow (s : Screen) (frame : Frame) (i : Fin HEIGHT) (j : Fin WIDTH) :
    (printWindow frame i j s).rows = s.rows ∧
    (printWindow frame i j s).cols = s.cols ∧ (printWindow frame i j s).pair = s.pair :=
  ⟨Screen.rows_mvprintw, Screen.cols_mvprintw, Screen.pair_mvprintw⟩

lemma cells_printSegment (w : Fin SEGWIDTH) (n : Fin SEGNUM) (a : Fin (SEGCHANNELS - 1)) :
    (printSegment frame w n a s).cells p = if p ∈ segmentAt w n a ∧ s.Has p then
      ⟨brtoc (frame.segments (w, n, a.castSucc)), a + 1⟩ else s.cells p := by
  show (((s.attron (a + 1)).mvprintw (HEIGHT + 2 + a * 8 + (segmentPlaces n).1.2)
      (w * 7 + (segmentPlaces n).1.1) [brtoc (frame.segments (w, n, a.castSucc))]).mvprintw
    (HEIGHT + 2 + a * 8 + (segmentPlaces n).2.2) (w * 7 + (segmentPlaces n).2.1)
      [brtoc (frame.segments (w, n, a.castSucc))]).cells p = _
  rw [Screen.cells_mvprintw_char, Screen.cells_mvprintw_char]
  simp only [segmentAt, List.mem_pair, Screen.Has, Screen.rows_mvprintw, Screen.cols_mvprintw,
    Screen.pair_mvprintw, Screen.attron]
  by_cases hon : p.1 < s.rows ∧ p.2 < s.cols
  · simp only [hon, and_true]
    split_ifs <;> tauto
  · simp only [hon, and_false, if_false]

lemma size_printSegment (s : Screen) (frame : Frame) (w : Fin SEGWIDTH) (n : Fin SEGNUM)
    (a : Fin (SEGCHANNELS - 1)) :
    (printSegment frame w n a s).rows = s.rows ∧ (printSegment frame w n a s).cols = s.cols := by
  simp [printSegment, Screen.attroff, Screen.attron]

/-! ## The loops -/

/-- What a print of a window can change, and depends on. -/
def view (p : ℕ × ℕ) (s : Screen) : ℕ × ℕ × ℕ × Cell := (s.rows, s.cols, s.pair, s.cells p)

/-- What a print of a segment can change, and depends on. -/
def view₀ (p : ℕ × ℕ) (s : Screen) : ℕ × ℕ × Cell := (s.rows, s.cols, s.cells p)

lemma view_printWindow_of_ne {i : Fin HEIGHT} {j : Fin WIDTH} (h : p ≠ windowAt i j)
    (s : Screen) : view p (printWindow frame i j s) = view p s := by
  obtain ⟨hrows, hcols, hpair⟩ := size_printWindow s frame i j
  rw [view, view, hrows, hcols, hpair, cells_printWindow, if_neg fun hp => h hp.1]

lemma view₀_printSegment_of_notMem {w : Fin SEGWIDTH} {n : Fin SEGNUM}
    {a : Fin (SEGCHANNELS - 1)} (h : p ∉ segmentAt w n a) (s : Screen) :
    view₀ p (printSegment frame w n a s) = view₀ p s := by
  obtain ⟨hrows, hcols⟩ := size_printSegment s frame w n a
  rw [view₀, view₀, hrows, hcols, cells_printSegment, if_neg fun hp => h hp.1]

/-- The loops over the windows. -/
def windows (s : Screen) (frame : Frame) : Screen :=
  ForLoop.run₂ HEIGHT WIDTH (printWindow frame) s

lemma view_windows (s : Screen) (frame : Frame) (i : Fin HEIGHT) (j : Fin WIDTH) :
    view (windowAt i j) (windows s frame) = (s.rows, s.cols, s.pair,
      if s.Has (windowAt i j) then ⟨brtoc (frame.windows (i, j, 0)), s.pair⟩
      else s.cells (windowAt i j)) := by
  refine ForLoop.run₂_updates (view (windowAt i j))
    (fun v => (v.1, v.2.1, v.2.2.1, if (windowAt i j).1 < v.1 ∧ (windowAt i j).2 < v.2.1 then
      ⟨brtoc (frame.windows (i, j, 0)), v.2.2.1⟩ else v.2.2.2)) i j ?_ ?_ s
  · intro s
    obtain ⟨hrows, hcols, hpair⟩ := size_printWindow s frame i j
    rw [view, hrows, hcols, hpair, cells_printWindow]
    simp only [view, Screen.Has, true_and]
    congr
  · intro i' j' hne s
    refine view_printWindow_of_ne (fun h => hne ?_) s
    obtain ⟨rfl, rfl⟩ := windowAt_injective h
    rfl

lemma view_windows_of_ne (s : Screen) (frame : Frame) (h : ∀ i j, p ≠ windowAt i j) :
    view p (windows s frame) = view p s := by
  unfold windows
  exact ForLoop.run_frame (view p) (fun i => ForLoop.run_frame (view p) fun j =>
    view_printWindow_of_ne (h i j)) s

/-- The loops over the segments. -/
def segments (s : Screen) (frame : Frame) : Screen :=
  ForLoop.run₃ SEGWIDTH SEGNUM (SEGCHANNELS - 1) (printSegment frame) s

lemma cells_segments {w : Fin SEGWIDTH} {n : Fin SEGNUM} {a : Fin (SEGCHANNELS - 1)}
    (hp : p ∈ segmentAt w n a) : (segments s frame).cells p =
      if s.Has p then ⟨brtoc (frame.segments (w, n, a.castSucc)), a + 1⟩ else s.cells p := by
  have hview : view₀ p (segments s frame) = (s.rows, s.cols,
      if s.Has p then ⟨brtoc (frame.segments (w, n, a.castSucc)), a + 1⟩ else s.cells p) := by
    refine ForLoop.run₃_updates (view₀ p) (fun v => (v.1, v.2.1,
      if p.1 < v.1 ∧ p.2 < v.2.1 then ⟨brtoc (frame.segments (w, n, a.castSucc)), a + 1⟩
      else v.2.2)) w n a ?_ ?_ s
    · intro s
      obtain ⟨hrows, hcols⟩ := size_printSegment s frame w n a
      rw [view₀, hrows, hcols, cells_printSegment]
      simp only [view₀, hp, true_and]
      congr
    · intro w' n' a' hne s
      refine view₀_printSegment_of_notMem (fun h => hne ?_) s
      obtain ⟨rfl, rfl, rfl⟩ := segmentAt_unique h hp
      rfl
  simp only [view₀, Prod.mk.injEq] at hview
  exact hview.2.2

lemma console_printframe_eq :
    console_printframe s frame = segments (windows s frame) frame := rfl

/-- **The picture.** Whatever the screen shows before and whatever its size, it shows the frame
afterwards as far as it goes, each window and each colour of a segment in its own cells, and
everything else as before. -/
theorem console_printframe_shows (s : Screen) (frame : Frame) :
    ShowsFrame s (console_printframe s frame) frame := by
  have hsegments : ∀ p, (∀ w n a, p ∉ segmentAt w n a) →
      view₀ p (console_printframe s frame) = view₀ p (windows s frame) := fun p hp =>
    ForLoop.run₃_frame (view₀ p) (fun w n a => view₀_printSegment_of_notMem (hp w n a)) _
  have hoff : ∀ p, (∀ i j, p ≠ windowAt i j) → view₀ p (windows s frame) = view₀ p s := by
    intro p hp
    have hview := view_windows_of_ne s frame hp
    simp only [view, Prod.mk.injEq] at hview
    rw [view₀, view₀, hview.1, hview.2.1, hview.2.2.2]
  -- the corner in front of the header belongs to nothing
  have hcorner : view₀ (0, 0) (console_printframe s frame) = view₀ (0, 0) s := by
    rw [hsegments, hoff]
    · intro i j h
      have hrow := congrArg Prod.fst h
      simp only [windowAt] at hrow
      omega
    · intro w n a h
      rcases List.mem_pair.mp h with h | h
      · have hrow := congrArg Prod.fst h
        simp only at hrow
        omega
      · have hrow := congrArg Prod.fst h
        simp only at hrow
        omega
  refine ⟨?_, ?_, ?_, ?_⟩
  · simp only [view₀, Prod.mk.injEq] at hcorner
    exact ⟨hcorner.1, hcorner.2.1⟩
  · intro i j hon
    have hkept := hsegments _ fun w n a => windowAt_notMem i j w n a
    have hview := view_windows s frame i j
    simp only [view₀, view, Prod.mk.injEq] at hkept hview
    rw [hkept.2.2, hview.2.2.2, if_pos hon]
  · intro w n a p hp hon
    have hnone : ∀ i j, p ≠ windowAt i j := by
      rintro i j rfl
      exact windowAt_notMem i j w n a hp
    have hsize := hoff p hnone
    simp only [view₀, Prod.mk.injEq] at hsize
    rw [console_printframe_eq, cells_segments hp, if_pos]
    rw [Screen.Has, hsize.1, hsize.2.1]
    exact hon
  · intro p hwindow hsegment
    have hkept := (hsegments p hsegment).trans (hoff p hwindow)
    simp only [view₀, Prod.mk.injEq] at hkept
    exact hkept.2.2

end

/-! ## Numbers -/

/-- Three characters of a field. -/
abbrev Digits := Char × Char × Char

/-- The digits of a number and the blank behind them, in a field. -/
def overwrite (v : ℕ) (old : Digits) : Digits :=
  match Nat.toDigits 10 v with
  | [a] => (a, ' ', old.2.2)
  | [a, b] => (a, b, ' ')
  | [a, b, c] => (a, b, c)
  | _ => old

/-- The number in an empty field. -/
def numeral (v : ℕ) : Digits := overwrite v (' ', ' ', ' ')

/-- What the field of a window shows. -/
def field (i : Fin HEIGHT) (j : Fin WIDTH) (s : Screen) : Digits :=
  ((s.cells (i * 2 + 2, j * 4 + 1)).char, (s.cells (i * 2 + 2, j * 4 + 2)).char,
    (s.cells (i * 2 + 2, j * 4 + 3)).char)

/-- The number of a window. -/
def value (i : Fin HEIGHT) (j : Fin WIDTH) (frame : Frame) : ℕ :=
  (frame.windows (i, j, ⟨0, channels_pos⟩)).toNat

lemma value_lt (i : Fin HEIGHT) (j : Fin WIDTH) (frame : Frame) : value i j frame < 256 :=
  (frame.windows (i, j, ⟨0, channels_pos⟩)).toNat_lt

/-- One, two or three digits. -/
lemma toDigits_cases {v : ℕ} (hv : v < 1000) :
    (v < 10 ∧ Nat.toDigits 10 v = [v.digitChar]) ∨
    (10 ≤ v ∧ v < 100 ∧ Nat.toDigits 10 v = [(v / 10).digitChar, (v % 10).digitChar]) ∨
    (100 ≤ v ∧ Nat.toDigits 10 v =
      [(v / 10 / 10).digitChar, (v / 10 % 10).digitChar, (v % 10).digitChar]) := by
  rcases lt_or_ge v 10 with h₁ | h₁
  · exact .inl ⟨h₁, Nat.toDigits_of_lt_base h₁⟩
  have htenth := Nat.toDigits_of_base_le (by decide) h₁
  rcases lt_or_ge v 100 with h₂ | h₂
  · refine .inr (.inl ⟨h₁, h₂, ?_⟩)
    rw [htenth, Nat.toDigits_of_lt_base (by omega)]
    rfl
  · refine .inr (.inr ⟨h₂, ?_⟩)
    rw [htenth, Nat.toDigits_of_base_le (by decide) (by omega),
      Nat.toDigits_of_lt_base (by omega)]
    rfl

lemma digitChar_ne_blank {d : ℕ} (hd : d < 10) : d.digitChar ≠ ' ' := by
  interval_cases d <;> decide

/-- The screen is large enough for the fields. -/
def Fits (s : Screen) : Prop := 17 ≤ s.rows ∧ 49 ≤ s.cols

section
variable {s : Screen} {frame : Frame} {i : Fin HEIGHT} {j : Fin WIDTH}

lemma size_printValue (s : Screen) (frame : Frame) (i : Fin HEIGHT) (j : Fin WIDTH) :
    (printValue frame i j s).rows = s.rows ∧
    (printValue frame i j s).cols = s.cols :=
  ⟨Screen.rows_mvprintw, Screen.cols_mvprintw⟩

lemma printValue_eq (s : Screen) (frame : Frame) (i : Fin HEIGHT) (j : Fin WIDTH) :
    printValue frame i j s = s.mvprintw (i * 2 + 2) (j * 4)
      (' ' :: (Nat.toDigits 10 (value i j frame) ++ [' '])) := rfl

lemma length_toDigits_value (frame : Frame) (i : Fin HEIGHT) (j : Fin WIDTH) :
    (Nat.toDigits 10 (value i j frame)).length ≤ 3 := by
  rcases toDigits_cases (v := value i j frame)
    (lt_trans (value_lt i j frame) (by decide)) with ⟨-, h⟩ | ⟨-, -, h⟩ | ⟨-, h⟩
  all_goals
    rw [h]
    simp

lemma cells_printValue (h : Fits s) (row col : ℕ) :
    ((printValue frame i j s).cells (row, col)).char = if row = i * 2 + 2 ∧ j * 4 ≤ col then
      ((' ' :: (Nat.toDigits 10 (value i j frame) ++ [' ']))[col - j * 4]?).getD
        (s.cells (row, col)).char
      else (s.cells (row, col)).char := by
  have hi : i.val < 8 := i.isLt
  have hj : j.val < 12 := j.isLt
  have hlength := length_toDigits_value frame i j
  obtain ⟨hrows, hcols⟩ := h
  rw [printValue_eq, Screen.cells_mvprintw (by omega)]
  · split_ifs
    · cases (' ' :: (Nat.toDigits 10 (value i j frame) ++ [' ']))[col - j * 4]? <;> rfl
    · rfl
  · rw [List.length_cons, List.length_append, List.length_singleton]
    omega

/-- A field is printed over. -/
lemma field_printValue (h : Fits s) :
    field i j (printValue frame i j s) = overwrite (value i j frame) (field i j s) := by
  have hcell : ∀ k, ((printValue frame i j s).cells (i * 2 + 2, j * 4 + k)).char =
      ((' ' :: (Nat.toDigits 10 (value i j frame) ++ [' ']))[k]?).getD
        (s.cells (i * 2 + 2, j * 4 + k)).char := by
    intro k
    rw [cells_printValue h, if_pos ⟨rfl, by omega⟩, Nat.add_sub_cancel_left]
  rw [field, hcell, hcell, hcell, overwrite]
  rcases toDigits_cases (lt_trans (value_lt i j frame) (by decide)) with
    ⟨-, h⟩ | ⟨-, -, h⟩ | ⟨-, h⟩
  all_goals
    rw [h]
    rfl

/-- The other fields are not touched; the blank behind a number is the one in front of the
next. -/
lemma field_printValue_of_ne (h : Fits s) {i' : Fin HEIGHT} {j' : Fin WIDTH}
    (hne : (i', j') ≠ (i, j)) : field i j (printValue frame i' j' s) = field i j s := by
  have hlength := length_toDigits_value frame i' j'
  have hcell : ∀ k, 1 ≤ k → k ≤ 3 →
      ((printValue frame i' j' s).cells (i * 2 + 2, j * 4 + k)).char =
        (s.cells (i * 2 + 2, j * 4 + k)).char := by
    intro k hk hk'
    rw [cells_printValue h]
    by_cases hcol : i.val * 2 + 2 = i'.val * 2 + 2 ∧ j'.val * 4 ≤ j.val * 4 + k
    · have hj : j'.val ≠ j.val := by
        intro hj
        have hi : i'.val = i.val := by omega
        exact hne (Prod.ext (Fin.ext hi) (Fin.ext hj))
      rw [if_pos hcol, List.getElem?_eq_none]
      · rfl
      · rw [List.length_cons, List.length_append, List.length_singleton]
        omega
    · rw [if_neg hcol]
  rw [field, field, hcell 1 (by decide) (by decide), hcell 2 (by decide) (by decide),
    hcell 3 (by decide) (by decide)]

/-! ## Runs of frames -/

/-- The field, if the screen is large enough. -/
def fitting (i : Fin HEIGHT) (j : Fin WIDTH) (s : Screen) : Option Digits :=
  if 17 ≤ s.rows ∧ 49 ≤ s.cols then some (field i j s) else none

lemma fitting_printValue {f : Digits → Digits} {i' : Fin HEIGHT} {j' : Fin WIDTH}
    (hfield : Fits s → field i j (printValue frame i' j' s) = f (field i j s)) :
    fitting i j (printValue frame i' j' s) = (fitting i j s).map f := by
  obtain ⟨hrows, hcols⟩ := size_printValue s frame i' j'
  rw [fitting, fitting, hrows, hcols]
  by_cases h : 17 ≤ s.rows ∧ 49 ≤ s.cols
  · rw [if_pos h, if_pos h, hfield h]
    rfl
  · rw [if_neg h, if_neg h]
    rfl

/-- One frame prints over every field once. -/
lemma fitting_values : fitting i j (console_printframe_values s frame) =
    (fitting i j s).map (overwrite (value i j frame)) := by
  refine ForLoop.run₂_updates (fitting i j) (Option.map (overwrite (value i j frame))) i j ?_ ?_ s
  · exact fun s => fitting_printValue fun h => field_printValue h
  · intro i' j' hne s
    have hsame : fitting i j (printValue frame i' j' s) = (fitting i j s).map id :=
      fitting_printValue fun h => field_printValue_of_ne h hne
    rwa [Option.map_id, id] at hsame

/-- The console shows one frame after the other. -/
def refresh (s : Screen) (frames : List Frame) : Screen :=
  frames.foldl console_printframe_values s

lemma fitting_refresh (frames : List Frame) : fitting i j (refresh s frames) =
    (fitting i j s).map fun old => (frames.map (value i j)).foldl (fun d v => overwrite v d) old := by
  induction frames generalizing s with
  | nil =>
    rw [refresh, List.foldl_nil]
    exact Option.map_id'.symm
  | cons frame frames ih =>
    have hcons : refresh s (frame :: frames) = refresh (console_printframe_values s frame) frames :=
      List.foldl_cons ..
    rw [hcons, ih, fitting_values, Option.map_map]
    rfl

end

/-- What is left of the numbers in a field: its third character comes from the last number of
two digits or more. -/
lemma third_eq_blank_iff {vs : List ℕ} (h : ∀ v ∈ vs, v < 1000) :
    (vs.foldl (fun d v => overwrite v d) (' ', ' ', ' ')).2.2 = ' ' ↔
      ∀ u ∈ (vs.filter (10 ≤ ·)).getLast?, u < 100 := by
  induction vs using List.reverseRecOn with
  | nil => simp
  | append_singleton vs v ih =>
    have hvs := ih fun u hu => h u (List.mem_append_left _ hu)
    have hv := h v (List.mem_append_right _ (List.mem_singleton_self v))
    rw [List.foldl_append, List.filter_append, List.foldl_cons, List.foldl_nil, overwrite]
    rcases toDigits_cases hv with ⟨hlt, hdigits⟩ | ⟨hge, hlt, hdigits⟩ | ⟨hge, hdigits⟩
    · rw [hdigits, List.filter_singleton, decide_eq_false (by omega), cond_false, List.append_nil]
      exact hvs
    · rw [hdigits, List.filter_singleton, decide_eq_true hge, cond_true,
        List.getLast?_append_of_ne_nil _ (List.cons_ne_nil _ _)]
      simp [hlt]
    · rw [hdigits, List.filter_singleton, decide_eq_true (by omega), cond_true,
        List.getLast?_append_of_ne_nil _ (List.cons_ne_nil _ _)]
      have hblank : (v % 10).digitChar ≠ ' ' := digitChar_ne_blank (Nat.mod_lt _ (by decide))
      simp [hblank, hge]

/-- A number is legible on top of another field, unless a third character stays. -/
lemma overwrite_eq_numeral_iff {v : ℕ} (hv : v < 1000) (old : Digits) :
    overwrite v old = numeral v ↔ (v < 10 → old.2.2 = ' ') := by
  rw [numeral, overwrite, overwrite]
  rcases toDigits_cases hv with ⟨hlt, hdigits⟩ | ⟨hge, hlt, hdigits⟩ | ⟨hge, hdigits⟩
  · rw [hdigits]
    simp [hlt]
  · rw [hdigits]
    simp [hge]
  · rw [hdigits]
    simp [show 10 ≤ v by omega]

/-- **Stale digits.** After a run of frames on a cleared screen the field of a window shows the
number of the last frame if it has two digits or three, or if the last such number before it
had two: one digit does not erase the third character. -/
theorem legible_iff {s : Screen} (hfits : Fits s) (earlier : List Frame) (frame : Frame)
    (i : Fin HEIGHT) (j : Fin WIDTH) :
    field i j (refresh s.clear (earlier ++ [frame])) = numeral (value i j frame) ↔
      (value i j frame < 10 →
        ∀ u ∈ ((earlier.map (value i j)).filter (10 ≤ ·)).getLast?, u < 100) := by
  have hbound : ∀ v ∈ earlier.map (value i j), v < 1000 := by
    intro v hv
    obtain ⟨frame, -, rfl⟩ := List.mem_map.mp hv
    exact lt_trans (value_lt i j frame) (by decide)
  have hrun := fitting_refresh (s := s.clear) (i := i) (j := j) (earlier ++ [frame])
  have hclear : fitting i j s.clear = some (' ', ' ', ' ') := if_pos hfits
  have hlast : fitting i j (refresh s.clear (earlier ++ [frame])) =
      some (field i j (refresh s.clear (earlier ++ [frame]))) := by
    rw [fitting] at hrun ⊢
    split_ifs at hrun ⊢ with h
    · rfl
    · rw [hclear] at hrun
      cases hrun
  rw [hlast, hclear, Option.map_some, Option.some.injEq, List.map_append, List.foldl_append] at hrun
  rw [hrun, ← third_eq_blank_iff hbound]
  exact overwrite_eq_numeral_iff (lt_trans (value_lt i j frame) (by decide)) _

/-- A frame with all windows lit. -/
def bright : Frame := ⟨0, fun _ => 255, fun _ => 0⟩

/-- A screen of the usual size. -/
def terminal : Screen := ⟨24, 80, 0, fun _ => ⟨' ', 0⟩⟩

/-- After 255 a zero is shown with a 5 behind it. -/
theorem stale_after_bright :
    field 0 0 (refresh terminal.clear ([bright] ++ [⟨0, fun _ => 0, fun _ => 0⟩])) ≠ numeral 0 := by
  intro h
  have hfits : Fits terminal := ⟨by decide, by decide⟩
  have hstale := (legible_iff hfits [bright] ⟨0, fun _ => 0, fun _ => 0⟩ 0 0).mp h (by decide) 255 rfl
  omega

end Syndilights.Frameserver.Server
