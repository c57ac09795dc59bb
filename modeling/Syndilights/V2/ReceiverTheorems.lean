import Mathlib.Data.List.TakeWhile
import Syndilights.V2.Receiver

/-!
# What the receiver pushes

`handle` pushes lines, stripped of whitespace, up to the first line that has nothing else.
Whether they are whole frames is up to the client.
-/

namespace Syndilights.V2

/-! ## Whitespace -/

/-- Nothing but whitespace. -/
def Blank (line : List UInt8) : Prop := ∀ b ∈ line, isSpace b = true

/-- The outermost bytes, if there are any, are no whitespace. -/
structure Trimmed (data : List UInt8) : Prop where
  head : ∀ b ∈ data.head?, isSpace b = false
  last : ∀ b ∈ data.getLast?, isSpace b = false

lemma trimmed_of_forall {data : List UInt8} (h : ∀ b ∈ data, isSpace b = false) :
    Trimmed data where
  head b hb := h b (List.mem_of_mem_head? hb)
  last b hb := h b (List.mem_of_getLast? hb)

/-- `dropWhile` takes the whitespace in front away. -/
lemma dropWhile_append {front data : List UInt8} (hfront : Blank front)
    (hhead : ∀ b ∈ data.head?, isSpace b = false) :
    (front ++ data).dropWhile isSpace = data := by
  rw [List.dropWhile_append_of_pos hfront]
  cases data with
  | nil => rfl
  | cons b data =>
    apply List.dropWhile_cons_of_neg
    rw [hhead b rfl]
    exact Bool.false_ne_true

/-- What `dropWhile` leaves starts with no whitespace. -/
lemma head_dropWhile {line : List UInt8} :
    ∀ b ∈ (line.dropWhile isSpace).head?, isSpace b = false := by
  intro b hb
  have hnot := List.head?_dropWhile_not isSpace line
  rw [Option.mem_def.mp hb] at hnot
  exact hnot

lemma blank_nil : Blank [] := fun _ h => absurd h List.not_mem_nil

lemma Blank.append {front back : List UInt8} (hfront : Blank front) (hback : Blank back) :
    Blank (front ++ back) :=
  List.forall_mem_append.mpr ⟨hfront, hback⟩

lemma Blank.reverse {line : List UInt8} (h : Blank line) : Blank line.reverse :=
  fun b hb => h b (List.mem_reverse.mp hb)

/-- `strip` takes away what surrounds the trimmed data. -/
lemma strip_append {front data back : List UInt8} (hfront : Blank front) (hback : Blank back)
    (hdata : Trimmed data) : strip (front ++ data ++ back) = data := by
  by_cases hnil : data = []
  · -- the whole line is whitespace
    have hdrop : (front ++ back ++ []).dropWhile isSpace = [] :=
      dropWhile_append (hfront.append hback) (by simp)
    rw [List.append_nil] at hdrop
    rw [hnil, List.append_nil, strip, hdrop]
    rfl
  · have hhead : ∀ b ∈ (data ++ back).head?, isSpace b = false := by
      rw [List.head?_append_of_ne_nil _ hnil]
      exact hdata.head
    have hlast : ∀ b ∈ data.reverse.head?, isSpace b = false := by
      rw [List.head?_reverse]
      exact hdata.last
    rw [strip, List.append_assoc, dropWhile_append hfront hhead, List.reverse_append,
      dropWhile_append hback.reverse hlast, List.reverse_reverse]

/-- Every line is its stripped data with whitespace around it. -/
lemma exists_strip (line : List UInt8) :
    ∃ front back, Blank front ∧ Blank back ∧ Trimmed (strip line) ∧
      line = front ++ strip line ++ back := by
  have hfront : line = line.takeWhile isSpace ++ line.dropWhile isSpace :=
    List.takeWhile_append_dropWhile.symm
  have hback : line.dropWhile isSpace
      = strip line ++ ((line.dropWhile isSpace).reverse.takeWhile isSpace).reverse := by
    rw [strip, ← List.reverse_append, List.takeWhile_append_dropWhile, List.reverse_reverse]
  refine ⟨line.takeWhile isSpace, ((line.dropWhile isSpace).reverse.takeWhile isSpace).reverse,
    fun b => List.mem_takeWhile_imp, ?_, ⟨?_, ?_⟩, ?_⟩
  · exact Blank.reverse fun b => List.mem_takeWhile_imp
  · intro b hb
    have hhead : b ∈ (line.dropWhile isSpace).head? := by
      rw [hback, List.head?_append, Option.mem_def.mp hb]
      rfl
    exact head_dropWhile b hhead
  · rw [strip, List.getLast?_reverse]
    exact head_dropWhile
  · rw [List.append_assoc, ← hback]
    exact hfront

/-- `strip` leaves nothing of a line exactly when the line is whitespace. -/
lemma strip_eq_nil_iff {line : List UInt8} : strip line = [] ↔ Blank line := by
  constructor
  · intro hnil
    rcases exists_strip line with ⟨front, back, hfront, hback, -, hline⟩
    rw [hline, hnil, List.append_nil]
    exact hfront.append hback
  · intro hblank
    have hstrip : strip (line ++ [] ++ []) = [] :=
      strip_append hblank blank_nil (trimmed_of_forall fun _ h => absurd h List.not_mem_nil)
    rwa [List.append_nil, List.append_nil] at hstrip

/-! ## Lines -/

/-- `readline` finds the newline behind bytes that are none. -/
lemma readline_append {p rest : List UInt8} (h : ∀ b ∈ p, b ≠ 10) :
    readline (p ++ 10 :: rest) = (p ++ [10], rest) := by
  induction p with
  | nil => simp [readline]
  | cons b p ih =>
    rw [List.cons_append, readline, if_neg (h b List.mem_cons_self),
      ih fun b' hb' => h b' (List.mem_cons_of_mem b hb')]
    rfl

/-- Without a newline, `readline` takes all that is left. -/
lemma readline_last {p : List UInt8} (h : ∀ b ∈ p, b ≠ 10) : readline p = (p, []) := by
  induction p with
  | nil => rfl
  | cons b p ih =>
    rw [readline, if_neg (h b List.mem_cons_self),
      ih fun b' hb' => h b' (List.mem_cons_of_mem b hb')]

/-- The newline is whitespace. -/
lemma strip_newline_any (line : List UInt8) : strip (line ++ [10]) = strip line := by
  rcases exists_strip line with ⟨front, back, hfront, hback, htrimmed, hline⟩
  have hnewline : Blank (back ++ [10]) :=
    hback.append fun b hb => by rw [List.mem_singleton.mp hb]; rfl
  conv_lhs => rw [hline, List.append_assoc]
  exact strip_append hfront hnewline htrimmed

/-- `strip` takes the newline off and nothing else. -/
lemma strip_newline {p : List UInt8} (h : Trimmed p) : strip (p ++ [10]) = p := by
  rw [strip_newline_any]
  have hstrip : strip ([] ++ p ++ []) = p := strip_append blank_nil blank_nil h
  rwa [List.nil_append, List.append_nil] at hstrip

/-! ## What is pushed -/

/-- A line that is whitespace, or the empty line at the end, stops the handler. -/
lemma pushes_blank {stream : List UInt8} (h : strip (readline stream).1 = []) :
    pushes stream = [] := by
  have hhandle : handle stream = (none, (readline stream).2) := by
    unfold handle
    dsimp only
    rw [h]
    rfl
  rw [pushes]
  split
  · rfl
  · rename_i data rest hsome
    rw [hhandle] at hsome
    exact absurd hsome (by simp)

/-- Any other line is pushed. -/
lemma pushes_line {stream : List UInt8} (h : strip (readline stream).1 ≠ []) :
    pushes stream = strip (readline stream).1 :: pushes (readline stream).2 := by
  have hhandle : handle stream = (some (strip (readline stream).1), (readline stream).2) := by
    unfold handle
    dsimp only
    rw [if_neg (by simpa using h)]
  rw [pushes]
  split
  · rename_i hnone
    rw [hhandle] at hnone
    exact absurd hnone (by simp)
  · rename_i data rest hsome
    rw [hhandle, Prod.mk.injEq, Option.some.injEq] at hsome
    rw [← hsome.1, ← hsome.2]

/-- The first line of a stream, and what is behind its newline. -/
lemma exists_line (stream : List UInt8) :
    (∀ b ∈ stream, b ≠ 10) ∨ ∃ line rest, (∀ b ∈ line, b ≠ 10) ∧ stream = line ++ 10 :: rest := by
  by_cases hmem : 10 ∈ stream
  · rcases List.eq_append_cons_of_mem hmem with ⟨line, rest, hsplit, hline⟩
    exact Or.inr ⟨line, rest, fun b hb heq => hline (heq ▸ hb), hsplit⟩
  · exact Or.inl fun b hb heq => hmem (heq ▸ hb)

/-! ## Whole frames -/

/-- The line is `n` bytes, the outermost of them no whitespace, with whitespace around. -/
def Spans (n : ℕ) (line : List UInt8) : Prop :=
  ∃ front frame back, line = front ++ frame ++ back ∧ Blank front ∧ Blank back ∧
    Trimmed frame ∧ frame.length = n

/-- Up to the first line that is whitespace, every line spans `n` bytes. -/
def WholeLines (n : ℕ) (lines : List (List UInt8)) : Prop :=
  ∀ before line after, lines = before ++ line :: after → (∀ l ∈ before, ¬ Blank l) →
    Blank line ∨ Spans n line

lemma spans_iff {n : ℕ} {line : List UInt8} : Spans n line ↔ (strip line).length = n := by
  constructor
  · rintro ⟨front, frame, back, rfl, hfront, hback, hframe, hlength⟩
    rwa [strip_append hfront hback hframe]
  · intro hlength
    rcases exists_strip line with ⟨front, back, hfront, hback, htrimmed, hline⟩
    exact ⟨front, strip line, back, hline, hfront, hback, htrimmed, hlength⟩

/-- The first line, and the others unless it is whitespace. -/
lemma wholeLines_cons {n : ℕ} {line : List UInt8} {lines : List (List UInt8)} :
    WholeLines n (line :: lines) ↔ Blank line ∨ Spans n line ∧ WholeLines n lines := by
  constructor
  · intro h
    by_cases hblank : Blank line
    · exact Or.inl hblank
    · refine Or.inr ⟨(h [] line lines rfl (by simp)).resolve_left hblank, ?_⟩
      intro before l after hsplit hbefore
      apply h (line :: before) l after
      · rw [hsplit, List.cons_append]
      · exact List.forall_mem_cons.mpr ⟨hblank, hbefore⟩
  · intro h before l after hsplit hbefore
    cases before with
    | nil =>
      rw [List.nil_append, List.cons.injEq] at hsplit
      rw [← hsplit.1]
      exact h.imp_right And.left
    | cons first before =>
      rw [List.cons_append, List.cons.injEq] at hsplit
      rw [List.forall_mem_cons, ← hsplit.1] at hbefore
      exact (h.resolve_left hbefore.1).2 before l after hsplit.2 hbefore.2

/-- **When only whole frames are pushed.** Every entry of a session has `imgsize` bytes exactly
when every line that the client sends, up to the first one of whitespace, is `imgsize` bytes
with whitespace around. -/
theorem wholeFrames_iff (height width : ℕ) (stream : List UInt8) :
    (∀ data ∈ pushes stream, data.length = imgsize height width) ↔
      WholeLines (imgsize height width) (stream.splitOn 10) := by
  -- on the length of what is left: every line takes its newline at least
  induction hlength : stream.length using Nat.strong_induction_on generalizing stream with
  | _ length ih =>
  rcases exists_line stream with hlast | ⟨line, rest, hline, rfl⟩
  · -- the connection ends within the line
    have hread := readline_last hlast
    have hnil : WholeLines (imgsize height width) [] :=
      fun before line after hsplit => absurd hsplit (by simp)
    rw [List.splitOn_eq_singleton fun hmem => hlast 10 hmem rfl, wholeLines_cons,
      and_iff_left hnil]
    by_cases hblank : Blank stream
    · rw [pushes_blank (by rw [hread]; exact strip_eq_nil_iff.mpr hblank)]
      exact iff_of_true (fun data h => absurd h List.not_mem_nil) (Or.inl hblank)
    · have hnone : pushes [] = [] := pushes_blank rfl
      rw [pushes_line (by rw [hread]; exact fun h => hblank (strip_eq_nil_iff.mp h)), hread, hnone,
        List.forall_mem_singleton, or_iff_right hblank, spans_iff]
  · have hread : readline (line ++ 10 :: rest) = (line ++ [10], rest) := readline_append hline
    rw [List.splitOn_append_cons_self_of_not_mem fun hmem => hline 10 hmem rfl, wholeLines_cons]
    by_cases hblank : Blank line
    · rw [pushes_blank (by rw [hread, strip_newline_any]; exact strip_eq_nil_iff.mpr hblank)]
      exact iff_of_true (fun data h => absurd h List.not_mem_nil) (Or.inl hblank)
    · rw [pushes_line (by
        rw [hread, strip_newline_any]
        exact fun h => hblank (strip_eq_nil_iff.mp h)), hread, strip_newline_any,
        List.forall_mem_cons, or_iff_right hblank, spans_iff]
      apply and_congr_right
      intro _
      apply ih rest.length _ rest rfl
      rw [← hlength, List.length_append, List.length_cons]
      omega

/-- A session of one LED, and a line of one letter. -/
theorem short_line_pushed :
    (Config.mk 25 20 40 40).check_config 1 1 40 = none ∧
      ¬ ∀ data ∈ pushes [65, 10], data.length = imgsize 1 1 := by
  refine ⟨by decide, ?_⟩
  intro hall
  rw [pushes_line (by decide)] at hall
  exact absurd (hall _ List.mem_cons_self) (by decide)

end Syndilights.V2
