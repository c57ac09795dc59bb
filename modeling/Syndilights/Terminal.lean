import Mathlib.Tactic

/-!
# A terminal of character cells

Text is printed at a position in the colour that is on, goes on in the next row at the right
margin, and stops at the last cell; a position off the screen prints nothing. The text has no
control characters.
-/

namespace Terminal

/-- A character and its colour pair. -/
structure Cell where
  char : Char
  pair : ℕ
deriving DecidableEq

/-- The size of the screen, the colour pair that is on, and the cells by row and column. -/
structure Screen where
  rows : ℕ
  cols : ℕ
  pair : ℕ
  cells : ℕ × ℕ → Cell

namespace Screen

/-- `attron(COLOR_PAIR(pair))`. -/
def attron (s : Screen) (pair : ℕ) : Screen := { s with pair := pair }

/-- `attroff` of a colour pair. -/
def attroff (s : Screen) : Screen := { s with pair := 0 }

/-- `clear`. -/
def clear (s : Screen) : Screen := { s with cells := fun _ => ⟨' ', 0⟩ }

/-- One character into a cell. -/
def put (s : Screen) (p : ℕ × ℕ) (char : Char) : Screen :=
  { s with cells := Function.update s.cells p ⟨char, s.pair⟩ }

/-- Text from a cell of the screen on. -/
def addstr (s : Screen) (row col : ℕ) : List Char → Screen
  | [] => s
  | char :: text =>
    if col + 1 < s.cols then (s.put (row, col) char).addstr row (col + 1) text
    else if row + 1 < s.rows then (s.put (row, col) char).addstr (row + 1) 0 text
    else s.put (row, col) char

/-- `mvprintw`. -/
def mvprintw (s : Screen) (row col : ℕ) (text : List Char) : Screen :=
  if row < s.rows ∧ col < s.cols then s.addstr row col text else s

/-- The cell is on the screen. -/
abbrev Has (s : Screen) (p : ℕ × ℕ) : Prop := p.1 < s.rows ∧ p.2 < s.cols

section
variable {s : Screen} {row col : ℕ} {text : List Char} {p : ℕ × ℕ}

/-! ## Size and colour -/

lemma addstr_size : (s.addstr row col text).rows = s.rows ∧
    (s.addstr row col text).cols = s.cols ∧ (s.addstr row col text).pair = s.pair := by
  induction text generalizing s row col with
  | nil => exact ⟨rfl, rfl, rfl⟩
  | cons char text ih =>
    rw [addstr]
    split_ifs
    · exact ih
    · exact ih
    · exact ⟨rfl, rfl, rfl⟩

@[simp] lemma rows_mvprintw : (s.mvprintw row col text).rows = s.rows := by
  rw [mvprintw]
  split_ifs
  · exact addstr_size.1
  · rfl

@[simp] lemma cols_mvprintw : (s.mvprintw row col text).cols = s.cols := by
  rw [mvprintw]
  split_ifs
  · exact addstr_size.2.1
  · rfl

@[simp] lemma pair_mvprintw : (s.mvprintw row col text).pair = s.pair := by
  rw [mvprintw]
  split_ifs
  · exact addstr_size.2.2
  · rfl

/-! ## Cells -/

/-- Text that ends in its row. -/
lemma cells_addstr (hfits : col + text.length ≤ s.cols) (row' col' : ℕ) :
    (s.addstr row col text).cells (row', col') =
      if row' = row ∧ col ≤ col' then
        (text[col' - col]?.map fun char => ⟨char, s.pair⟩).getD (s.cells (row', col'))
      else s.cells (row', col') := by
  induction text generalizing s col with
  | nil => simp [addstr]
  | cons char text ih =>
    rw [List.length_cons] at hfits
    have hput : ∀ q, q ≠ (row, col) → (s.put (row, col) char).cells q = s.cells q :=
      fun q hq => Function.update_of_ne hq ..
    have hrest : (s.addstr row col (char :: text)).cells (row', col') =
        ((s.put (row, col) char).addstr row (col + 1) text).cells (row', col') := by
      rw [addstr]
      by_cases hlast : col + 1 < s.cols
      · rw [if_pos hlast]
      · -- the right margin: the text ends here
        have hnil : text = [] := List.eq_nil_of_length_eq_zero (by omega)
        subst hnil
        rw [if_neg hlast]
        split_ifs <;> rfl
    rw [hrest, ih (by show col + 1 + text.length ≤ s.cols; omega)]
    by_cases hrow : row' = row
    · subst hrow
      rcases lt_trichotomy col' col with hlt | rfl | hgt
      · rw [if_neg (by omega), if_neg (by omega), hput _ (by simp; omega)]
      · rw [if_neg (by omega), if_pos ⟨rfl, le_rfl⟩, Nat.sub_self]
        exact Function.update_self ..
      · obtain ⟨k, rfl⟩ := Nat.exists_eq_add_of_lt hgt
        rw [if_pos ⟨rfl, by omega⟩, if_pos ⟨rfl, by omega⟩, hput _ (by simp; omega),
          show col + k + 1 - (col + 1) = k by omega, show col + k + 1 - col = k + 1 by omega]
        rfl
    · rw [if_neg fun h => hrow h.1, if_neg fun h => hrow h.1, hput _ (by simp [hrow])]

/-- One character. -/
lemma cells_mvprintw_char (char : Char) : (s.mvprintw row col [char]).cells p =
    if p = (row, col) ∧ s.Has p then ⟨char, s.pair⟩ else s.cells p := by
  obtain ⟨row', col'⟩ := p
  rw [mvprintw]
  by_cases hon : row < s.rows ∧ col < s.cols
  · rw [if_pos hon, cells_addstr (by show col + 1 ≤ s.cols; omega)]
    by_cases hp : (row', col') = (row, col)
    · obtain ⟨rfl, rfl⟩ := Prod.mk.inj hp
      rw [if_pos ⟨rfl, le_rfl⟩, if_pos ⟨rfl, hon⟩, Nat.sub_self]
      rfl
    · have hother : ¬((row', col') = (row, col) ∧ s.Has (row', col')) := fun h => hp h.1
      rw [if_neg hother]
      by_cases hbehind : row' = row ∧ col ≤ col'
      · obtain ⟨rfl, hle⟩ := hbehind
        have hlt : col < col' := lt_of_le_of_ne hle fun h => hp (by rw [h])
        rw [if_pos ⟨rfl, hle⟩, List.getElem?_eq_none (by simp; omega)]
        rfl
      · rw [if_neg hbehind]
  · rw [if_neg hon, if_neg]
    rintro ⟨hp, hhas⟩
    obtain ⟨rfl, rfl⟩ := Prod.mk.inj hp
    exact hon hhas

/-- Text that ends in its row, on the screen. -/
lemma cells_mvprintw (hrow : row < s.rows) (hfits : col + text.length ≤ s.cols)
    (row' col' : ℕ) : (s.mvprintw row col text).cells (row', col') =
      if row' = row ∧ col ≤ col' then
        (text[col' - col]?.map fun char => ⟨char, s.pair⟩).getD (s.cells (row', col'))
      else s.cells (row', col') := by
  rw [mvprintw]
  by_cases hcol : col < s.cols
  · rw [if_pos ⟨hrow, hcol⟩, cells_addstr hfits]
  · have hnil : text = [] := List.eq_nil_of_length_eq_zero (by omega)
    rw [if_neg fun h => hcol h.2, hnil]
    simp

end

end Screen

end Terminal
