import Syndilights.ForLoop
import Syndilights.CellularAutomaton

/-!
# Life on the building

`biglife.ino`: one pass over the field, from the copy of the field to the last cell. `life.ino`
does the same and does not count the births.
-/

namespace Syndilights.PoC.Biglife

/-! ## Indexes -/

/-- `e%n` as an index of an array of `n`. -/
def index (n : ℕ) [NeZero n] (e : ℤ) (h : 0 ≤ e) : Fin n :=
  ⟨(e.tmod n).toNat, by
    have hpos := Nat.pos_of_neZero n
    have hnonneg := Int.tmod_nonneg (n : ℤ) h
    have hlt := Int.tmod_lt_of_pos e (Int.natCast_pos.mpr hpos)
    omega⟩

section
variable {n : ℕ} [NeZero n]

/-- `(x-1+n)%n`. -/
def before (x : Fin n) : Fin n := index n (x.val - 1 + n) (by omega)

/-- `(x+1+n)%n`. -/
def after (x : Fin n) : Fin n := index n (x.val + 1 + n) (by omega)

end

/-! ## The pass -/

/-- `int lifearray[MAXX][MAXY]`. -/
abbrev Grid (MAXX MAXY : ℕ) := Fin MAXX × Fin MAXY → ℤ

section
variable {MAXX MAXY : ℕ}

/-- The copy of the field, in a buffer that holds anything before. -/
def copy (lifearray lifebuf : Grid MAXX MAXY) : Grid MAXX MAXY :=
  ForLoop.run₂ MAXY MAXX
    (fun j i lifebuf => Function.update lifebuf (i, j) (lifearray (i, j))) lifebuf

variable [NeZero MAXX] [NeZero MAXY]

/-- `count`. -/
def count (lifebuf : Grid MAXX MAXY) (x : Fin MAXX) (y : Fin MAXY) : ℤ :=
  lifebuf (before x, before y) +
  lifebuf (x, before y) +
  lifebuf (after x, before y) +
  lifebuf (before x, y) +
  lifebuf (after x, y) +
  lifebuf (before x, after y) +
  lifebuf (x, after y) +
  lifebuf (after x, after y)

/-- The field, and `birth`. -/
structure Field (MAXX MAXY : ℕ) where
  lifearray : Grid MAXX MAXY
  birth : ℤ

/-- One cell of the field. -/
def cell (lifebuf : Grid MAXX MAXY) (x : Fin MAXX) (y : Fin MAXY) (s : Field MAXX MAXY) :
    Field MAXX MAXY :=
  let count := count lifebuf x y
  if count = 3 then
    -- birth with 3
    ⟨Function.update s.lifearray (x, y) 1,
      if lifebuf (x, y) = 0 then s.birth + 1 else s.birth⟩
  else if count ≠ 2 then
    -- stay same with 2, die with anything else
    { s with lifearray := Function.update s.lifearray (x, y) 0 }
  else s

/-- One pass; `lifebuf` is a local variable that nothing initialises. -/
def generation (lifearray lifebuf : Grid MAXX MAXY) : Field MAXX MAXY :=
  let lifebuf := copy lifearray lifebuf
  ForLoop.run₂ MAXY MAXX (fun y x => cell lifebuf x y) ⟨lifearray, 0⟩

/-- The field after some passes; `lifebuf k` is what the buffer of pass `k` holds in the
beginning. -/
def generations (lifebuf : ℕ → Grid MAXX MAXY) (lifearray : Grid MAXX MAXY) : ℕ → Grid MAXX MAXY
  | 0 => lifearray
  | k + 1 => (generation (generations lifebuf lifearray k) (lifebuf k)).lifearray

end

end Syndilights.PoC.Biglife
