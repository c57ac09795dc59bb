import Syndilights.Displayclient.ArdupixelTheorems
import Syndilights.V2.SerpentineTheorems

/-!
# The chain of LEDs

`indirect` numbers the pixels of the panel along a zigzag: down the first column, up the next
one, and so on, as the README of the display says.
-/

namespace Syndilights.Displayclient.Ardupixel

open V2 (Adjacent IsPath)

/-! ## The zigzag -/

section
variable (p : Panel)

/-- The odd columns go up. -/
def up (col : ℕ) : Bool := col % 2 = 1

/-- The pixels in the order of the chain, by column and row. -/
def chain : List (ℕ × ℕ) := Serpentine.path Prod.mk p.ROWS up p.COLS

lemma length_chain : (chain p).length = p.NUMPIXELS := by
  rw [chain, Serpentine.length_path, Panel.NUMPIXELS, Nat.mul_comm]

lemma up_succ (col : ℕ) : up (col + 1) = !up col := by
  unfold up
  rcases Nat.mod_two_eq_zero_or_one col with h | h
  · have hnext : (col + 1) % 2 = 1 := by omega
    rw [h, hnext]
    rfl
  · have hnext : (col + 1) % 2 = 0 := by omega
    rw [h, hnext]
    rfl

/-- The chain visits every pixel once and never jumps. -/
lemma isPath_chain : IsPath p.COLS p.ROWS (chain p) where
  adjacent := by
    apply Serpentine.isChain_path (fun _ _ => Adjacent.symm) up_succ
    · exact fun x _ y _ => Or.inr ⟨rfl, Or.inl rfl⟩
    · exact fun x _ y _ => Or.inl ⟨rfl, Or.inl rfl⟩
  nodup := by
    apply Serpentine.nodup_path
    exact fun x _ y _ x' _ y' _ heq => Prod.mk.inj heq
  visits q := by
    rw [chain, Serpentine.mem_path]
    constructor
    · rintro ⟨x, hx, y, hy, rfl⟩
      exact ⟨hx, hy⟩
    · exact fun hq => ⟨q.1, hq.1, q.2, hq.2, rfl⟩

/-- The position of a pixel is its place in the chain. -/
lemma getElem?_chain {x y : ℕ} (hx : x < p.COLS) (hy : y < p.ROWS) :
    (chain p)[p.position x y]? = some (x, y) := by
  have hget : (chain p)[x * p.ROWS + if up x then p.ROWS - 1 - y else y]? = some (x, y) :=
    Serpentine.getElem?_path hx hy
  simp only [up, decide_eq_true_eq] at hget
  exact hget

end

/-! ## The map of the sketch -/

section
variable {p : Panel}

/-- The coordinates of the panel, as `indirect` takes them. -/
def Panel.pixels (p : Panel) : Set (UInt16 × UInt16) :=
  {q | q.1.toNat < p.COLS ∧ q.2.toNat < p.ROWS}

/-- The number of the LED that `indirect` gives to a pixel. -/
def led (p : Panel) (q : UInt16 × UInt16) : ℕ := (indirect p q.1 q.2).toNat

lemma led_eq {q : UInt16 × UInt16} (hq : q ∈ p.pixels) :
    led p q = p.position q.1.toNat q.2.toNat := by
  have hled := indirect_of_lt hq.1 hq.2
  rwa [Nat.toUInt16_eq, Nat.toUInt16_eq, UInt16.ofNat_toNat, UInt16.ofNat_toNat] at hled

/-- The chain has the pixel at the number of its LED. -/
lemma getElem?_led {q : UInt16 × UInt16} (hq : q ∈ p.pixels) :
    (chain p)[led p q]? = some (q.1.toNat, q.2.toNat) := by
  rw [led_eq hq]
  exact getElem?_chain p hq.1 hq.2

/-- Every number of an LED belongs to a pixel. -/
lemma exists_pixel (hrows : 1 ≤ p.ROWS) (hcols : 1 ≤ p.COLS) {n : ℕ} (hn : n < p.NUMPIXELS) :
    ∃ q ∈ p.pixels, led p q = n := by
  have hlength : n < (chain p).length := by rwa [length_chain]
  have hvisits := ((isPath_chain p).visits _).mp (List.getElem_mem hlength)
  have hnum := p.numpixels_lt
  have hrows' : p.ROWS * 1 ≤ p.ROWS * p.COLS := Nat.mul_le_mul_left _ hcols
  have hcols' : 1 * p.COLS ≤ p.ROWS * p.COLS := Nat.mul_le_mul_right _ hrows
  have hx := toNat_toUInt16 (n := (chain p)[n].1) (by omega)
  have hy := toNat_toUInt16 (n := (chain p)[n].2) (by omega)
  have hq : ((chain p)[n].1.toUInt16, (chain p)[n].2.toUInt16) ∈ p.pixels := by
    refine ⟨?_, ?_⟩
    · rw [hx]
      exact hvisits.1
    · rw [hy]
      exact hvisits.2
  refine ⟨_, hq, ?_⟩
  have hled := getElem?_led hq
  rw [hx, hy, List.getElem?_eq_some_iff] at hled
  rcases hled with ⟨hlt, hsame⟩
  exact (isPath_chain p).nodup.getElem_inj_iff.mp hsame

/-- **The chain map is a continuous zigzag.** In 16-bit arithmetic `indirect` gives every pixel
of the panel one of the LEDs and every LED one pixel, and LEDs that follow each other belong to
pixels next to each other. -/
theorem indirect_zigzag (p : Panel) (hrows : 1 ≤ p.ROWS) (hcols : 1 ≤ p.COLS) :
    Set.BijOn (fun q : UInt16 × UInt16 => (indirect p q.1 q.2).toNat)
      {q | q.1.toNat < p.COLS ∧ q.2.toNat < p.ROWS} (Set.Iio (p.ROWS * p.COLS)) ∧
    ∀ col row col' row' : UInt16, col.toNat < p.COLS → row.toNat < p.ROWS →
      col'.toNat < p.COLS → row'.toNat < p.ROWS →
      (indirect p col' row').toNat = (indirect p col row).toNat + 1 →
      Adjacent (col.toNat, row.toNat) (col'.toNat, row'.toNat) := by
  refine ⟨⟨?_, ?_, ?_⟩, ?_⟩
  · intro q hq
    show led p q < p.NUMPIXELS
    rw [led_eq hq]
    exact position_lt hq.1 hq.2
  · intro q hq q' hq' heq
    have hsame : led p q = led p q' := heq
    rw [led_eq hq, led_eq hq'] at hsame
    rcases position_injective hq.2 hq'.2 hsame with ⟨hcol, hrow⟩
    exact Prod.ext (UInt16.toNat_inj.mp hcol) (UInt16.toNat_inj.mp hrow)
  · exact fun n hn => exists_pixel hrows hcols hn
  · intro col row col' row' hcol hrow hcol' hrow' hnext
    -- LEDs that follow each other are neighbours in the chain
    have hplace := getElem?_led (p := p) (q := (col, row)) ⟨hcol, hrow⟩
    have hplace' := getElem?_led (p := p) (q := (col', row')) ⟨hcol', hrow'⟩
    rw [show led p (col', row') = led p (col, row) + 1 from hnext] at hplace'
    rcases List.getElem?_eq_some_iff.mp hplace with ⟨hlt, hget⟩
    rcases List.getElem?_eq_some_iff.mp hplace' with ⟨hlt', hget'⟩
    have hchain := List.isChain_iff_getElem.mp (isPath_chain p).adjacent _ hlt'
    rwa [hget, hget'] at hchain

/-- The panel of the sketch: 25 rows and 20 columns. -/
theorem indirect_zigzag_sketch :
    Set.BijOn (fun q : UInt16 × UInt16 => (indirect sketch q.1 q.2).toNat)
      {q | q.1.toNat < sketch.COLS ∧ q.2.toNat < sketch.ROWS}
      (Set.Iio (sketch.ROWS * sketch.COLS)) :=
  (indirect_zigzag sketch (by decide) (by decide)).1

end

end Syndilights.Displayclient.Ardupixel
