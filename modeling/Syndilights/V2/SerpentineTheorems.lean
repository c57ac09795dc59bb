import Syndilights.V2.DataGeneratorTheorems

/-!
# Serpentine wiring

With `long_line` every second line is reversed. For every orientation whose formula is right,
the LEDs then follow a path through the grid that never jumps.
-/

namespace Syndilights.V2

/-! ## Paths through the grid -/

/-- Two pixels, by column and row, next to each other in a row or in a column. -/
def Adjacent (p q : ℕ × ℕ) : Prop :=
  (p.2 = q.2 ∧ (p.1 + 1 = q.1 ∨ q.1 + 1 = p.1)) ∨ (p.1 = q.1 ∧ (p.2 + 1 = q.2 ∨ q.2 + 1 = p.2))

lemma Adjacent.symm {p q : ℕ × ℕ} (h : Adjacent p q) : Adjacent q p :=
  h.imp (fun h => ⟨h.1.symm, h.2.symm⟩) fun h => ⟨h.1.symm, h.2.symm⟩

/-- A path over the grid that visits every pixel exactly once. -/
structure IsPath (width height : ℕ) (path : List (ℕ × ℕ)) : Prop where
  adjacent : path.IsChain Adjacent
  nodup : path.Nodup
  visits : ∀ p, p ∈ path ↔ p.1 < width ∧ p.2 < height

section
variable {width height type nb k : ℕ}

/-- Neighbours in a line. -/
lemma adjacent_along (ht : type < 8) (hk : k + 1 < lineLength width height type) :
    Adjacent (coordinate width height type nb k) (coordinate width height type nb (k + 1)) := by
  unfold lineLength at hk
  unfold Adjacent coordinate
  interval_cases type <;> simp at hk ⊢ <;> omega

/-- Neighbours across two lines. -/
lemma adjacent_across (ht : type < 8) (hnb : nb + 1 < lineCount width height type) :
    Adjacent (coordinate width height type nb k) (coordinate width height type (nb + 1) k) := by
  unfold lineCount at hnb
  unfold Adjacent coordinate
  interval_cases type <;> simp at hnb ⊢ <;> omega

/-- Every pixel has its position in a line. -/
lemma exists_coordinate (ht : type < 8) {p : ℕ × ℕ} (hp : p.1 < width ∧ p.2 < height) :
    ∃ nb < lineCount width height type, ∃ k < lineLength width height type,
      coordinate width height type nb k = p := by
  rcases p with ⟨x, y⟩
  obtain ⟨hx, hy⟩ : x < width ∧ y < height := hp
  -- counting from the other side, twice
  have hback (n i : ℕ) (h : i < n) : n - 1 - i < n ∧ n - 1 - (n - 1 - i) = i := by omega
  rcases hback width x hx with ⟨hx', hxx⟩
  rcases hback height y hy with ⟨hy', hyy⟩
  unfold lineCount lineLength coordinate
  interval_cases type
  · exact ⟨x, hx, y, hy, rfl⟩
  · exact ⟨y, hy, x, hx, rfl⟩
  · exact ⟨x, hx, _, hy', Prod.ext rfl hyy⟩
  · exact ⟨_, hy', x, hx, Prod.ext rfl hyy⟩
  · exact ⟨_, hx', y, hy, Prod.ext hxx rfl⟩
  · exact ⟨y, hy, _, hx', Prod.ext hxx rfl⟩
  · exact ⟨_, hx', _, hy', Prod.ext hxx hyy⟩
  · exact ⟨_, hy', _, hx', Prod.ext hxx hyy⟩

/-! ## The path of an orientation -/

/-- The pixels in the order of the wire. -/
def wiring (width height type : ℕ) : List (ℕ × ℕ) :=
  Serpentine.path (coordinate width height type) (lineLength width height type)
    (wiredBack true) (lineCount width height type)

/-- The reversed lines alternate with the others. -/
lemma wiredBack_succ (nb : ℕ) : wiredBack true (nb + 1) = !wiredBack true nb := by
  unfold wiredBack
  rcases Nat.mod_two_eq_zero_or_one nb with h | h
  · have hnext : (nb + 1) % 2 = 1 := by omega
    rw [h, hnext]
    rfl
  · have hnext : (nb + 1) % 2 = 0 := by omega
    rw [h, hnext]
    rfl

lemma isPath_wiring (ht : type < 8) : IsPath width height (wiring width height type) where
  adjacent := by
    apply Serpentine.isChain_path (fun p q => Adjacent.symm) wiredBack_succ
    · exact fun nb _ k hk => adjacent_along ht hk
    · exact fun nb hnb k _ => adjacent_across ht hnb
  nodup := by
    apply Serpentine.nodup_path
    intro nb hnb k hk nb' hnb' k' hk' heq
    exact coordinate_injective ht hnb hnb' hk hk' heq
  visits p := by
    rw [wiring, Serpentine.mem_path]
    constructor
    · rintro ⟨nb, hnb, k, hk, rfl⟩
      exact coordinate_lt ht hnb hk
    · exact exists_coordinate ht

/-- The indexes of the path are the order in which `image2data` emits the pixels. -/
lemma order_eq_wiring : order width height type true
    = (wiring width height type).map (pixelIndex width) := by
  rw [order_eq, wiring, Serpentine.map_path]
  rfl

end

/-- **The wiring is continuous.** For every grid and every type but 6, `image2data` with
`long_line` emits the pixels along a path through the grid, each of them once. -/
theorem serpentine_is_path (width height type : ℕ) (ht : type ∈ [0, 1, 2, 3, 4, 5, 7]) :
    ∃ path, IsPath width height path ∧
      ∀ scale (pixels : Image width height) (data : List Int8),
        data.length = width * height * 24 + 1 →
        ∃ emitted, (path.mapM fun p => getitem pixels (pixelIndex width p)) = some emitted ∧
          inline_image pixels type true = some emitted ∧
          image2data scale pixels data type true
            = some ((emitted.flatMap (encode_pixel scale)).map signed ++ [10]) := by
  have hlt : type < 8 := by
    simp only [List.mem_cons, List.not_mem_nil, or_false] at ht
    omega
  have hgood : FormulaHolds width height type := by
    left
    rintro rfl
    exact absurd ht (by decide)
  refine ⟨wiring width height type, isPath_wiring hlt, ?_⟩
  intro scale pixels data hdata
  have himage := inline_image_eq pixels hlt hgood true
  -- the encoder looks the pixels up in the order of the wiring
  have hlookup : ((wiring width height type).mapM fun p => getitem pixels (pixelIndex width p))
      = some ((order width height type true).map (pixelAt pixels)) := by
    rw [order_eq_wiring, List.map_map]
    apply mapM_eq_map
    intro p hp
    exact getitem_of_lt pixels (pixelIndex_lt (((isPath_wiring hlt).visits p).mp hp))
  refine ⟨_, hlookup, himage, ?_⟩
  exact image2data_eq himage (by rw [List.length_map, length_order]) hdata

/-- Three columns and two rows, from the bottom left upwards. -/
theorem serpentine_is_path_three_two :
    ∃ path, IsPath 3 2 path ∧
      ∀ scale (pixels : Image 3 2) (data : List Int8), data.length = 3 * 2 * 24 + 1 →
        ∃ emitted, (path.mapM fun p => getitem pixels (pixelIndex 3 p)) = some emitted ∧
          inline_image pixels 2 true = some emitted ∧
          image2data scale pixels data 2 true
            = some ((emitted.flatMap (encode_pixel scale)).map signed ++ [10]) :=
  serpentine_is_path 3 2 2 (by decide)

end Syndilights.V2
