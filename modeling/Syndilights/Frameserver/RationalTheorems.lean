import Syndilights.Frameserver.PlaceTheorems
import Syndilights.RoundedFold

/-!
# The blend in exact arithmetic

With rational alphas, no value that `mix` computes leaves 0..255, so its clamp never acts;
the only error is that the conversion to `int` rounds down, once for each buffer.
-/

namespace Syndilights.Frameserver

open AlphaArith RoundedFold

/-! ## One blend -/

/-- A value over another one, with the share `alpha/255`. -/
def blendExact (alpha new : UInt8) (old : ℚ) : ℚ :=
  (1 - alpha.toNat / 255) * old + alpha.toNat / 255 * new.toNat

/-- `temp_alpha` is the share. -/
lemma tempAlpha_eq (alpha : UInt8) : tempAlpha ℚ alpha = alpha.toNat / 255 := rfl

/-- The expression before it is converted to `int`. -/
lemma blendExact_eq (alpha new : UInt8) (old : ℚ) :
    blendExact alpha new old = (1 - tempAlpha ℚ alpha) * old + tempAlpha ℚ alpha * ofByte new := by
  rw [blendExact, tempAlpha_eq]
  rfl

/-- A byte is a number from 0 to 255. -/
lemma ofByte_mem (b : UInt8) : (ofByte b : ℚ) ∈ Set.Icc 0 255 := by
  have hb : b.toNat ≤ 255 := by
    have hlt := b.toNat_lt
    omega
  exact ⟨Nat.cast_nonneg b.toNat, show (b.toNat : ℚ) ≤ 255 by exact_mod_cast hb⟩

/-- A share is between 0 and 1. -/
lemma tempAlpha_mem (alpha : UInt8) : tempAlpha ℚ alpha ∈ Set.Icc 0 1 := by
  have hmem := ofByte_mem alpha
  have hmax : (ofByte 255 : ℚ) = 255 := rfl
  rw [tempAlpha, hmax]
  constructor
  · exact div_nonneg hmem.1 (by norm_num)
  · exact (div_le_one (by norm_num)).mpr hmem.2

lemma contracts_blendExact (alpha new : UInt8) : Contracts (blendExact alpha new) :=
  contracts_towards (tempAlpha_mem alpha).1 (tempAlpha_mem alpha).2 _

lemma blendExact_mem (alpha new old : UInt8) : blendExact alpha new (ofByte old) ∈ Set.Icc 0 255 :=
  towards_mem (tempAlpha_mem alpha).1 (tempAlpha_mem alpha).2 (ofByte_mem old) (ofByte_mem new)

/-- Converting a number that is not negative to `int` rounds it down. -/
lemma toInt_eq_floor {x : ℚ} (hx : 0 ≤ x) : toInt x = ⌊x⌋ := by
  show x.num.tdiv x.den = ⌊x⌋
  rw [Int.tdiv_eq_ediv_of_nonneg (Rat.num_nonneg.mpr hx), Rat.floor_def']

/-- `pixel` is the expression, rounded down. -/
lemma pixel_eq_floor (alpha old new : UInt8) :
    pixel (tempAlpha ℚ alpha) old new = ⌊blendExact alpha new (ofByte old)⌋ := by
  have hnonneg := (blendExact_mem alpha new old).1
  rw [blendExact_eq] at hnonneg ⊢
  exact toInt_eq_floor hnonneg

/-- What one blend computes on the way to the byte it stores. -/
structure StaysInRange (alpha old new : UInt8) : Prop where
  temp_alpha : tempAlpha ℚ alpha ∈ Set.Icc 0 1
  below : (1 - tempAlpha ℚ alpha) * ofByte old ∈ Set.Icc 0 255
  above : tempAlpha ℚ alpha * ofByte new ∈ Set.Icc 0 255
  sum : (1 - tempAlpha ℚ alpha) * ofByte old + tempAlpha ℚ alpha * ofByte new ∈ Set.Icc 0 255
  pixel : pixel (tempAlpha ℚ alpha) old new ∈ Set.Icc 0 255
  stored : ((blend ℚ alpha old new).toNat : ℤ) = Frameserver.pixel (tempAlpha ℚ alpha) old new

/-- A share of a byte. -/
lemma share_mem {α : ℚ} (hα : α ∈ Set.Icc 0 1) (b : UInt8) : α * ofByte b ∈ Set.Icc 0 255 := by
  have hb := ofByte_mem b
  have hle := mul_le_mul hα.2 hb.2 hb.1 zero_le_one
  rw [one_mul] at hle
  exact ⟨mul_nonneg hα.1 hb.1, hle⟩

/-- The clamp stores a value from 0 to 255 as it is. -/
lemma toNat_clamp {n : ℤ} (h : n ∈ Set.Icc 0 255) : ((clamp n).toNat : ℤ) = n := by
  have h0 := h.1
  have h1 := h.2
  unfold clamp
  split_ifs with htop hbottom
  · show (255 : ℤ) = n
    omega
  · show (0 : ℤ) = n
    omega
  · rw [Nat.toUInt8_eq, UInt8.toNat_ofNat']
    omega

lemma pixel_mem (alpha old new : UInt8) :
    pixel (tempAlpha ℚ alpha) old new ∈ Set.Icc 0 255 := by
  have hmem := blendExact_mem alpha new old
  rw [pixel_eq_floor]
  constructor
  · exact Int.floor_nonneg.mpr hmem.1
  · exact Int.floor_le_iff.mpr (by push_cast; linarith only [hmem.2])

/-- **The clamp never acts.** -/
lemma staysInRange (alpha old new : UInt8) : StaysInRange alpha old new where
  temp_alpha := tempAlpha_mem alpha
  below := by
    have hα := tempAlpha_mem alpha
    exact share_mem ⟨sub_nonneg.mpr hα.2, by linarith only [hα.1]⟩ old
  above := share_mem (tempAlpha_mem alpha) new
  sum := by
    rw [← blendExact_eq]
    exact blendExact_mem alpha new old
  pixel := pixel_mem alpha old new
  stored := toNat_clamp (pixel_mem alpha old new)

/-! ## All blends of a channel -/

namespace Server

/-- The channel `k` of the untruncated composite of the buffers at a place. -/
def composite (buffers : List Buffer) (p : Place) (k : Fin CHANNELS) : ℚ :=
  buffers.foldl (fun old b => blendExact (b.get.alpha p) (b.get.cell p k) old) 0

variable (buffers : List Buffer) (p : Place) (k : Fin CHANNELS)

/-- The steps of the composite. -/
def compositeSteps : List (ℚ → ℚ) :=
  buffers.map fun b => blendExact (b.get.alpha p) (b.get.cell p k)

lemma composite_eq_exact : composite buffers p k = exact (compositeSteps buffers p k) 0 := by
  rw [composite, exact, compositeSteps, List.foldl_map]

/-- The mixed channel is the composite, rounded down after every buffer. -/
lemma channel_eq_rounded (frame : Frame) :
    (((mixFrame ℚ buffers frame).cell p k).toNat : ℤ) = rounded (compositeSteps buffers p k) 0 := by
  rw [channel_mixFrame, compositeSteps]
  induction buffers using List.reverseRecOn with
  | nil => rfl
  | append_singleton buffers b ih =>
    rw [List.foldl_append, List.map_append, List.map_singleton, rounded_concat, ← ih,
      List.foldl_cons, List.foldl_nil, (staysInRange ..).stored, pixel_eq_floor]
    rfl

lemma contracts_compositeSteps : ∀ g ∈ compositeSteps buffers p k, Contracts g := by
  intro g hg
  rcases List.mem_map.mp hg with ⟨b, -, rfl⟩
  exact contracts_blendExact _ _

/-- **The blend is accurate.** Whatever the buffers show, each of them is blended in at every
place and channel without leaving 0..255; the mixed channel is at most the untruncated
composite, and less than one for each buffer below it. -/
theorem mix_is_accurate (buffers : List Buffer) (frame : Frame) (p : Place) (k : Fin CHANNELS) :
    (∀ below b above, buffers = below ++ b :: above →
      StaysInRange (b.get.alpha p) ((mixFrame ℚ below frame).cell p k) (b.get.cell p k) ∧
      (mixFrame ℚ (below ++ [b]) frame).cell p k
        = blend ℚ (b.get.alpha p) ((mixFrame ℚ below frame).cell p k) (b.get.cell p k)) ∧
    (((mixFrame ℚ buffers frame).cell p k).toNat : ℚ) ≤ composite buffers p k ∧
    (1 ≤ buffers.length →
      composite buffers p k < ((mixFrame ℚ buffers frame).cell p k).toNat + buffers.length) := by
  have hcontracts := contracts_compositeSteps buffers p k
  have hchannel : (((mixFrame ℚ buffers frame).cell p k).toNat : ℚ)
      = (rounded (compositeSteps buffers p k) 0 : ℤ) := by
    exact_mod_cast channel_eq_rounded buffers p k frame
  rw [hchannel, composite_eq_exact]
  refine ⟨?_, ?_, ?_⟩
  · intro below b above _
    refine ⟨staysInRange .., ?_⟩
    rw [channel_mixFrame, channel_mixFrame, List.foldl_append, List.foldl_cons, List.foldl_nil]
  · exact rounded_le_exact hcontracts (le_of_eq Int.cast_zero)
  · intro hlength
    have hne : compositeSteps buffers p k ≠ [] := by
      intro hnil
      rw [List.map_eq_nil_iff.mp hnil] at hlength
      exact absurd hlength (by decide)
    -- every source costs less than one unit of brightness
    have herror := error_lt_add_length hcontracts (le_of_eq Int.cast_zero) hne
    have hsteps : (compositeSteps buffers p k).length = buffers.length := List.length_map _
    rw [Int.cast_zero, hsteps] at herror
    linarith only [herror]

end Server

end Syndilights.Frameserver
