import Syndilights.Frameserver.BlendTheorems
import Syndilights.Frameserver.TableTheorems

/-!
# How `mix` layers the sources

A channel with alpha 255 hides what is below it and one with alpha 0 shows it unchanged.
With such layers one can see that `mix` blends the sources in the order of their slots,
whatever their `z`.
-/

namespace Syndilights.Frameserver

namespace Server

/-! ## Layers -/

/-- The composite of the sources in ascending `z`, as the format file has it. -/
def layered (F : Type) [AlphaArith F] (s : Server) : Frame :=
  mixFrame F (s.buffers.mergeSort fun b b' => b.get.z ≤ b'.get.z) s.frame

/-- The frame that `mix` computes next is layered by `z`. -/
def LayersByZ (s : Server) : Prop := (mix Float32 s).frame = layered Float32 s

/-- The sources in the order of their slots, by their `z`. -/
def zOrder (s : Server) : List UInt8 := s.buffers.map fun b => b.get.z

/-- Sources that are in ascending order need no sorting. -/
lemma layersByZ_of_ascending {s : Server} (h : s.zOrder.Pairwise (· ≤ ·)) : LayersByZ s := by
  have hpair : s.buffers.Pairwise fun b b' => decide (b.get.z ≤ b'.get.z) = true := by
    rw [zOrder, List.pairwise_map] at h
    exact h.imp fun hle => decide_eq_true hle
  unfold LayersByZ layered
  rw [List.mergeSort_of_pairwise hpair]
  rfl

/-- A stack of layers that hide everything below (`some`) or nothing (`none`): the last
layer that hides is seen. -/
lemma foldl_hide {f : UInt8 → Option UInt8} {below above : List UInt8} {z v : UInt8}
    (hz : f z = some v) (habove : ∀ z' ∈ above, f z' = none) (old : UInt8) :
    (below ++ z :: above).foldl (fun old z => (f z).getD old) old = v := by
  rw [List.foldl_append, List.foldl_cons, hz, Option.getD_some]
  induction above with
  | nil => rfl
  | cons z' above ih =>
    rw [List.foldl_cons, habove z' List.mem_cons_self, Option.getD_none]
    exact ih fun z'' hz'' => habove z'' (List.mem_cons_of_mem z' hz'')

/-- Two layers that hide, one before the other in a list of distinct ones: the later one
is seen. -/
lemma foldl_hide_later {f : UInt8 → Option UInt8} {zs : List UInt8} {a b v : UInt8}
    (hzs : zs.Nodup) (hab : [a, b].Sublist zs) (hb : f b = some v)
    (hf : ∀ z, z ≠ a → z ≠ b → f z = none) (old : UInt8) :
    zs.foldl (fun old z => (f z).getD old) old = v := by
  rcases List.cons_sublist_iff.mp hab with ⟨below, above, rfl, ha, hb'⟩
  rcases List.append_of_mem (List.singleton_sublist.mp hb') with ⟨between, above, rfl⟩
  rw [← List.append_assoc] at hzs ⊢
  apply foldl_hide hb
  intro z hz
  rw [List.nodup_append] at hzs
  apply hf
  · rintro rfl
    exact hzs.2.2 z (List.mem_append_left _ ha) z (List.mem_cons_of_mem b hz) rfl
  · rintro rfl
    exact (List.nodup_cons.mp hzs.2.1).1 hz

/-- In an ascending list the smaller of two members comes first. -/
lemma sublist_of_ascending {zs : List UInt8} {a b : UInt8} (hzs : zs.Pairwise (· ≤ ·))
    (ha : a ∈ zs) (hb : b ∈ zs) (hlt : b < a) : [b, a].Sublist zs := by
  rcases List.append_of_mem ha with ⟨below, above, rfl⟩
  have hb' : b ∈ below := by
    rcases List.mem_append.mp hb with hb | hb
    · exact hb
    · -- above `a` nothing is smaller
      have hle : a ≤ b := by
        rcases List.mem_cons.mp hb with rfl | hb
        · exact UInt8.le_refl b
        · exact List.rel_of_pairwise_cons (List.pairwise_append.mp hzs).2.1 hb
      exact absurd hlt (UInt8.not_lt.mpr hle)
  exact (List.singleton_sublist.mpr hb').append (List.singleton_sublist.mpr List.mem_cons_self)

/-- The channel `p` is seen as the hiding layers leave it: `mix` blends there what `f`
assigns to the `z` of each source. -/
def HidesAt (p : WindowIdx) (f : UInt8 → Option UInt8) (buffers : List Buffer) : Prop :=
  ∀ b ∈ buffers, ∀ old, blendWindow Float32 b.get p old = (f b.get.z).getD old

/-- The channel of the mixed frame is the last hiding layer's. -/
lemma windows_mixFrame_hides {p : WindowIdx} {f : UInt8 → Option UInt8} {buffers : List Buffer}
    (h : HidesAt p f buffers) (frame : Frame) :
    (mixFrame Float32 buffers frame).windows p
      = (buffers.map fun b => b.get.z).foldl (fun old z => (f z).getD old) 0 := by
  rw [windows_mixFrame, List.foldl_map]
  apply List.foldl_ext
  exact fun old b hb => h b hb old

/-- Two sources in the wrong order, whose layers hide a channel with different values. -/
lemma not_layersByZ {s : Server} {p : WindowIdx} {f : UInt8 → Option UInt8} {a b va vb : UInt8}
    (hnodup : s.zOrder.Nodup) (hhide : HidesAt p f s.buffers) (hab : [a, b].Sublist s.zOrder)
    (hlt : b < a) (ha : f a = some va) (hb : f b = some vb) (hv : va ≠ vb)
    (hf : ∀ z, z ≠ a → z ≠ b → f z = none) : ¬ LayersByZ s := by
  intro hlayers
  have hseen := congrArg (fun frame => frame.windows p) hlayers
  have hsort := List.mergeSort_perm s.buffers fun b b' => decide (b.get.z ≤ b'.get.z)
  have hzs := hsort.map fun b => b.get.z
  -- as registered, `b` is on top
  have hregistered : (mix Float32 s).frame.windows p = vb := by
    show (mixFrame Float32 s.buffers s.frame).windows p = vb
    rw [windows_mixFrame_hides hhide]
    exact foldl_hide_later hnodup hab hb hf 0
  -- in ascending order, `a` is
  have hascending : (layered Float32 s).windows p = va := by
    rw [layered, windows_mixFrame_hides fun b hb => hhide b (hsort.mem_iff.mp hb)]
    refine foldl_hide_later (hzs.nodup_iff.mpr hnodup) ?_ ha (fun z hzb hza => hf z hza hzb) 0
    refine sublist_of_ascending ?_ ?_ ?_ hlt
    · rw [List.pairwise_map]
      have htrans : ∀ a b c : Buffer, decide (a.get.z ≤ b.get.z) → decide (b.get.z ≤ c.get.z) →
          decide (a.get.z ≤ c.get.z) := fun a b c hab hbc => decide_eq_true
        (UInt8.le_trans (of_decide_eq_true hab) (of_decide_eq_true hbc))
      have htotal : ∀ a b : Buffer, decide (a.get.z ≤ b.get.z) || decide (b.get.z ≤ a.get.z) :=
        fun a b => by simpa using UInt8.le_total a.get.z b.get.z
      exact (List.pairwise_mergeSort htrans htotal s.buffers).imp fun hle => of_decide_eq_true hle
    · exact hzs.mem_iff.mpr (hab.subset List.mem_cons_self)
    · exact hzs.mem_iff.mpr (hab.subset (List.mem_cons_of_mem a List.mem_cons_self))
  exact hv (hascending.symm.trans (hseen.symm.trans hregistered))

/-! ## A server with given layers -/

/-- A frame that shows `v` in the channel `p` and hides everything below, or, without a
value, is transparent. -/
def layer (p : WindowIdx) (v : Option UInt8) (z : UInt8) : Frame where
  z := z
  windows q := v.elim 0 fun v => if q = p then v else 255
  segments _ := 0

lemma blendWindow_layer (v : Option UInt8) (z old : UInt8) :
    blendWindow Float32 (layer (0, 0, 0) v z) (0, 0, 0) old = v.getD old := by
  cases v with
  | none => exact blend_transparent old 0
  | some v => exact blend_opaque old v

/-- Sources with these `z` and frames, one endpoint each. -/
def stackEntries (zs : List UInt8) (frame : UInt8 → Frame) : List (Endpoint × Frame × ℤ) :=
  zs.map fun z => (⟨firstSource.address, 50000 + z.toUInt16⟩, frame z, 0)

/-- Distinct bytes are at most 256. -/
lemma length_le_of_nodup {zs : List UInt8} (h : zs.Nodup) : zs.length ≤ 256 := by
  have hfin : (zs.map UInt8.toFin).Nodup :=
    h.map fun a b hab => UInt8.toFin_inj.mp hab
  have hcard := hfin.length_le_card
  rwa [List.length_map, Fintype.card_fin] at hcard

/-- A server at which they registered in this order. -/
def stackTable (zs : List UInt8) (h : zs.Nodup) (frame : UInt8 → Frame) : SourceTable where
  entries := stackEntries zs frame
  nodup := by
    rw [stackEntries, List.map_map]
    refine h.map fun a b hab => ?_
    have hport := congrArg Endpoint.port hab
    exact UInt8.toUInt16_inj.mp ((UInt16.add_right_inj _).mp hport)
  size_le := by
    rw [stackEntries, List.length_map]
    exact (length_le_of_nodup h).trans (by decide)

/-- **Exactly when the layering follows `z`.** For sources with distinct `z`, whatever they
show, the mixed frame is the composite in ascending `z` if and only if their slots happen
to be in ascending order. -/
theorem layersByZ_iff_ascending (zs : List UInt8) (hzs : zs.Nodup) :
    (∀ s, Aligned s → s.zOrder = zs → LayersByZ s) ↔ zs.Pairwise (· ≤ ·) := by
  constructor
  · intro hall
    by_contra hdesc
    rw [List.pairwise_iff_forall_sublist] at hdesc
    push Not at hdesc
    rcases hdesc with ⟨a, b, hab, hle⟩
    have hlt : b < a := UInt8.not_le.mp hle
    -- `a` and `b` hide with different values, the others are transparent
    let f : UInt8 → Option UInt8 := fun z => if z = a then some 1 else if z = b then some 2 else none
    let s : Server := (init default).withEntries (stackEntries zs fun z => layer (0, 0, 0) (f z) z)
    have href : Refines s (stackTable zs hzs fun z => layer (0, 0, 0) (f z) z) := rfl
    have horder : s.zOrder = zs := by
      show (((stackEntries zs fun z => layer (0, 0, 0) (f z) z).map _).map fun b : Buffer => b.get.z) = zs
      rw [stackEntries, List.map_map, List.map_map]
      exact List.map_id zs
    have hne : b ≠ a := UInt8.ne_of_lt hlt
    have hhide : HidesAt (0, 0, 0) f s.buffers := by
      intro buffer hb old
      rcases List.mem_map.mp hb with ⟨e, he, rfl⟩
      rcases List.mem_map.mp he with ⟨z, -, rfl⟩
      exact blendWindow_layer (f z) z old
    have ha : f a = some 1 := if_pos rfl
    have hb : f b = some 2 := (if_neg hne).trans (if_pos rfl)
    have hothers : ∀ z, z ≠ a → z ≠ b → f z = none :=
      fun z hza hzb => (if_neg hza).trans (if_neg hzb)
    exact not_layersByZ (horder ▸ hzs) hhide (horder ▸ hab) hlt ha hb (by decide) hothers
      (hall s href.aligned horder)
  · intro hasc s _ horder
    exact layersByZ_of_ascending (horder ▸ hasc)

/-- Two sources, the lower one first, and the other way round. -/
theorem layersByZ_iff_one_two :
    (∀ s, Aligned s → s.zOrder = [1, 2] → LayersByZ s) ∧
      ¬ ∀ s, Aligned s → s.zOrder = [2, 1] → LayersByZ s :=
  ⟨(layersByZ_iff_ascending [1, 2] (by decide)).mpr (by decide),
    (layersByZ_iff_ascending [2, 1] (by decide)).not.mpr (by decide)⟩

lemma blendWindow_opaquePacket (z v old : UInt8) :
    blendWindow Float32 (packetFrame (packet (opaquePacket z v))) (0, 0, 0) old = v :=
  blend_opaque old v

/-- A source with `z = 2` registers, then one with `z = 1`: the lower one hides it. -/
theorem later_source_hides :
    let s := (init default).runs
      [.datagram default firstSource (opaquePacket 2 1) 0,
        .datagram default secondSource (opaquePacket 1 2) 0]
    Aligned s ∧ s.zOrder.Nodup ∧ ¬ LayersByZ s := by
  intro s
  have href := runs_refines (refines_init default)
    [.datagram default firstSource (opaquePacket 2 1) 0,
      .datagram default secondSource (opaquePacket 1 2) 0]
  have hbuffers : s.buffers =
      [⟨firstSource.toStr, packetFrame (packet (opaquePacket 2 1))⟩,
        ⟨secondSource.toStr, packetFrame (packet (opaquePacket 1 2))⟩] := by
    rw [href.buffers_eq]
    simp only [List.filterMap_cons, opOf, if_pos (accepted_opaquePacket _ _), List.filterMap_nil]
    rfl
  have horder : s.zOrder = [2, 1] := by
    rw [zOrder, hbuffers]
    rfl
  have hnodup : s.zOrder.Nodup := by
    rw [horder]
    decide
  refine ⟨href.aligned, hnodup, ?_⟩
  -- at this place each source hides what is below it, whichever that is
  let f : UInt8 → Option UInt8 := fun z => if z = 2 then some 1 else if z = 1 then some 2 else none
  have hhide : HidesAt (0, 0, 0) f s.buffers := by
    intro b hb old
    rw [hbuffers] at hb
    rcases List.mem_pair.mp hb with rfl | rfl
    · exact blendWindow_opaquePacket 2 1 old
    · exact blendWindow_opaquePacket 1 2 old
  have hslots : [2, 1].Sublist s.zOrder := by rw [horder]
  have hothers : ∀ z, z ≠ 2 → z ≠ 1 → f z = none :=
    fun z h2 h1 => (if_neg h2).trans (if_neg h1)
  exact not_layersByZ hnodup hhide hslots (by decide) rfl rfl (by decide) hothers

end Server

end Syndilights.Frameserver
