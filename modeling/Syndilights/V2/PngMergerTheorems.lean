import Syndilights.V2.PngMerger

/-!
# Which batches are merged

`merge` takes the batch out of Redis before it decodes anything. The loop assigns what is saved
only when it composes two images, so a batch of several strings needs two valid ones.
-/

namespace Syndilights.V2.PngMerger

section
variable {alpha_composite : Rgba → Rgba → Rgba} {now : String} {w : World}

/-! ## The batch -/

/-- The strings that `merge` would take. -/
def World.batch (w : World) : List (List UInt8) := (w.redis "new").members

/-- The valid images among them. -/
def World.images (w : World) : List Rgba := w.batch.filterMap frombytes

/-- The left fold of the images, if there are any. -/
def composite (alpha_composite : Rgba → Rgba → Rgba) : List Rgba → Option Rgba
  | [] => none
  | image :: images => some (images.foldl alpha_composite image)

/-- What `merge` leaves of the world before it saves. -/
def World.taken (w : World) (now : String) : World :=
  { w with redis := (w.redis.rename "new" now).delete now }

/-- The renamed set is the one that was renamed. -/
lemma smembers_rename (r : Redis) (key name : String) :
    (r.rename key name).smembers name = r key :=
  Function.update_self ..

/-- A deleted key has no members. -/
lemma delete_self (r : Redis) (key : String) : r.delete key key = .empty := Function.update_self ..

lemma delete_of_ne (r : Redis) {key other : String} (h : other ≠ key) :
    r.delete key other = r other :=
  Function.update_of_ne h ..

/-- The batch is gone, whatever its name was. -/
lemma batch_taken : (w.taken now).batch = [] := by
  have hnew : (w.redis.rename "new" now).delete now "new" = .empty := by
    by_cases hnow : "new" = now
    · rw [← hnow, delete_self]
    · rw [delete_of_ne _ hnow, Redis.rename, Function.update_of_ne hnow, delete_self]
  exact congrArg Strings.members hnew

/-! ## The loop -/

/-- Strings that cannot be decoded leave no trace. -/
lemma foldl_body (strings : List (List UInt8)) (s : Loop) :
    strings.foldl (Loop.body alpha_composite) s =
      (strings.filterMap frombytes).foldl (Loop.append alpha_composite) s := by
  induction strings generalizing s with
  | nil => rfl
  | cons i strings ih =>
    rw [List.foldl_cons, ih, Loop.body]
    cases hdecode : frombytes i with
    | none => rw [List.filterMap_cons_none hdecode]
    | some image => rw [List.filterMap_cons_some hdecode, List.foldl_cons]

/-- Once two images are composed, both variables hold the composite of all so far. -/
lemma foldl_append (images : List Rgba) (image : Rgba) :
    images.foldl (Loop.append alpha_composite) ⟨[image], some image⟩ =
      ⟨[images.foldl alpha_composite image], some (images.foldl alpha_composite image)⟩ := by
  induction images generalizing image with
  | nil => rfl
  | cons next images ih =>
    rw [List.foldl_cons, List.foldl_cons]
    exact ih (alpha_composite image next)

/-- From two images on, the loop assigns their composite. -/
lemma img_alpha_of_two_le (alpha_composite : Rgba → Rgba → Rgba) {images : List Rgba} (h : 2 ≤ images.length) :
    (images.foldl (Loop.append alpha_composite) ⟨[], none⟩).img_alpha =
      composite alpha_composite images := by
  match images, h with
  | first :: second :: images, _ =>
    have hcompose : (first :: second :: images).foldl (Loop.append alpha_composite) ⟨[], none⟩ =
        images.foldl (Loop.append alpha_composite)
          ⟨[alpha_composite first second], some (alpha_composite first second)⟩ := rfl
    rw [hcompose, foldl_append]
    rfl

/-- With fewer images, nothing is assigned. -/
lemma img_alpha_of_lt {images : List Rgba} (h : images.length < 2) :
    (images.foldl (Loop.append alpha_composite) ⟨[], none⟩).img_alpha = none := by
  match images, h with
  | [], _ => rfl
  | [_], _ => rfl

/-! ## The outcomes -/

lemma key_exists_of_batch (h : w.batch ≠ []) : ¬w.redis.key_exists "new" = false := by
  rw [Bool.not_eq_false, Redis.key_exists, Bool.not_eq_true', List.isEmpty_eq_false_iff]
  exact h

/-- What `merge` does when there is a batch. -/
lemma merge_of_batch (h : w.batch ≠ []) :
    merge alpha_composite now w = match w.batch with
      | [string] =>
        match frombytes string with
        | some image => (.ok (), (w.taken now).save now image)
        | none => (.error .ValueError, w.taken now)
      | strings =>
        match (strings.foldl (Loop.body alpha_composite) ⟨[], none⟩).img_alpha with
        | some img_alpha => (.ok (), (w.taken now).save now img_alpha)
        | none => (.error .UnboundLocalError, w.taken now) := by
  unfold merge
  rw [if_neg (key_exists_of_batch h)]
  dsimp only
  rw [smembers_rename]
  rfl

/-- A single string is decoded without the loop. -/
lemma merge_single {string : List UInt8} (h : w.batch = [string]) :
    merge alpha_composite now w = match frombytes string with
      | some image => (.ok (), (w.taken now).save now image)
      | none => (.error .ValueError, w.taken now) := by
  rw [merge_of_batch (by rw [h]; exact List.cons_ne_nil _ _), h]

/-- Several strings go through the loop. -/
lemma merge_several (alpha_composite : Rgba → Rgba → Rgba) (now : String)
    (h : 2 ≤ w.batch.length) :
    merge alpha_composite now w =
      match (w.images.foldl (Loop.append alpha_composite) ⟨[], none⟩).img_alpha with
      | some img_alpha => (.ok (), (w.taken now).save now img_alpha)
      | none => (.error .UnboundLocalError, w.taken now) := by
  rw [merge_of_batch (List.ne_nil_of_length_pos (by omega)), World.images, ← foldl_body]
  match w.batch, h with
  | _ :: _ :: _, _ => rfl

/-! ## Merged batches -/

/-- `merge` finishes and saves one image, the composite of all that are in the batch. -/
structure Merged (alpha_composite : Rgba → Rgba → Rgba) (now : String) (w : World) : Prop where
  finishes : (merge alpha_composite now w).1 = .ok ()
  saves : ∃ image, composite alpha_composite w.images = some image ∧
    (merge alpha_composite now w).2.saved = w.saved ++ [(now ++ ".png", image)]

/-- What was saved when `merge` ends with the image. -/
lemma merged_of_eq {image : Rgba} (himage : composite alpha_composite w.images = some image)
    (hmerge : merge alpha_composite now w = (.ok (), (w.taken now).save now image)) :
    Merged alpha_composite now w where
  finishes := by rw [hmerge]
  saves := ⟨image, himage, by rw [hmerge]; rfl⟩

/-- A single string that is valid is saved as it is. -/
lemma merged_single (hlength : w.batch.length = 1) (hvalid : w.images ≠ []) :
    Merged alpha_composite now w := by
  rcases List.length_eq_one_iff.mp hlength with ⟨string, hbatch⟩
  rw [World.images, hbatch] at hvalid
  cases hdecode : frombytes string with
  | none =>
    rw [List.filterMap_cons_none hdecode] at hvalid
    exact absurd rfl hvalid
  | some image =>
    have himages : w.images = [image] := by
      rw [World.images, hbatch, List.filterMap_cons_some hdecode]
      rfl
    have hcomposite : composite alpha_composite w.images = some image := by
      rw [himages]
      rfl
    refine merged_of_eq hcomposite ?_
    rw [merge_single hbatch, hdecode]

/-- Two valid images are enough. -/
lemma merged_several (h : 2 ≤ w.images.length) : Merged alpha_composite now w := by
  have hbatch : w.images.length ≤ w.batch.length := List.length_filterMap_le frombytes w.batch
  have hcomposite := img_alpha_of_two_le alpha_composite h
  have hmerge := merge_several alpha_composite now (h.trans hbatch)
  cases himages : w.images with
  | nil =>
    rw [himages] at h
    exact absurd h (by decide)
  | cons first images =>
    rw [hcomposite, himages] at hmerge
    exact merged_of_eq (by rw [himages]; rfl) hmerge

/-- Among several strings, fewer than two valid ones are lost. -/
lemma merge_lost (alpha_composite : Rgba → Rgba → Rgba) (now : String)
    (hbatch : 2 ≤ w.batch.length) (h : w.images.length < 2) :
    merge alpha_composite now w = (.error .UnboundLocalError, w.taken now) := by
  rw [merge_several alpha_composite now hbatch, img_alpha_of_lt h]

/-- A batch with a valid image is merged when it has nothing else or another valid image. -/
theorem merged_iff (alpha_composite : Rgba → Rgba → Rgba) (now : String) (w : World)
    (hvalid : w.images ≠ []) :
    Merged alpha_composite now w ↔ w.batch.length = 1 ∨ 2 ≤ w.images.length := by
  constructor
  · intro hmerged
    by_contra hcondition
    rw [not_or, Nat.not_le] at hcondition
    have hlength : 0 < w.images.length := List.length_pos_of_ne_nil hvalid
    have hle : w.images.length ≤ w.batch.length := List.length_filterMap_le frombytes w.batch
    have hlost := merge_lost alpha_composite now (w := w) (by omega) hcondition.2
    have hfinishes := hmerged.finishes
    rw [hlost] at hfinishes
    exact absurd hfinishes (by simp)
  · rintro (hsingle | hseveral)
    · exact merged_single hsingle hvalid
    · exact merged_several hseveral

end

/-! ## Transparent and white -/

/-- Every byte of the image is the same. -/
def uniform (b : UInt8) : Rgba := ⟨List.replicate 40000 b, List.length_replicate⟩

lemma frombytes_uniform (b : UInt8) : frombytes (uniform b).val = some (uniform b) :=
  dif_pos (uniform b).property

lemma frombytes_nil : frombytes [] = none := dif_neg (by decide)

lemma uniform_ne_nil (b : UInt8) : (uniform b).val ≠ [] := by
  rw [uniform, ne_eq, List.replicate_eq_nil_iff]
  decide

/-- Nothing was saved yet, and the strings are in Redis. -/
def World.with_batch (batch : Strings) : World where
  redis := Function.update (fun _ => .empty) "new" batch
  saved := []

lemma batch_with_batch (batch : Strings) : (World.with_batch batch).batch = batch.members := by
  dsimp only [World.batch, World.with_batch]
  rw [Function.update_self]

/-- A transparent image, a string that is no image, and a white image. -/
def transparent_white : Strings where
  members := [(uniform 0).val, [], (uniform 255).val]
  nodup := by
    have hdistinct : (uniform 0).val ≠ (uniform 255).val := by
      rw [uniform, uniform, ne_eq, List.replicate_right_inj (by decide)]
      decide
    simp [uniform_ne_nil, hdistinct, (uniform_ne_nil 255).symm]

lemma images_transparent_white :
    (World.with_batch transparent_white).images = [uniform 0, uniform 255] := by
  rw [World.images, batch_with_batch, transparent_white,
    List.filterMap_cons_some (frombytes_uniform 0), List.filterMap_cons_none frombytes_nil,
    List.filterMap_cons_some (frombytes_uniform 255)]
  rfl

/-- What is opaque covers what is below it. -/
theorem merged_iff_transparent_white :
    Merged (fun _ image => image) "now" (World.with_batch transparent_white) :=
  (merged_iff (fun _ image => image) "now" (World.with_batch transparent_white)
    (by rw [images_transparent_white]; exact List.cons_ne_nil _ _)).mpr
    (Or.inr (by rw [images_transparent_white]; exact le_refl 2))

/-- A white image and a string that is none. -/
def white : Strings where
  members := [(uniform 255).val, []]
  nodup := by simp [uniform_ne_nil]

lemma images_white : (World.with_batch white).images = [uniform 255] := by
  rw [World.images, batch_with_batch, white, List.filterMap_cons_some (frombytes_uniform 255),
    List.filterMap_cons_none frombytes_nil]
  rfl

/-- The white image is taken out of Redis, and nothing is saved. -/
theorem white_is_lost :
    (World.with_batch white).images = [uniform 255] ∧
      (merge (fun _ image => image) "now" (World.with_batch white)).1 =
        .error .UnboundLocalError ∧
      (merge (fun _ image => image) "now" (World.with_batch white)).2.saved = [] ∧
      (merge (fun _ image => image) "now" (World.with_batch white)).2.batch = [] ∧
      ¬Merged (fun _ image => image) "now" (World.with_batch white) := by
  have hlost : merge (fun _ image => image) "now" (World.with_batch white) =
      (.error .UnboundLocalError, (World.with_batch white).taken "now") := by
    apply merge_lost
    · rw [batch_with_batch]
      exact le_refl 2
    · rw [images_white]
      exact Nat.one_lt_two
  refine ⟨images_white, by rw [hlost], by rw [hlost]; rfl, by rw [hlost]; exact batch_taken, ?_⟩
  intro hmerged
  have hfinishes := hmerged.finishes
  rw [hlost] at hfinishes
  exact absurd hfinishes (by simp)

end Syndilights.V2.PngMerger
