import Syndilights.Frameserver.Buffers

/-!
# Removing a buffer

`remove` keeps the size that it read before it erases, and steps over the buffer that moves
into the place of an erased one. Names are unique, so it erases at most once; it then reads
behind the end unless the erased buffer was the last one.
-/

namespace Syndilights.Frameserver
namespace Buffers

/-! ## The loop -/

section
variable {_id : String} {buffers : List Buffer}

/-- The loop steps over buffers with other names. -/
lemma removeLoop_skip (seen : List Buffer) {front : List Buffer} (h : ∀ b ∈ front, b.id ≠ _id)
    (rest : List Buffer) (left : ℕ) :
    removeLoop _id seen.length (front.length + left) (seen ++ front ++ rest)
      = removeLoop _id (seen ++ front).length left (seen ++ front ++ rest) := by
  induction front generalizing seen with
  | nil => rw [List.length_nil, Nat.zero_add, List.append_nil]
  | cons b front ih =>
    have hread : (seen ++ b :: front ++ rest)[seen.length]? = some b := by simp
    have hnext := ih (seen ++ [b]) fun c hc => h c (List.mem_cons_of_mem b hc)
    rw [List.append_assoc seen, List.singleton_append, List.length_append,
      List.length_singleton] at hnext
    rw [List.length_cons, Nat.add_right_comm, removeLoop, hread]
    dsimp only
    rw [if_neg (h b List.mem_cons_self)]
    exact hnext

/-- With a buffer less than it counts, the loop comes to the end of the vector. -/
lemma removeLoop_behind_end {i left : ℕ} (h : buffers.length < i + left) (hleft : 0 < left) :
    removeLoop _id i left buffers = none := by
  induction left generalizing i buffers with
  | zero => exact absurd hleft (lt_irrefl 0)
  | succ left ih =>
    rw [removeLoop]
    cases hread : buffers[i]? with
    | none => rfl
    | some b =>
      have hi : i < buffers.length := (List.getElem?_eq_some_iff.mp hread).1
      have herase := List.length_eraseIdx_le buffers i
      dsimp only
      split_ifs
      · exact ih (by omega) (by omega)
      · exact ih (by omega) (by omega)

/-- What the loop leaves is a part of the vector. -/
lemma sublist_of_removeLoop {i left : ℕ} {after : List Buffer}
    (h : removeLoop _id i left buffers = some after) : after.Sublist buffers := by
  induction left generalizing i buffers with
  | zero => exact (Option.some.inj h) ▸ List.Sublist.refl _
  | succ left ih =>
    rw [removeLoop] at h
    cases hread : buffers[i]? with
    | none =>
      rw [hread] at h
      exact absurd h (by simp)
    | some b =>
      rw [hread] at h
      dsimp only at h
      split_ifs at h
      · exact (ih h).trans (List.eraseIdx_sublist buffers i)
      · exact ih h

/-- No buffer has the name. -/
lemma removeLoop_absent (h : ∀ b ∈ buffers, b.id ≠ _id) :
    removeLoop _id 0 buffers.length buffers = some buffers := by
  have hskip := removeLoop_skip [] h [] 0
  rw [List.nil_append, List.append_nil, Nat.add_zero] at hskip
  exact hskip

/-- The first buffer with the name is erased, and the next one is stepped over. -/
lemma removeLoop_present {front : List Buffer} {b : Buffer} (h : ∀ c ∈ front, c.id ≠ _id)
    (hb : b.id = _id) (back : List Buffer) :
    removeLoop _id 0 (front ++ b :: back).length (front ++ b :: back)
      = removeLoop _id (front.length + 1) back.length (front ++ back) := by
  have hskip := removeLoop_skip [] h (b :: back) (back.length + 1)
  have hread : (front ++ b :: back)[front.length]? = some b := by simp
  have herase : (front ++ b :: back).eraseIdx front.length = front ++ back := by
    rw [List.eraseIdx_append_of_length_le le_rfl, Nat.sub_self]
    rfl
  rw [List.nil_append] at hskip
  rw [List.length_append, List.length_cons]
  refine hskip.trans ?_
  rw [removeLoop, hread]
  dsimp only
  rw [if_pos hb, herase]

end

/-! ## Names -/

/-- The names are distinct, and none is longer than that of the buffer that was added last. -/
structure Named (s : Buffers) : Prop where
  nodup : (s.buffers.map Buffer.id).Nodup
  length_le : ∀ b ∈ s.buffers, b.id.length ≤ s.id.length

section
variable {s s' : Buffers} {_id : String}

lemma named_add (h : Named s) (raw : Frame) : Named (s.add raw) := by
  have hlength : (s.id ++ "1").length = s.id.length + 1 := String.length_append ..
  constructor
  · rw [add, List.map_append, List.nodup_append]
    refine ⟨h.nodup, List.nodup_singleton _, ?_⟩
    rintro name hname name' hnew rfl
    -- the new name is longer than the others
    rcases List.mem_map.mp hname with ⟨b, hb, rfl⟩
    have hle := h.length_le b hb
    rw [List.mem_singleton.mp hnew, hlength] at hle
    omega
  · intro b hb
    rw [add, hlength]
    rcases List.mem_append.mp hb with hb | hb
    · have hle := h.length_le b hb
      omega
    · rw [List.mem_singleton.mp hb, hlength]

lemma named_remove (h : Named s) (hremove : s.remove _id = some s') : Named s' := by
  rcases Option.map_eq_some_iff.mp hremove with ⟨after, hafter, rfl⟩
  have hsub := sublist_of_removeLoop hafter
  exact ⟨h.nodup.sublist (hsub.map Buffer.id), fun b hb => h.length_le b (hsub.subset hb)⟩

lemma named_step {call : Call} (h : Named s) (hstep : step s call = some s') : Named s' := by
  cases call with
  | add raw => exact (Option.some.inj hstep) ▸ named_add h raw
  | remove _id => exact named_remove h hstep

lemma named_ofBufnum (bufnum : ℤ) (raw : ℕ → Frame) : Named (ofBufnum bufnum raw) :=
  ForLoop.run_keeps (P := Named) (fun i _ h => named_add h (raw i))
    ⟨List.nodup_nil, fun _ hb => absurd hb List.not_mem_nil⟩

/-- No other buffer has the name of a buffer. -/
lemma Named.others (hs : Named s) {front back : List Buffer} {b : Buffer}
    (hsplit : s.buffers = front ++ b :: back) : ∀ c ∈ front ++ back, c.id ≠ b.id := by
  have hnodup := hs.nodup
  rw [hsplit, List.map_append, List.map_cons, List.nodup_middle, List.nodup_cons,
    ← List.map_append] at hnodup
  exact fun c hc heq => hnodup.1 (heq ▸ List.mem_map_of_mem hc)

/-- The last buffer is the one whose name is the last one. -/
lemma Named.getLast?_iff (hs : Named s) {front back : List Buffer} {b : Buffer}
    (hsplit : s.buffers = front ++ b :: back) :
    (s.buffers.map Buffer.id).getLast? = some b.id ↔ back = [] := by
  rw [hsplit]
  rcases List.eq_nil_or_concat back with rfl | ⟨rest, c, rfl⟩
  · exact iff_of_true (by simp) rfl
  · have hne : c.id ≠ b.id := hs.others hsplit c (by simp)
    have hconcat : front ++ b :: rest.concat c = (front ++ b :: rest) ++ [c] := by simp
    rw [hconcat, List.map_append, List.map_singleton, List.getLast?_concat, Option.some.injEq]
    exact iff_of_false hne (by simp)

/-! ## Removing -/

/-- `remove` reads no position behind the end, and leaves the buffers with other names. -/
def RemovesExactly (s : Buffers) (_id : String) : Prop :=
  s.remove _id = some { s with buffers := s.buffers.filter fun b => b.id ≠ _id }

/-- No buffer has the name. -/
lemma removesExactly_absent (h : _id ∉ s.buffers.map Buffer.id) : RemovesExactly s _id := by
  have hall : ∀ b ∈ s.buffers, b.id ≠ _id := fun b hb heq => h (heq ▸ List.mem_map_of_mem hb)
  have hfilter : (s.buffers.filter fun b => b.id ≠ _id) = s.buffers :=
    List.filter_eq_self.mpr fun b hb => decide_eq_true (hall b hb)
  rw [RemovesExactly, remove, removeLoop_absent hall, hfilter]
  rfl

/-- A buffer in the place between others. -/
lemma removesExactly_present (hs : Named s) {front back : List Buffer} {b : Buffer}
    (hsplit : s.buffers = front ++ b :: back) : RemovesExactly s b.id ↔ back = [] := by
  have hfront : ∀ c ∈ front, c.id ≠ b.id :=
    fun c hc => hs.others hsplit c (List.mem_append_left back hc)
  have hloop := removeLoop_present hfront rfl back
  rw [RemovesExactly, remove, hsplit, hloop]
  cases back with
  | nil =>
    have hfilter : ((front ++ [b]).filter fun c => c.id ≠ b.id) = front := by
      rw [List.filter_append, List.filter_singleton, decide_eq_false (fun h => h rfl)]
      rw [List.filter_eq_self.mpr fun c hc => decide_eq_true (hfront c hc)]
      exact List.append_nil front
    rw [hfilter, List.append_nil, List.length_nil, removeLoop]
    exact iff_of_true rfl rfl
  | cons c back =>
    -- the last turns of the loop find no buffer
    have hbehind : removeLoop b.id (front.length + 1) (c :: back).length (front ++ c :: back)
        = none := by
      apply removeLoop_behind_end
      · rw [List.length_append]
        omega
      · exact Nat.zero_lt_succ _
    rw [hbehind]
    exact iff_of_false (by simp) (by simp)

end

/-- **When removing is exact.** In every container that can be reached, the names are
distinct, and `remove` is exact for the names that no buffer has and for that of the last
buffer; for any other name it reads behind the end. -/
theorem remove_exact_iff (bufnum : ℤ) (raw : ℕ → Frame) (calls : List Call) (s : Buffers)
    (hrun : ActionSystem.run step (ofBufnum bufnum raw) calls = some s) :
    (s.buffers.map Buffer.id).Nodup ∧
    ∀ _id, RemovesExactly s _id ↔
      _id ∉ s.buffers.map Buffer.id ∨ (s.buffers.map Buffer.id).getLast? = some _id := by
  have hs : Named s := ActionSystem.run_invariant (named_ofBufnum bufnum raw)
    (fun _ _ _ hmid _ hstep => named_step hmid hstep) ActionSystem.meets_true hrun
  refine ⟨hs.nodup, fun _id => ?_⟩
  by_cases hid : _id ∈ s.buffers.map Buffer.id
  · rcases List.mem_map.mp hid with ⟨b, hb, rfl⟩
    rcases List.append_of_mem hb with ⟨front, back, hsplit⟩
    rw [removesExactly_present hs hsplit, or_iff_right (not_not.mpr hid), hs.getLast?_iff hsplit]
  · exact iff_of_true (removesExactly_absent hid) (Or.inl hid)

/-- The last of two buffers is removed and another one is added; then the new one can be removed,
and the first one cannot. -/
theorem remove_exact_iff_added :
    let s : Buffers := ⟨[⟨"1", default⟩, ⟨"111", default⟩], "111"⟩
    ActionSystem.run step (ofBufnum 2 fun _ => default) [.remove "11", .add default] = some s ∧
      RemovesExactly s "111" ∧ ¬ RemovesExactly s "1" := by
  intro s
  have hexact := (remove_exact_iff 2 (fun _ => default) [.remove "11", .add default] s rfl).2
  exact ⟨rfl, (hexact "111").mpr (by decide), (hexact "1").not.mpr (by decide)⟩

/-- The first of two buffers. -/
theorem remove_reads_behind_end :
    ActionSystem.run step (ofBufnum 2 fun _ => default) [] = some (ofBufnum 2 fun _ => default) ∧
      (ofBufnum 2 fun _ => default).remove "1" = none ∧
      ¬ RemovesExactly (ofBufnum 2 fun _ => default) "1" := by
  have hnone : (ofBufnum 2 fun _ => default).remove "1" = none := by
    rfl
  exact ⟨rfl, hnone, by rw [RemovesExactly, hnone]; simp⟩

end Buffers
end Syndilights.Frameserver
