import Syndilights.ActionSystem
import Syndilights.Displayclient.BufferList

/-!
# The list of buffers is a queue of bytes

As long as no empty buffer is written and the list is not advanced past its end, it does not
matter in which buffers the bytes are: `length`, `joinInto` and `take` see a queue.
-/

namespace Syndilights.Displayclient.WebSocket

/-- The bytes `s` to `e` of a list, written to a buffer from `targetStart` on. -/
def splice {n : ℕ} (x : List UInt8) (target : Buffer n) (targetStart s e : ℕ) : Buffer n := fun i =>
  if targetStart ≤ i ∧ i < targetStart + (e - s) then x.getD (s + (i - targetStart)) 0
  else target i

namespace BufferList

/-! ## The loop of `join` -/

section
variable {n : ℕ} (target : Buffer n) (targetStart s e : ℕ)

/-- Nothing is written behind the end. -/
lemma splice_of_le {x : List UInt8} (h : e ≤ s) : splice x target targetStart s e = target := by
  funext i
  have hno : ¬ (targetStart ≤ i ∧ (i : ℕ) < targetStart + (e - s)) := by omega
  exact if_neg hno

/-- The element of the middle part of a list. -/
lemma getD_append_middle (front buffer back : List UInt8) {j k : ℕ} (hk : k < buffer.length)
    (hj : j = front.length + k) : (front ++ (buffer ++ back)).getD j 0 = buffer.getD k 0 := by
  subst hj
  rw [List.getD_eq_getElem?_getD, List.getElem?_append_right (by omega), Nat.add_sub_cancel_left,
    List.getElem?_append_left hk, List.getD_eq_getElem?_getD]

/-- One buffer continues what the buffers before it have written. -/
lemma joinBuffer_splice (front buffer back : List UInt8) :
    joinBuffer targetStart s e buffer
        (splice (front ++ (buffer ++ back)) target targetStart s (min front.length e), front.length)
      = ((splice (front ++ (buffer ++ back)) target targetStart s
          (min (front.length + buffer.length) e), front.length + buffer.length),
        decide (front.length + buffer.length > e)) := by
  simp only [joinBuffer, Prod.mk.injEq, and_true]
  split_ifs with hrange
  · rcases hrange with ⟨hstart, hend⟩
    funext i
    -- the part of the range that this buffer has
    have hfrom : max targetStart (targetStart + front.length - s)
        = targetStart + (front.length - s) := by omega
    have hcount : min (min buffer.length (e - front.length)) buffer.length - (s - front.length)
        = min (front.length + buffer.length) e - s - (front.length - s) := by omega
    simp only [copy, splice, hfrom, hcount]
    by_cases hnew : targetStart + (front.length - s) ≤ i ∧ (i : ℕ) < targetStart
        + (front.length - s) + (min (front.length + buffer.length) e - s - (front.length - s))
    · have hbyte : (front ++ (buffer ++ back)).getD (s + (i - targetStart)) 0
          = buffer.getD (s - front.length + (i - (targetStart + (front.length - s)))) 0 :=
        getD_append_middle front buffer back (by omega) (by omega)
      rw [if_pos hnew, if_pos (by omega), hbyte]
    · rw [if_neg hnew]
      have hiff : (targetStart ≤ i ∧ (i : ℕ) < targetStart + (min front.length e - s))
          ↔ (targetStart ≤ i ∧ (i : ℕ) < targetStart
            + (min (front.length + buffer.length) e - s)) := by omega
      simp only [hiff]
  · rcases not_and_or.mp hrange with h | h
    · rw [splice_of_le _ _ _ _ (by omega), splice_of_le _ _ _ _ (by omega)]
    · rw [show min front.length e = min (front.length + buffer.length) e by omega]

/-- The buffers that follow complete it. -/
lemma loop_splice (front : List UInt8) (buffers : List (List UInt8)) :
    (forEach.loop (joinBuffer targetStart s e) buffers
        (splice (front ++ buffers.flatten) target targetStart s (min front.length e),
          front.length)).1
      = splice (front ++ buffers.flatten) target targetStart s
          (min (front ++ buffers.flatten).length e) := by
  induction buffers generalizing front with
  | nil => rw [List.flatten_nil, List.append_nil]; rfl
  | cons buffer buffers ih =>
    rw [List.flatten_cons, forEach.loop, joinBuffer_splice]
    by_cases hpast : front.length + buffer.length > e
    · -- the loop is left, and all is written
      rw [decide_eq_true hpast]
      have hmin : min (front.length + buffer.length) e
          = min (front ++ (buffer ++ buffers.flatten)).length e := by
        rw [List.length_append, List.length_append]
        omega
      rw [hmin]
    · rw [decide_eq_false hpast]
      have hrest := ih (front ++ buffer)
      rw [List.append_assoc, List.length_append] at hrest
      exact hrest

end

/-! ## What the list holds -/

variable {l : BufferList}

/-- The bytes that have not been used. -/
def contents (l : BufferList) : List UInt8 := l.buffers.flatten.drop l.offset

/-- The offset is inside the first buffer, and the length is that of the contents. -/
structure Wf (l : BufferList) : Prop where
  offset : match l.buffers with
    | [] => l.offset = 0
    | head :: _ => l.offset < head.length
  length : l.length = l.contents.length

lemma wf_empty : empty.Wf := ⟨rfl, rfl⟩

lemma contents_empty : empty.contents = [] := rfl

/-- A buffer is written behind what is there. -/
lemma contents_write (h : l.Wf) (buf : List UInt8) :
    (l.write buf).contents = l.contents ++ buf := by
  have hoffset : l.offset ≤ l.buffers.flatten.length := by
    have hhead := h.offset
    split at hhead
    · omega
    · rename_i hbuffers
      rw [hbuffers, List.flatten_cons, List.length_append]
      omega
  rw [contents, write, contents, List.flatten_append, List.flatten_singleton,
    List.drop_append_of_le_length hoffset]

lemma wf_write (h : l.Wf) {buf : List UInt8} (hbuf : buf ≠ []) : (l.write buf).Wf where
  offset := by
    have hhead := h.offset
    have hpos := List.length_pos_of_ne_nil hbuf
    split at hhead
    · rename_i hbuffers
      simp only [write, hbuffers, List.nil_append]
      omega
    · rename_i hbuffers
      simp only [write, hbuffers, List.cons_append]
      exact hhead
  length := by
    rw [contents_write h, List.length_append, Nat.cast_add, ← h.length]
    rfl

/-- The loop of `advance` drops what is used up. -/
lemma loop_contents (buffers : List (List UInt8)) (offset : ℕ) :
    (advance.loop buffers offset).1.flatten.drop (advance.loop buffers offset).2
      = buffers.flatten.drop offset := by
  induction buffers generalizing offset with
  | nil => rfl
  | cons buffer buffers ih =>
    rw [advance.loop]
    split_ifs with hused
    · have hnil : buffer.drop offset = [] := List.drop_eq_nil_of_le hused
      rw [ih, List.flatten_cons, List.drop_append, hnil, List.nil_append]
    · rfl

/-- The offset is inside the first buffer that is left. -/
lemma loop_offset (buffers : List (List UInt8)) {offset : ℕ} (h : offset ≤ buffers.flatten.length) :
    match (advance.loop buffers offset).1 with
    | [] => (advance.loop buffers offset).2 = 0
    | head :: _ => (advance.loop buffers offset).2 < head.length := by
  induction buffers generalizing offset with
  | nil => exact Nat.le_zero.mp h
  | cons buffer buffers ih =>
    rw [advance.loop]
    split_ifs with hused
    · rw [List.flatten_cons, List.length_append] at h
      exact ih (by omega)
    · exact Nat.lt_of_not_le hused

lemma contents_advance (n : ℕ) : (l.advance n).contents = l.contents.drop n := by
  rw [contents, contents, List.drop_drop]
  exact loop_contents l.buffers (l.offset + n)

lemma wf_advance (h : l.Wf) {n : ℕ} (hn : n ≤ l.contents.length) : (l.advance n).Wf where
  offset := by
    apply loop_offset
    rw [contents, List.length_drop] at hn
    have hhead := h.offset
    split at hhead
    · omega
    · rename_i hbuffers
      rw [hbuffers, List.flatten_cons, List.length_append] at hn ⊢
      omega
  length := by
    rw [contents_advance, List.length_drop]
    show l.length - n = _
    rw [h.length]
    omega

/-! ## What is read of it -/

/-- There is a buffer as long as there are bytes. -/
lemma buffers_eq_nil_iff (h : l.Wf) : l.buffers = [] ↔ l.contents = [] := by
  have hhead := h.offset
  rw [contents]
  split at hhead
  · rename_i hbuffers
    simp [hbuffers]
  · rename_i head next hbuffers
    have hpos : (l.buffers.flatten.drop l.offset).length ≠ 0 := by
      rw [hbuffers, List.flatten_cons, List.length_drop, List.length_append]
      omega
    simp only [hbuffers, reduceCtorEq, false_iff]
    rw [hbuffers] at hpos
    exact fun hnil => hpos (congrArg List.length hnil)

/-- `forEach` goes through the contents. -/
lemma forEach_joinBuffer (h : l.Wf) {n : ℕ} (target : Buffer n) (targetStart : ℕ) {s e : ℕ}
    (he : e ≤ l.contents.length) :
    (l.forEach (joinBuffer targetStart s e) (target, 0)).1
      = splice l.contents target targetStart s e := by
  have hhead := h.offset
  rw [forEach]
  split
  · rename_i hbuffers
    rw [(buffers_eq_nil_iff h).mp hbuffers, List.length_nil] at he
    rw [splice_of_le _ _ _ _ (by omega)]
  · rename_i head next hbuffers
    rw [hbuffers] at hhead
    rw [if_neg (by omega)]
    have hcontents : l.contents = (head.drop l.offset :: next).flatten := by
      rw [contents, hbuffers, List.flatten_cons, List.flatten_cons,
        List.drop_append_of_le_length (by omega)]
    have hloop := loop_splice target targetStart s e [] (head.drop l.offset :: next)
    rw [List.nil_append, ← hcontents, List.length_nil, Nat.zero_min,
      splice_of_le _ _ _ _ (by omega), min_eq_right he] at hloop
    exact hloop

/-- `joinInto` writes the bytes it is asked for, and nothing else. -/
lemma joinInto_eq (h : l.Wf) {n : ℕ} (target : Buffer n) {targetStart s e : ℕ} (hs : s ≤ e)
    (he : e ≤ l.contents.length) (hspace : targetStart + (e - s) ≤ n) :
    l.joinInto target targetStart s e = some (splice l.contents target targetStart s e) := by
  rw [joinInto]
  split_ifs with hbuffers hthrow
  · rw [(buffers_eq_nil_iff h).mp hbuffers, List.length_nil] at he
    rw [splice_of_le _ _ _ _ (by omega)]
  · omega
  · rw [forEach_joinBuffer h target targetStart he]

/-- `take` returns the first bytes, whatever was in memory. -/
lemma take_eq (h : l.Wf) (memory : ℕ → UInt8) {n : ℕ} (hn : n ≤ l.contents.length) :
    l.take memory n = l.contents.take n := by
  rw [BufferList.take, join]
  split_ifs with hbuffers
  · rw [(buffers_eq_nil_iff h).mp hbuffers, List.take_nil]
  · dsimp only
    rw [forEach_joinBuffer h _ _ hn]
    apply List.ext_getElem
    · rw [List.length_ofFn, List.length_take, min_eq_left hn, Nat.sub_zero]
    · intro i hi _
      rw [List.length_ofFn] at hi
      have hlt : i < l.contents.length := by omega
      rw [List.getElem_ofFn, List.getElem_take, splice, if_pos (by omega), Nat.sub_zero,
        Nat.zero_add, List.getD_eq_getElem?_getD, List.getElem?_eq_getElem hlt, Option.getD_some]

/-! ## Runs -/

/-- What changes a list. -/
inductive Op
  | write (buf : List UInt8)
  | advance (n : ℕ)
deriving DecidableEq

/-- The list of buffers after an operation. -/
def step (l : BufferList) : Op → BufferList
  | .write buf => l.write buf
  | .advance n => l.advance n

/-- The queue after an operation; an empty buffer or bytes that are not there are not asked
for. -/
def queueStep (x : List UInt8) : Op → Option (List UInt8)
  | .write buf => if buf ≠ [] then some (x ++ buf) else none
  | .advance n => if n ≤ x.length then some (x.drop n) else none

/-- Everything that is read of the list is as in the queue. -/
structure Observes (l : BufferList) (x : List UInt8) : Prop where
  length : l.length = x.length
  take : ∀ memory n, n ≤ x.length → l.take memory n = x.take n
  joinInto : ∀ {n : ℕ} (target : Buffer n) targetStart s e, s ≤ e → e ≤ x.length →
    targetStart + (e - s) ≤ n →
    l.joinInto target targetStart s e = some (splice x target targetStart s e)

lemma observes (h : l.Wf) : Observes l l.contents where
  length := h.length
  take memory _ hn := take_eq h memory hn
  joinInto target _ _ _ hs he hspace := joinInto_eq h target hs he hspace

/-- One operation. -/
lemma step_queueStep (h : l.Wf) {op : Op} {x : List UInt8}
    (hstep : queueStep l.contents op = some x) : (l.step op).Wf ∧ (l.step op).contents = x := by
  cases op with
  | write buf =>
    rcases ActionSystem.of_guard hstep with ⟨hbuf, rfl⟩
    exact ⟨wf_write h hbuf, contents_write h buf⟩
  | advance n =>
    rcases ActionSystem.of_guard hstep with ⟨hn, rfl⟩
    exact ⟨wf_advance h hn, contents_advance n⟩

/-- **The list of buffers is a queue of bytes**, after every run of operations. -/
theorem observes_queue {ops : List Op} {x : List UInt8}
    (h : ActionSystem.run queueStep [] ops = some x) : Observes (ops.foldl step empty) x := by
  suffices hrun : ∀ l : BufferList, l.Wf → ∀ x, ActionSystem.run queueStep l.contents ops = some x →
      (ops.foldl step l).Wf ∧ (ops.foldl step l).contents = x by
    rcases hrun empty wf_empty x h with ⟨hwf, hcontents⟩
    exact hcontents ▸ observes hwf
  clear h
  induction ops with
  | nil =>
    intro l hwf x hrun
    exact ⟨hwf, Option.some.inj hrun⟩
  | cons op ops ih =>
    intro l hwf x hrun
    rw [ActionSystem.run_cons, Option.bind_eq_some_iff] at hrun
    rcases hrun with ⟨mid, hmid, hrest⟩
    rcases step_queueStep hwf hmid with ⟨hwf', rfl⟩
    exact ih _ hwf' x hrest

/-- Three bytes in two buffers, one of them used. -/
theorem two_buffers :
    Observes ([.write [1, 2], .write [3], .advance 1].foldl step empty) [2, 3] :=
  observes_queue (by decide)

end BufferList

end Syndilights.Displayclient.WebSocket
