import Mathlib.Tactic

/-!
# Streams in transit

A reliable stream from a writer to a reader: what has arrived, and what is still on its way.
How much arrives at a time is up to the network. `Conveys` follows a list of values that is
written to such a stream piece by piece.
-/

namespace InTransit

/-! ## Links -/

/-- What was written and has not been read, split at what has arrived. -/
@[ext]
structure Link (α : Type*) where
  arrived : List α
  flight : List α

namespace Link

variable {α : Type*} (l : Link α)

/-- What was written and has not been read. -/
def content : List α := l.arrived ++ l.flight

/-- A link that nothing was written to. -/
def empty : Link α := ⟨[], []⟩

def write (data : List α) : Link α := { l with flight := l.flight ++ data }

/-- The next `n` elements arrive, or all that are on their way. -/
def deliver (n : ℕ) : Link α := ⟨l.arrived ++ l.flight.take n, l.flight.drop n⟩

/-- Take up to `n` of the elements that have arrived. -/
def read (n : ℕ) : List α × Link α := (l.arrived.take n, { l with arrived := l.arrived.drop n })

@[simp] lemma content_write (data : List α) : (l.write data).content = l.content ++ data := by
  rw [content, content, write, List.append_assoc]

@[simp] lemma content_deliver (n : ℕ) : (l.deliver n).content = l.content := by
  rw [content, content, deliver, List.append_assoc, List.take_append_drop]

variable {l}

/-- With enough arrived, a read takes exactly the front of the stream. -/
lemma read_eq {front rest : List α} (h : l.content = front ++ rest)
    (harrived : front.length ≤ l.arrived.length) :
    (l.read front.length).1 = front ∧ (l.read front.length).2.content = rest := by
  have htake := congrArg (List.take front.length) h
  have hdrop := congrArg (List.drop front.length) h
  rw [content, List.take_append_of_le_length harrived, List.take_left' rfl] at htake
  rw [content, List.drop_append_of_le_length harrived, List.drop_left' rfl] at hdrop
  exact ⟨htake, hdrop⟩

end Link

/-! ## Values on a link -/

/-- Of these values, the first `sent` were written, and `got` was read; the others are in the
content, and behind the last of them a tail. -/
structure Conveys {α β : Type*} (encode : β → List α) (values : List β) (sent : ℕ)
    (got : List β) (content tail : List α) : Prop where
  sent_le : sent ≤ values.length
  got_le : got.length ≤ sent
  got_eq : got = values.take got.length
  content_eq : content = ((values.take sent).drop got.length).flatMap encode ++ tail
  tail_eq : sent < values.length → tail = []

namespace Conveys

variable {α β : Type*} {encode : β → List α} {values got : List β} {sent : ℕ}
  {content tail : List α}

lemma start : Conveys encode values 0 [] [] [] where
  sent_le := Nat.zero_le _
  got_le := le_rfl
  got_eq := rfl
  content_eq := rfl
  tail_eq _ := rfl

/-- What was read is a front of the values. -/
lemma got_isPrefix (h : Conveys encode values sent got content tail) : got <+: values := by
  rw [h.got_eq]
  exact List.take_prefix _ _

/-- The next value is written. -/
lemma send (h : Conveys encode values sent got content tail) {v : β}
    (hv : values[sent]? = some v) :
    Conveys encode values (sent + 1) got (content ++ encode v) tail where
  sent_le := (List.getElem?_eq_some_iff.mp hv).1
  got_le := h.got_le.trans (Nat.le_succ _)
  got_eq := h.got_eq
  content_eq := by
    have hlt := (List.getElem?_eq_some_iff.mp hv).1
    have hlength : (values.take sent).length = sent := List.length_take_of_le h.sent_le
    have hgot := h.got_le
    rw [h.content_eq, h.tail_eq hlt, List.append_nil, List.append_nil, List.take_add_one, hv,
      List.drop_append_of_le_length (by omega), List.flatMap_append]
    simp
  tail_eq hlt := h.tail_eq (by omega)

/-- Behind the last value, anything is written. -/
lemma append (h : Conveys encode values sent got content tail) (hsent : sent = values.length)
    (data : List α) : Conveys encode values sent got (content ++ data) (tail ++ data) where
  sent_le := h.sent_le
  got_le := h.got_le
  got_eq := h.got_eq
  content_eq := by rw [h.content_eq, List.append_assoc]
  tail_eq hlt := absurd hsent hlt.ne

/-- A value that was sent and not read is the next one in the content. -/
lemma front (h : Conveys encode values sent got content tail) (hlt : got.length < sent) :
    ∃ v rest, v ∈ values ∧ content = encode v ++ rest ∧
      Conveys encode values sent (got ++ [v]) rest tail := by
  have hsent := h.sent_le
  have hgot : got.length < values.length := by omega
  have hnext : (values.take sent).drop got.length
      = values[got.length] :: (values.take sent).drop (got.length + 1) := by
    have hlen : got.length < (values.take sent).length := by
      rw [List.length_take]
      omega
    rw [List.drop_eq_getElem_cons hlen, List.getElem_take]
  refine ⟨values[got.length], ((values.take sent).drop (got.length + 1)).flatMap encode ++ tail,
    List.getElem_mem hgot, ?_, ?_⟩
  · rw [h.content_eq, hnext, List.flatMap_cons, List.append_assoc]
  · constructor
    · exact h.sent_le
    · rw [List.length_append, List.length_singleton]
      exact hlt
    · rw [List.length_append, List.length_singleton, List.take_add_one,
        List.getElem?_eq_getElem hgot, ← h.got_eq]
      rfl
    · rw [List.length_append, List.length_singleton]
    · exact h.tail_eq

/-- If anything is there and a value is missing, it is the next one. -/
lemma next (h : Conveys encode values sent got content tail) (hgot : got.length < values.length)
    (hcontent : content ≠ []) :
    ∃ v rest, v ∈ values ∧ content = encode v ++ rest ∧
      Conveys encode values sent (got ++ [v]) rest tail := by
  -- what is in transit is not empty, so something was sent that is not there yet
  apply h.front
  by_contra hge
  have heq : got.length = sent := by
    have hle := h.got_le
    omega
  apply hcontent
  rw [h.content_eq, h.tail_eq (by omega), heq, List.drop_take_self]
  rfl

/-- When all values were read, only the tail is left. -/
lemma content_of_all (h : Conveys encode values sent got content tail)
    (hgot : got.length = values.length) : content = tail := by
  have hle := h.got_le
  have hsent := h.sent_le
  rw [h.content_eq, List.drop_eq_nil_of_le, List.flatMap_nil, List.nil_append]
  rw [List.length_take]
  omega

end Conveys

end InTransit
