import Syndilights.Incremental
import Syndilights.Displayclient.FrameCodecTheorems
import Syndilights.Displayclient.WebSocketConnection

/-!
# The pieces in which bytes arrive do not matter

A connection is an incremental parser of its frames. What it emits, sends and closes depends
on the bytes it has received, and not on the pieces in which the socket has handed them over.
-/

namespace Syndilights.Displayclient.WebSocket

open WebSocket.Frame

namespace Connection

variable (P : Platform)

/-! ## One step of the parser -/

/-- A step of the current frame, and what is done with the frame when it is complete. -/
def next (c : Connection) (x : List UInt8) : Option (Connection × List Effect × List UInt8) :=
  if c.connected then
    match phase c.currentFrame x with
    | none => none
    | some (false, frame, rest) => some ({ c with currentFrame := frame }, [], rest)
    | some (true, frame, rest) =>
      some ((handleFrame P { c with currentFrame := frame }).1,
        (handleFrame P { c with currentFrame := frame }).2, rest)
  else none

/-- A step takes bytes, or leaves fewer steps that take none. -/
lemma phase_lt {f f' : Frame} {x rest : List UInt8} {done : Bool}
    (h : phase f x = some (done, f', rest)) :
    4 * rest.length + (if done then 0 else Frame.rank f'.parseState)
      < 4 * x.length + Frame.rank f.parseState := by
  rcases phase_eq_some_iff.mp h with ⟨⟨hstate, hlen⟩, hconsume, rfl⟩
  rw [List.length_drop]
  have hthree (s : ParseState) : Frame.rank s ≤ 3 := by cases s <;> decide
  have hle : (if done then 0 else Frame.rank f'.parseState) ≤ 3 := by
    split_ifs
    · exact Nat.zero_le _
    · exact hthree _
  cases hcase : f.parseState with
  | DECODE_HEADER | WAITING_FOR_16_BIT_LENGTH | WAITING_FOR_64_BIT_LENGTH =>
    simp only [need, hcase] at hlen ⊢
    omega
  | WAITING_FOR_MASK_KEY =>
    simp only [consume, hcase, Prod.mk.injEq] at hconsume
    rcases hconsume with ⟨rfl, rfl⟩
    simp only [Bool.false_eq_true, if_false, Frame.rank]
    omega
  | WAITING_FOR_PAYLOAD =>
    simp only [consume, hcase, Prod.mk.injEq] at hconsume
    rcases hconsume with ⟨rfl, -⟩
    simp only [if_true, Frame.rank]
    omega
  | COMPLETE => exact absurd hcase hstate

/-- After a frame the connection is closed, or the next one starts. -/
lemma handleFrame_rank (c : Connection) (h : (handleFrame P c).1.connected = true) :
    Frame.rank (handleFrame P c).1.currentFrame.parseState = 0 := by
  by_cases hprotocol : c.currentFrame.protocolError = true
  · rw [handleFrame, if_pos hprotocol] at h
    cases h
  · by_cases hlarge : c.currentFrame.frameTooLarge = true
    · rw [handleFrame, if_neg hprotocol, if_pos hlarge] at h
      cases h
    · exact rank_handleFrame P c (by simpa using hprotocol) (by simpa using hlarge)

/-- The connection as an incremental parser. -/
def parser : Incremental Connection UInt8 Effect where
  next := next P
  stable := by
    intro c x c' out rest h y
    unfold next at h ⊢
    split_ifs at h ⊢ with hconnected
    split at h
    · cases h
    · rename_i hphase
      cases h
      rw [phase_append hphase y]
    · rename_i hphase
      cases h
      rw [phase_append hphase y]
  rank c x := if c.connected then 4 * x.length + Frame.rank c.currentFrame.parseState + 1 else 0
  next_lt := by
    intro c x c' out rest h
    unfold next at h
    split_ifs at h with hconnected
    split at h
    · cases h
    · rename_i hphase
      cases h
      have hlt := phase_lt hphase
      simp only [Bool.false_eq_true, if_false] at hlt
      simp only [hconnected, if_true]
      omega
    · rename_i frame rest' hphase
      cases h
      have hlt := phase_lt hphase
      simp only [if_true] at hlt
      simp only [hconnected, if_true]
      split_ifs with hopen
      · rw [handleFrame_rank P _ hopen]
        omega
      · omega

/-! ## `handleSocketData` runs the parser -/

variable {P} {c : Connection}

lemma drain_closed (h : c.connected = false) (x : List UInt8) :
    (parser P).drain c x = (c, [], x) :=
  Incremental.drain_of_none (if_neg (by rw [h]; decide))

/-- The steps that `addData` makes are steps of the parser. -/
lemma drain_outcome (hconnected : c.connected = true) {x x' : List UInt8} {done : Bool} {f' : Frame}
    (h : Outcome c.currentFrame x done f' x') :
    (parser P).drain c x = if done then
        (((parser P).drain (handleFrame P { c with currentFrame := f' }).1 x').1,
          (handleFrame P { c with currentFrame := f' }).2 ++
            ((parser P).drain (handleFrame P { c with currentFrame := f' }).1 x').2.1,
          ((parser P).drain (handleFrame P { c with currentFrame := f' }).1 x').2.2)
      else ({ c with currentFrame := f' }, [], x') := by
  generalize hf : c.currentFrame = f at h
  induction h generalizing c with
  | wait hphase =>
    subst hf
    apply Incremental.drain_of_none
    show next P c _ = none
    rw [next, if_pos hconnected, hphase]
  | done hphase =>
    subst hf
    apply Incremental.drain_of_some
    show next P c _ = _
    rw [next, if_pos hconnected, hphase]
  | @more f x f₁ x₁ done f' x' hphase hrest ih =>
    subst hf
    have hnext : (parser P).next c x = some ({ c with currentFrame := f₁ }, [], x₁) := by
      show next P c _ = _
      rw [next, if_pos hconnected, hphase]
    have hdrain := Incremental.drain_of_some hnext
    rw [List.nil_append] at hdrain
    rw [hdrain]
    exact ih (c := { c with currentFrame := f₁ }) hconnected rfl

/-- A frame in error closes the connection. -/
lemma handleFrame_failed (h : c.currentFrame.protocolError = true ∨
    c.currentFrame.frameTooLarge = true) : (handleFrame P c).1.connected = false := by
  rw [handleFrame]
  by_cases hprotocol : c.currentFrame.protocolError = true
  · rw [if_pos hprotocol]
    rfl
  · rw [if_neg hprotocol, if_pos (h.resolve_left hprotocol)]
    rfl

/-- The call returns what the parser does with the contents of the list. -/
def Runs (P : Platform) (c : Connection) (l : BufferList)
    (result : Option (Connection × BufferList × List Effect)) : Prop :=
  ∃ c' l' effects, result = some (c', l', effects) ∧ l'.Wf ∧
    (parser P).drain c l.contents = (c', effects, l'.contents)

/-- The loop runs the parser. -/
lemma handleFrames_runs {l : BufferList} (hwf : l.Wf) : Runs P c l (handleFrames P c l) := by
  induction hrank : 4 * l.length.toNat + Frame.rank c.currentFrame.parseState using
    Nat.strongRecOn generalizing c l with
  | _ n ih =>
    rw [handleFrames]
    by_cases hconnected : c.connected = true
    · rw [if_pos hconnected]
      obtain ⟨done, frame, l', hadd, hwf', hout⟩ := addData_returns P.memory (f := c.currentFrame) hwf
      have hdrain := drain_outcome (P := P) hconnected hout
      split
      · rename_i hnone
        rw [hadd] at hnone
        cases hnone
      · rename_i hsome
        rw [hadd] at hsome
        cases hsome
        exact ⟨_, _, _, rfl, hwf', hdrain⟩
      · rename_i hsome
        rw [hadd] at hsome
        cases hsome
        rw [if_pos rfl] at hdrain
        have hlt := addData_lt hadd
        split_ifs with hfailed
        · -- the connection is closed, and the rest stays unread
          have hclosed := handleFrame_failed (P := P) (c := { c with currentFrame := frame }) hfailed
          rw [drain_closed hclosed, List.append_nil] at hdrain
          exact ⟨_, _, _, rfl, hwf', hdrain⟩
        · have hprotocol : frame.protocolError = false := by simpa using (not_or.mp hfailed).1
          have hlarge : frame.frameTooLarge = false := by simpa using (not_or.mp hfailed).2
          have hzero := rank_handleFrame P { c with currentFrame := frame } hprotocol hlarge
          obtain ⟨c'', l'', effects, hrest, hwf'', hdrain'⟩ :=
            ih _ (by omega) (c := (handleFrame P { c with currentFrame := frame }).1) hwf' rfl
          dsimp only
          rw [hrest]
          rw [hdrain'] at hdrain
          exact ⟨_, _, _, rfl, hwf'', hdrain⟩
    · rw [if_neg hconnected]
      exact ⟨c, l, [], rfl, hwf, drain_closed (by simpa using hconnected) l.contents⟩

/-- A piece of data is fed to the parser. -/
lemma handleSocketData_runs {l : BufferList} (hwf : l.Wf) {data : List UInt8} (hdata : data ≠ []) :
    Runs P c (l.write data) (handleSocketData P c l data) :=
  handleFrames_runs (BufferList.wf_write hwf hdata)

/-! ## Data in pieces -/

/-- The socket hands over one piece after the other. -/
def receive (P : Platform) (c : Connection) (l : BufferList) :
    List (List UInt8) → Option (Connection × BufferList × List Effect)
  | [] => some (c, l, [])
  | data :: more => do
    let (c, l, effects) ← handleSocketData P c l data
    let (c, l, effects') ← receive P c l more
    return (c, l, effects ++ effects')

/-- Pieces are handled as the parser takes them. -/
lemma receive_eq {l : BufferList} (hwf : l.Wf) {pieces : List (List UInt8)}
    (hne : ∀ p ∈ pieces, p ≠ []) (before : List Effect) :
    ∃ c' l' effects, receive P c l pieces = some (c', l', effects) ∧ l'.Wf ∧
      pieces.foldl (parser P).feed (c, before, l.contents) = (c', before ++ effects, l'.contents) := by
  induction pieces generalizing c l before with
  | nil => exact ⟨c, l, [], rfl, hwf, by rw [List.append_nil]; rfl⟩
  | cons data more ih =>
    obtain ⟨c₁, l₁, effects₁, hfirst, hwf₁, hdrain⟩ :=
      handleSocketData_runs (P := P) (c := c) hwf (hne data List.mem_cons_self)
    rw [BufferList.contents_write hwf] at hdrain
    obtain ⟨c₂, l₂, effects₂, hmore, hwf₂, hfold⟩ :=
      ih (c := c₁) hwf₁ (fun p hp => hne p (List.mem_cons_of_mem _ hp)) (before ++ effects₁)
    refine ⟨c₂, l₂, effects₁ ++ effects₂, ?_, hwf₂, ?_⟩
    · rw [receive, hfirst]
      simp only [Option.bind_eq_bind, Option.bind_some, hmore]
      rfl
    · rw [List.foldl_cons, ← List.append_assoc, ← hfold, Incremental.feed]
      simp only [hdrain]

/-- What all the pieces come to. -/
lemma receive_drain {pieces : List (List UInt8)} (hne : ∀ p ∈ pieces, p ≠ [])
    (hpieces : pieces ≠ []) :
    ∃ c' l' effects, receive P c .empty pieces = some (c', l', effects) ∧
      (parser P).drain c pieces.flatten = (c', effects, l'.contents) := by
  obtain ⟨c', l', effects, hreceive, -, hfold⟩ :=
    receive_eq (P := P) (c := c) BufferList.wf_empty hne []
  refine ⟨c', l', effects, hreceive, ?_⟩
  rcases List.exists_cons_of_ne_nil hpieces with ⟨piece, more, rfl⟩
  rw [Incremental.feed_pieces, Incremental.feed, BufferList.contents_empty, List.nil_append,
    List.nil_append] at hfold
  exact hfold

/-- **The pieces do not matter.** However the same bytes are cut, the connection does the same
in the same order, ends in the same state, and has the same bytes left. -/
theorem receive_pieces (P : Platform) (c : Connection) {pieces pieces' : List (List UInt8)}
    (hne : ∀ p ∈ pieces, p ≠ []) (hne' : ∀ p ∈ pieces', p ≠ [])
    (hflatten : pieces.flatten = pieces'.flatten) :
    ∃ c' l l' effects, receive P c .empty pieces = some (c', l, effects) ∧
      receive P c .empty pieces' = some (c', l', effects) ∧ l.contents = l'.contents := by
  by_cases hnil : pieces = []
  · -- no bytes at all
    have hnil' : pieces' = [] := by
      rw [hnil, List.flatten_nil] at hflatten
      by_contra hcons
      rcases List.exists_cons_of_ne_nil hcons with ⟨piece, more, rfl⟩
      rw [List.flatten_cons] at hflatten
      exact hne' piece List.mem_cons_self (List.append_eq_nil_iff.mp hflatten.symm).1
    subst hnil hnil'
    exact ⟨c, _, _, [], rfl, rfl, rfl⟩
  · have hnil' : pieces' ≠ [] := by
      rintro rfl
      rcases List.exists_cons_of_ne_nil hnil with ⟨piece, more, rfl⟩
      rw [List.flatten_cons, List.flatten_nil] at hflatten
      exact hne piece List.mem_cons_self (List.append_eq_nil_iff.mp hflatten).1
    obtain ⟨c₁, l₁, effects₁, hreceive₁, hdrain₁⟩ := receive_drain (P := P) (c := c) hne hnil
    obtain ⟨c₂, l₂, effects₂, hreceive₂, hdrain₂⟩ := receive_drain (P := P) (c := c) hne' hnil'
    rw [hflatten, hdrain₂, Prod.mk.injEq, Prod.mk.injEq] at hdrain₁
    rcases hdrain₁ with ⟨rfl, rfl, hrest⟩
    exact ⟨c₂, l₁, l₂, effects₂, hreceive₁, hreceive₂, hrest.symm⟩

/-- The same frame, cut in two ways. -/
theorem hi_cut_twice : ∃ c' l l' effects,
    receive .plain (new 100 100 true (fun _ => 0) (fun _ => 0)) .empty [[0x81], [0x02, 72, 105]]
      = some (c', l, effects) ∧
    receive .plain (new 100 100 true (fun _ => 0) (fun _ => 0)) .empty [[0x81, 0x02, 72], [105]]
      = some (c', l', effects) ∧ l.contents = l'.contents :=
  receive_pieces .plain (new 100 100 true (fun _ => 0) (fun _ => 0)) (by simp) (by simp) rfl

end Connection

end Syndilights.Displayclient.WebSocket
