import Syndilights.Displayclient.FragmentTheorems

/-!
# The life of a connection

Whatever happens to a connection and in whatever order, it emits messages and answers pings
until it ends, and after its end it only closes. The exception is a frame with an rsv bit: the
connection is dropped, and then the frame is processed all the same.
-/

namespace Syndilights.Displayclient.WebSocket

open WebSocket.Frame

namespace Connection

/-- What follows a frame with an rsv bit: the drop, and what the frame would have done. -/
def Rsv (P : Platform) (max : ℕ) (tail : List Effect) : Prop :=
  ∃ sent quiet final, tail = [.discardQueue, sent,
      .close CLOSE_REASON_PROTOCOL_ERROR
        (some "Unsupported usage of rsv bits without negotiated extension."),
      .destroySocket] ++ (quiet ++ final) ∧
    Final sent ∧ (∀ e ∈ quiet, Quiet P max e) ∧ ∀ e ∈ final, Final e

/-- What a connection has done, when the grace period has ended `graces` times. -/
structure Trace (P : Platform) (max graces : ℕ) (c : Connection) (effects : List Effect) :
    Prop where
  shape : ∃ quiet tail, effects = quiet ++ tail ∧ (∀ e ∈ quiet, Quiet P max e) ∧
    (c.connected = true → tail = []) ∧
    ((∀ e ∈ tail, Final e) ∧ closes tail ≤ graces + (if c.closeEventEmitted then 1 else 0) ∨
      Rsv P max tail)
  emitted : c.closeEventEmitted = true → 0 < closes effects

section
variable {P : Platform} {max graces : ℕ} {c c' : Connection} {effects more : List Effect}

/-! ## Traces -/

/-- Only the two flags matter. -/
lemma Trace.congr (h : Trace P max graces c effects) (hconnected : c'.connected = c.connected)
    (hemitted : c'.closeEventEmitted = c.closeEventEmitted) :
    Trace P max graces c' effects := by
  obtain ⟨hshape, hclose⟩ := h
  rw [← hconnected, ← hemitted] at hshape
  rw [← hemitted] at hclose
  exact ⟨hshape, hclose⟩

/-- Nothing has happened yet. -/
lemma trace_nil (hemitted : c.closeEventEmitted = false) : Trace P max graces c [] where
  shape := by
    refine ⟨[], [], rfl, ?_, fun _ => rfl, .inl ⟨?_, Nat.zero_le _⟩⟩
    · intro e he
      cases he
    · intro e he
      cases he
  emitted h := by
    rw [hemitted] at h
    cases h

/-- An open connection has done nothing but its work. -/
lemma Trace.quiet (h : Trace P max graces c effects) (hopen : c.connected = true) :
    ∀ e ∈ effects, Quiet P max e := by
  obtain ⟨quiet, tail, rfl, hquiet, htail, -⟩ := h.shape
  rw [htail hopen, List.append_nil]
  exact hquiet

/-- The work so far, and a trace. -/
lemma Trace.quiet_append (hquiet : ∀ e ∈ effects, Quiet P max e)
    (h : Trace P max graces c more) : Trace P max graces c (effects ++ more) where
  shape := by
    obtain ⟨quiet, tail, rfl, hquiet', hrest⟩ := h.shape
    refine ⟨effects ++ quiet, tail, (List.append_assoc _ _ _).symm, ?_, hrest⟩
    intro e he
    exact (List.mem_append.mp he).elim (hquiet e) (hquiet' e)
  emitted hclose := by
    rw [closes_append]
    exact Nat.add_pos_right _ (h.emitted hclose)

lemma Trace.mono (h : Trace P max 0 c effects) : Trace P max graces c effects where
  shape := by
    obtain ⟨quiet, tail, heq, hquiet, htail, hend⟩ := h.shape
    exact ⟨quiet, tail, heq, hquiet, htail, hend.imp_left fun hfinal => ⟨hfinal.1, by omega⟩⟩
  emitted := h.emitted

/-- A trace, and something final. -/
lemma Trace.append_final (h : Trace P max graces c effects) (hfinal : ∀ e ∈ more, Final e)
    (hopen : c'.connected = true → c.connected = true ∧ more = []) {k : ℕ}
    (hcloses : closes more + (if c.closeEventEmitted then 1 else 0)
      ≤ k + (if c'.closeEventEmitted then 1 else 0))
    (hemitted : c'.closeEventEmitted = true → c.closeEventEmitted = true ∨ 0 < closes more) :
    Trace P max (graces + k) c' (effects ++ more) where
  shape := by
    obtain ⟨quiet, tail, rfl, hquiet, htail, hend⟩ := h.shape
    refine ⟨quiet, tail ++ more, List.append_assoc _ _ _, hquiet, ?_, ?_⟩
    · intro hconnected
      rw [htail (hopen hconnected).1, (hopen hconnected).2]
      rfl
    · rcases hend with ⟨htail', hcount⟩ | ⟨sent, quiet', final, rfl, hsent, hquiet', hfinal'⟩
      · refine .inl ⟨?_, ?_⟩
        · intro e he
          exact (List.mem_append.mp he).elim (htail' e) (hfinal e)
        · rw [closes_append]
          omega
      · refine .inr ⟨sent, quiet', final ++ more, ?_, hsent, hquiet', ?_⟩
        · simp only [List.append_assoc]
        · intro e he
          exact (List.mem_append.mp he).elim (hfinal' e) (hfinal e)
  emitted hclose := by
    rw [closes_append]
    rcases hemitted hclose with hbefore | hmore
    · exact Nat.add_pos_left (h.emitted hbefore) _
    · exact Nat.add_pos_right _ hmore

/-- The trace of one step. -/
lemma Step.trace {r : Connection × List Effect} (h : Step P c r)
    (hemitted : c.closeEventEmitted = false) : Trace P c.maxMessage 0 r.1 r.2 := by
  obtain ⟨quiet, final, heffects, hquiet, hfinal, hcloses, hconnected⟩ := h.shape
  have hcount : closes r.2 = closes final := by
    rw [heffects, closes_append, closes_quiet hquiet, Nat.zero_add]
  have hflag := h.emitted
  rw [hemitted, Bool.false_or, hcount] at hflag
  refine ⟨⟨quiet, final, heffects, hquiet, ?_, .inl ⟨hfinal, ?_⟩⟩, ?_⟩
  · intro hopen
    rw [hconnected, Bool.and_eq_true, decide_eq_true_eq] at hopen
    exact hopen.2
  · rw [hflag]
    by_cases hpos : 0 < closes final
    · rw [if_pos (decide_eq_true hpos)]
      omega
    · omega
  · intro hclose
    rw [hflag, decide_eq_true_eq] at hclose
    rw [hcount]
    exact hclose

/-! ## Frames and bytes -/

/-- A connection that is open keeps its invariant, and its limits. -/
def Live (max : ℕ) (c : Connection) : Prop := c.connected = true → Inv c ∧ c.maxMessage = max

lemma Step.maxMessage {r : Connection × List Effect} (h : Step P c r) :
    r.1.maxMessage = c.maxMessage := by
  rw [Connection.maxMessage, h.frameSize, h.messageSize, Connection.maxMessage]

/-- The next frame starts. -/
lemma inv_newFrame (h : Inv c) : Inv { c with currentFrame := c.newFrame } :=
  ⟨rfl, h.first, h.size, h.bound, h.waiting, h.emitted⟩

/-- A frame that is handed to the application. -/
lemma quiet_frame (frame : Frame) :
    ∀ e ∈ (if c.assembleFragments then [] else [Effect.frame frame]), Quiet P max e := by
  intro e he
  split_ifs at he
  · cases he
  · rw [List.mem_singleton] at he
    rw [he]
    trivial

/-- A frame with an rsv bit. -/
lemma handleFrame_rsv (hinv : Inv c) (hwhole : Whole c.maxReceivedFrameSize c.currentFrame)
    (hprotocol : ¬ c.currentFrame.protocolError = true)
    (hlarge : ¬ c.currentFrame.frameTooLarge = true) (hrsv : hasRsv c.currentFrame = true) :
    (handleFrame P c).1.connected = false ∧
      Trace P c.maxMessage 0 (handleFrame P c).1 (handleFrame P c).2 := by
  have hdrop : Step P c (c.drop CLOSE_REASON_PROTOCOL_ERROR
      (some "Unsupported usage of rsv bits without negotiated extension.") false) :=
    step_drop rfl rfl rfl hinv.waiting hinv _ _
  have hprocess := step_processFrame (P := P) hdrop.inv hwhole
  obtain ⟨quiet, final, heffects, hquiet, hfinal, -, hconnected⟩ := hprocess.shape
  rw [handleFrame, if_neg hprotocol, if_neg hlarge, if_pos hrsv]
  dsimp only
  refine ⟨hconnected.trans (Bool.false_and _), ⟨[], _, rfl, ?_, ?_, .inr ?_⟩, ?_⟩
  · intro e he
    cases he
  · intro hopen
    rw [hconnected.trans (Bool.false_and _)] at hopen
    cases hopen
  · let description := some "Unsupported usage of rsv bits without negotiated extension."
    let emitted := if c.assembleFragments then [] else [Effect.frame c.currentFrame]
    refine ⟨c.sendCloseFrame CLOSE_REASON_PROTOCOL_ERROR description true, emitted ++ quiet, final,
      ?_, rfl, ?_, hfinal⟩
    · have hassoc (dropped : List Effect) :
          dropped ++ emitted ++ (quiet ++ final) = dropped ++ (emitted ++ quiet ++ final) := by
        simp only [List.append_assoc]
      rw [heffects]
      exact hassoc (c.drop CLOSE_REASON_PROTOCOL_ERROR description false).2
    · intro e he
      exact (List.mem_append.mp he).elim (quiet_frame _ e) (hquiet e)
  · intro _
    rw [closes_append, closes_append]
    exact Nat.add_pos_left (Nat.add_pos_left Nat.zero_lt_one _) _

/-- **One frame**: what it does, and what an open connection keeps. -/
lemma handleFrame_trace (hinv : Inv c) (hopen : c.connected = true)
    (hwhole : c.currentFrame.protocolError = false → c.currentFrame.frameTooLarge = false →
      Whole c.maxReceivedFrameSize c.currentFrame) :
    Live c.maxMessage (handleFrame P c).1 ∧
      Trace P c.maxMessage 0 (handleFrame P c).1 (handleFrame P c).2 := by
  have hemitted := hinv.emitted hopen
  have hdrop (reasonCode : ℤ) (description : Option String) :
      Live c.maxMessage (c.drop reasonCode description false).1 ∧ Trace P c.maxMessage 0
        (c.drop reasonCode description false).1 (c.drop reasonCode description false).2 :=
    ⟨fun h => Bool.noConfusion h,
      (step_drop rfl rfl rfl hinv.waiting hinv reasonCode description).trace hemitted⟩
  by_cases hprotocol : c.currentFrame.protocolError = true
  · rw [handleFrame, if_pos hprotocol]
    exact hdrop _ _
  by_cases hlarge : c.currentFrame.frameTooLarge = true
  · rw [handleFrame, if_neg hprotocol, if_pos hlarge]
    exact hdrop _ _
  have hframe := hwhole (by simpa using hprotocol) (by simpa using hlarge)
  by_cases hrsv : hasRsv c.currentFrame = true
  · obtain ⟨hclosed, htrace⟩ := handleFrame_rsv (P := P) hinv hframe hprotocol hlarge hrsv
    refine ⟨fun hconnected => ?_, htrace⟩
    rw [hclosed] at hconnected
    cases hconnected
  · have hprocess := step_processFrame (P := P) hinv hframe
    rw [handleFrame, if_neg hprotocol, if_neg hlarge, if_neg hrsv]
    dsimp only
    rw [List.nil_append]
    refine ⟨fun _ => ⟨inv_newFrame hprocess.inv, hprocess.maxMessage⟩, ?_⟩
    exact Trace.quiet_append (quiet_frame _) ((hprocess.trace hemitted).congr rfl rfl)

/-- A step of the current frame keeps the rest. -/
lemma inv_phase {frame : Frame} {x rest : List UInt8} {done : Bool} (hinv : Inv c)
    (hphase : phase c.currentFrame x = some (done, frame, rest)) :
    Inv { c with currentFrame := frame } :=
  ⟨(phase_max hphase).trans hinv.limit, hinv.first, hinv.size, hinv.bound, hinv.waiting,
    hinv.emitted⟩

/-- **One step**: what it does, and what an open connection keeps. -/
lemma next_trace {x rest : List UInt8} (hinv : Inv c) (hopen : c.connected = true)
    (hnext : (parser P).next c x = some (c', more, rest)) :
    Live c.maxMessage c' ∧ Trace P c.maxMessage 0 c' more := by
  change next P c x = _ at hnext
  rw [next, if_pos hopen] at hnext
  split at hnext
  · cases hnext
  · rename_i hphase
    cases hnext
    exact ⟨fun _ => ⟨inv_phase hinv hphase, rfl⟩, trace_nil (hinv.emitted hopen)⟩
  · rename_i hphase
    cases hnext
    exact handleFrame_trace (P := P) (inv_phase hinv hphase) hopen
      (fun hprotocol hlarge => hinv.limit ▸ phase_whole hphase hprotocol hlarge)

/-- **Any bytes.** -/
lemma drain_trace (hinv : Inv c) (hopen : c.connected = true) (x : List UInt8) :
    Live c.maxMessage ((parser P).drain c x).1 ∧
      Trace P c.maxMessage 0 ((parser P).drain c x).1 ((parser P).drain c x).2.1 := by
  induction c, x using Incremental.drain_induction (m := parser P) with
  | stop c x hnext =>
    rw [Incremental.drain_of_none hnext]
    exact ⟨fun _ => ⟨hinv, rfl⟩, trace_nil (hinv.emitted hopen)⟩
  | step c x c' out rest hnext ih =>
    rw [Incremental.drain_of_some hnext]
    obtain ⟨hlive, htrace⟩ := next_trace hinv hopen hnext
    by_cases hopen' : c'.connected = true
    · obtain ⟨hinv', hmax⟩ := hlive hopen'
      have hrest := ih hinv' hopen'
      rw [hmax] at hrest
      exact ⟨hrest.1, hrest.2.quiet_append (htrace.quiet hopen')⟩
    · rw [drain_closed (by simpa using hopen'), List.append_nil]
      exact ⟨hlive, htrace⟩

/-! ## Memory -/

section
variable (memory : ℕ → UInt8)

end

/-! ## Events -/

/-- What is kept by an event. -/
def Handled (P : Platform) (max graces : ℕ) (c : Connection) (effects : List Effect)
    (event : Event) (result : Option (Connection × BufferList × List Effect)) : Prop :=
  ∃ c' l' more, result = some (c', l', more) ∧ l'.Wf ∧ Live max c' ∧
    Trace P max (graces + [event].count .gracePeriodTimer) c' (effects ++ more) ∧
    (c.closeEventEmitted = true ∨ event = .socketClose → c'.closeEventEmitted = true)

variable {l : BufferList} (hwf : l.Wf) (htrace : Trace P max graces c effects)
include hwf htrace

/-- An event that does something final, or nothing. -/
lemma handled_final {event : Event} (hlive : Live max c')
    (hopen : c'.connected = true → c.connected = true ∧ more = []) (hfinal : ∀ e ∈ more, Final e)
    (hcloses : closes more + (if c.closeEventEmitted then 1 else 0)
      ≤ [event].count .gracePeriodTimer + (if c'.closeEventEmitted then 1 else 0))
    (hemitted : c'.closeEventEmitted = true → c.closeEventEmitted = true ∨ 0 < closes more)
    (hkept : c.closeEventEmitted = true ∨ event = .socketClose → c'.closeEventEmitted = true) :
    Handled P max graces c effects event (some (c', l, more)) :=
  ⟨c', l, more, rfl, hwf, hlive, htrace.append_final hfinal hopen hcloses hemitted, hkept⟩

/-- The grace period ends. -/
lemma handled_gracePeriodTimer :
    Handled P max graces c effects .gracePeriodTimer (handle P c l .gracePeriodTimer) := by
  have hlive : Live max c.handleGracePeriodTimer.1 := fun hopen => Bool.noConfusion hopen
  apply handled_final hwf htrace hlive
  · intro hopen
    cases hopen
  · intro e he
    simp only [handleGracePeriodTimer, drop, if_true, List.nil_append, List.mem_cons,
      List.not_mem_nil, or_false] at he
    rcases he with rfl | rfl | rfl <;> trivial
  · have hcloses : closes c.handleGracePeriodTimer.2 = 1 := rfl
    have hcount : [Event.gracePeriodTimer].count .gracePeriodTimer = 1 := by decide
    have hflag : c.handleGracePeriodTimer.1.closeEventEmitted = true := rfl
    rw [hcloses, hcount, if_pos hflag]
    split_ifs <;> omega
  · intro _
    exact .inr Nat.zero_lt_one
  · intro _
    rfl

omit hwf htrace in
/-- `close` is emitted, if it has not been. -/
lemma handleSocketClose_effects : ∃ reasonCode description, c.handleSocketClose.2
    = if c.closeEventEmitted then [] else [.close reasonCode description] := by
  simp only [handleSocketClose]
  by_cases hreason : c.closeReasonCode = -1
  · rw [if_pos hreason]
    exact ⟨_, _, rfl⟩
  · rw [if_neg hreason]
    exact ⟨_, _, rfl⟩

/-- The socket is closed. -/
lemma handled_socketClose :
    Handled P max graces c effects .socketClose (handle P c l .socketClose) := by
  have hconnected : c.handleSocketClose.1.connected = false := by
    rw [handleSocketClose, clearCloseTimer]
    split_ifs <;> rfl
  have hflag : c.handleSocketClose.1.closeEventEmitted = true := by
    rw [handleSocketClose, clearCloseTimer]
    split_ifs <;> rfl
  have hlive : Live max c.handleSocketClose.1 := by
    intro hopen
    rw [hconnected] at hopen
    cases hopen
  obtain ⟨reasonCode, description, heffects⟩ := handleSocketClose_effects (c := c)
  apply handled_final hwf htrace hlive
  · intro hopen
    rw [hconnected] at hopen
    cases hopen
  · intro e he
    rw [heffects] at he
    split_ifs at he
    · cases he
    · rw [List.mem_singleton] at he
      rw [he]
      trivial
  · rw [heffects, if_pos hflag]
    by_cases hclose : c.closeEventEmitted = true
    · rw [if_pos hclose, if_pos hclose]
      exact le_refl 1
    · rw [if_neg hclose, if_neg hclose]
      exact le_refl 1
  · intro _
    by_cases hclose : c.closeEventEmitted = true
    · exact .inl hclose
    · rw [heffects, if_neg hclose]
      exact .inr Nat.zero_lt_one
  · intro _
    exact hflag

variable (hlive : Live max c)
include hlive

/-- Data. -/
lemma handled_data {data : List UInt8} (hdata : data ≠ []) :
    Handled P max graces c effects (.data data) (handle P c l (.data data)) := by
  obtain ⟨c', l', more, hresult, hwf', hdrain⟩ :=
    handleSocketData_runs (P := P) (c := c) hwf hdata
  refine ⟨c', l', more, hresult, hwf', ?_⟩
  by_cases hopen : c.connected = true
  · obtain ⟨hinv, rfl⟩ := hlive hopen
    have hrest := drain_trace (P := P) hinv hopen (l.write data).contents
    rw [hdrain] at hrest
    refine ⟨hrest.1, hrest.2.mono.quiet_append (htrace.quiet hopen), ?_⟩
    rintro (hclose | hclose)
    · rw [hinv.emitted hopen] at hclose
      cases hclose
    · cases hclose
  · rw [drain_closed (by simpa using hopen), Prod.mk.injEq, Prod.mk.injEq] at hdrain
    obtain ⟨rfl, rfl, -⟩ := hdrain
    rw [List.append_nil]
    exact ⟨hlive, htrace, fun hclose => hclose.resolve_right (by simp)⟩

/-- `close`. -/
lemma handled_close : Handled P max graces c effects .close (handle P c l .close) := by
  rw [handle, close]
  split_ifs with hopen
  · apply handled_final hwf htrace (fun hopen' => Bool.noConfusion hopen')
    · intro hopen'
      cases hopen'
    · intro e he
      rw [List.mem_singleton] at he
      rw [he]
      rfl
    · exact le_refl _
    · exact fun h => .inl h
    · exact fun h => h.resolve_right (by simp)
  · apply handled_final hwf htrace hlive
    · exact fun h => ⟨h, rfl⟩
    · intro e he
      cases he
    · exact le_refl _
    · exact fun h => .inl h
    · exact fun h => h.resolve_right (by simp)

/-- The close timer fires. -/
lemma handled_closeTimer : Handled P max graces c effects .closeTimer (handle P c l .closeTimer) := by
  rw [handle, handleCloseTimer]
  split_ifs with hwaiting
  · -- an open connection does not wait
    have hclosed : c.connected = false := by
      by_contra hopen
      rw [(hlive (by simpa using hopen)).1.waiting] at hwaiting
      cases hwaiting
    have hopen (h : c.connected = true) : False := by
      rw [hclosed] at h
      cases h
    have hlive' : Live max { c with closeTimer := false, waitingForCloseResponse := false } :=
      fun h => (hopen h).elim
    apply handled_final hwf htrace hlive'
    · exact fun h => (hopen h).elim
    · intro e he
      rw [List.mem_singleton] at he
      rw [he]
      trivial
    · exact le_refl _
    · exact fun h => .inl h
    · exact fun h => h.resolve_right (by simp)
  · have hlive' : Live max { c with closeTimer := false } := fun h =>
      ⟨⟨(hlive h).1.limit, (hlive h).1.first, (hlive h).1.size, (hlive h).1.bound,
        (hlive h).1.waiting, (hlive h).1.emitted⟩, (hlive h).2⟩
    apply handled_final hwf htrace hlive'
    · exact fun h => ⟨h, rfl⟩
    · intro e he
      cases he
    · exact le_refl _
    · exact fun h => .inl h
    · exact fun h => h.resolve_right (by simp)

/-- **One event.** -/
lemma handled {event : Event} (hne : ∀ data, event = .data data → data ≠ []) :
    Handled P max graces c effects event (handle P c l event) := by
  cases event with
  | data data => exact handled_data hwf htrace hlive (hne data rfl)
  | close => exact handled_close hwf htrace hlive
  | closeTimer => exact handled_closeTimer hwf htrace hlive
  | gracePeriodTimer => exact handled_gracePeriodTimer hwf htrace
  | socketClose => exact handled_socketClose hwf htrace

end

end Connection

end Syndilights.Displayclient.WebSocket
