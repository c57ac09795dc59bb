import Syndilights.ActionSystem
import Syndilights.V2.HandshakeTheorems
import Syndilights.V2.SerialConfigure

/-!
# When host and board agree on the length

The same four bytes are a command in `loop` and a length in `setup`, and the host does not compare
the echo. The two agree as long as the host opens the port of a board that has just restarted,
and nobody gives up before the length is through.
-/

namespace Syndilights.V2

open ActionSystem

namespace SerialConfigure

/-! ## The property -/

/-- If the open port was returned, the board is running with the length of the host. -/
def Agrees (r : Rig) : Prop :=
  r.host = .returned → ∃ teensy, r.board = .running teensy ∧
    teensy.ledsPerStrip = max_height * max_width

/-- What `setup` has received, while it waits for more. -/
def Board.received : Board → Option (List UInt8)
  | .setup received => some received
  | _ => none

/-- The port is opened when `setup` waits for its first byte and nothing is on the lines. From
then on `setup` gives up only with both bytes of the length that are not zero, and the host only
after `setup`. -/
def Timely (r : Rig) : Action → Prop
  | .open _ => r.board.received = some [] ∧ r.toBoard = [] ∧ r.toHost = []
  | .setupTimeout _ =>
    r.host = .opened ∨ r.host = .waiting → ∀ received ∈ r.board.received, 2 ≤ received.length
  | .readTimeout => r.board.received = none
  | _ => True

lemma Board.received_eq_some {board : Board} {bytes : List UInt8} :
    board.received = some bytes ↔ board = .setup bytes := by
  cases board <;> simp [Board.received]

/-! ## The invariant -/

/-- `setup` has received the first `n` bytes of the length, and the others are on the line. -/
structure Configuring (n : ℕ) (r : Rig) : Prop where
  lt : n < 4
  board : r.board = .setup ((pack ledsPerStrip).take n)
  toBoard : r.toBoard = (pack ledsPerStrip).drop n
  toHost : r.toHost = []

/-- The board is in `loop` with the right length, and discards what is on the line. -/
structure Configured (r : Rig) : Prop where
  board : ∃ teensy, r.board = .running teensy ∧ teensy.ledsPerStrip = ledsPerStrip ∧
    teensy.mode = .loop
  toBoard : ∀ b ∈ r.toBoard, b = 0

/-- What holds as soon as the host has the port. -/
def Settled (r : Rig) : Prop :=
  match r.host with
  | .opened => r.board = .setup [] ∧ r.toBoard = [] ∧ r.toHost = []
  | .waiting => (∃ n, Configuring n r) ∨ Configured r
  | .returned => Configured r
  | _ => True

/-- The host has the port. -/
def Host.holds (host : Host) : Prop := host = .opened ∨ host = .waiting ∨ host = .returned

lemma settled_of_not_holds {r : Rig} (h : ¬ r.host.holds) : Settled r := by
  unfold Settled
  unfold Host.holds at h
  split
  · rename_i hhost
    exact absurd (Or.inl hhost) h
  · rename_i hhost
    exact absurd (Or.inr (Or.inl hhost)) h
  · rename_i hhost
    exact absurd (Or.inr (Or.inr hhost)) h
  · trivial

lemma Settled.agrees {r : Rig} (h : Settled r) : Agrees r := by
  intro hhost
  rw [Settled, hhost] at h
  rcases h.board with ⟨teensy, hboard, hlength, -⟩
  exact ⟨teensy, hboard, hlength⟩

/-! ## The board -/

/-- Two bytes of the length are enough, the others are zero. -/
lemma from_bytes_take {n : ℕ} (h : 2 ≤ n) :
    from_bytes ((pack ledsPerStrip).take n) = ledsPerStrip := by
  rcases Nat.lt_or_ge n 4 with hlt | hge
  · interval_cases n <;> decide
  · rw [List.take_of_length_le (by rwa [length_pack]), from_bytes_pack (by decide)]

/-- Behind the second byte of the length there are only zeros. -/
lemma eq_zero_of_mem_drop {n : ℕ} (h : 2 ≤ n) {b : UInt8} (hb : b ∈ (pack ledsPerStrip).drop n) :
    b = 0 := by
  have hmem : b ∈ (pack ledsPerStrip).drop 2 := by
    rw [show n = 2 + (n - 2) by omega, ← List.drop_drop] at hb
    exact List.mem_of_mem_drop hb
  have hzeros : (pack ledsPerStrip).drop 2 = [0, 0] := by decide
  rw [hzeros] at hmem
  simpa using hmem

/-- `setup` ends with at least two bytes of the length. -/
lemma Configured.of_attach {r : Rig} {n : ℕ} (hn : 2 ≤ n)
    (htoBoard : r.toBoard = (pack ledsPerStrip).drop n) (memory : ℕ → UInt8) :
    Configured (r.attach ((pack ledsPerStrip).take n) memory) where
  board := ⟨_, rfl, from_bytes_take hn, rfl⟩
  toBoard b hb := by
    rw [Rig.attach, htoBoard] at hb
    exact eq_zero_of_mem_drop hn hb

/-- A configured board discards a zero. -/
lemma Configured.receive {r : Rig} {b : UInt8} {bytes : List UInt8} (h : Configured r)
    (hbytes : r.toBoard = b :: bytes) (memory : ℕ → UInt8) :
    Configured (Rig.receive { r with toBoard := bytes } b memory) ∧
      (Rig.receive { r with toBoard := bytes } b memory).host = r.host := by
  rcases h.board with ⟨teensy, hboard, hlength, hmode⟩
  have hzero : b = 0 := h.toBoard b (by rw [hbytes]; exact List.mem_cons_self)
  have hbyte : teensy.byte b = teensy := by
    rw [Teensy.byte, hmode, hzero]
    rfl
  have hreceive :
      Rig.receive { r with toBoard := bytes } b memory = { r with toBoard := bytes } := by
    unfold Rig.receive
    rw [hboard]
    dsimp only
    rw [hbyte, hmode, if_neg (by decide)]
  rw [hreceive]
  refine ⟨⟨⟨teensy, hboard, hlength, hmode⟩, fun c hc => h.toBoard c ?_⟩, rfl⟩
  rw [hbytes]
  exact List.mem_cons_of_mem b hc

/-- The board receives the next byte of the length. -/
lemma Configuring.receive {r : Rig} {n : ℕ} {b : UInt8} {bytes : List UInt8}
    (h : Configuring n r) (hbytes : r.toBoard = b :: bytes) (memory : ℕ → UInt8) :
    ((∃ m, Configuring m (Rig.receive { r with toBoard := bytes } b memory)) ∨
      Configured (Rig.receive { r with toBoard := bytes } b memory)) ∧
      (Rig.receive { r with toBoard := bytes } b memory).host = r.host := by
  have hlt := h.lt
  have hn : n < (pack ledsPerStrip).length := by rwa [length_pack]
  have hdrop := h.toBoard
  rw [hbytes, List.drop_eq_getElem_cons hn, List.cons.injEq] at hdrop
  rcases hdrop with ⟨rfl, rfl⟩
  have hreceive : Rig.receive { r with toBoard := (pack ledsPerStrip).drop (n + 1) }
      (pack ledsPerStrip)[n] memory =
      if n + 1 < 4 then
        { r with
          toBoard := (pack ledsPerStrip).drop (n + 1)
          board := .setup ((pack ledsPerStrip).take (n + 1)) }
      else Rig.attach { r with toBoard := (pack ledsPerStrip).drop (n + 1) }
        ((pack ledsPerStrip).take (n + 1)) memory := by
    unfold Rig.receive
    rw [h.board]
    dsimp only
    rw [List.length_take_of_le hn.le, List.take_append_getElem hn]
  rw [hreceive]
  split_ifs with hmore
  · exact ⟨Or.inl ⟨n + 1, hmore, rfl, rfl, h.toHost⟩, rfl⟩
  · exact ⟨Or.inr (Configured.of_attach (by omega) rfl memory), rfl⟩

/-- Without the port, the host does not notice the board. -/
lemma not_holds_receive {r : Rig} (h : ¬ r.host.holds) (b : UInt8) (memory : ℕ → UInt8) :
    ¬ (r.receive b memory).host.holds := by
  unfold Rig.receive
  split
  · exact h
  · split_ifs
    · exact h
    · exact h
  · split_ifs
    · have hhost : ¬ (r.host = .opened ∨ r.host = .waiting) := by
        unfold Host.holds at h
        tauto
      rw [Rig.restart, if_neg hhost]
      exact h
    · exact h

/-! ## Steps and runs -/

/-- An operation of the board: none while the host has only opened the port, and otherwise one
that goes on with the configuration and keeps the host. -/
lemma Settled.board_step {r r' : Rig} (h : Settled r)
    (hfree : ¬ r.host.holds → ¬ r'.host.holds)
    (hopened : r.host = .opened → r.board = .setup [] → r.toBoard ≠ [])
    (hconfiguring : ∀ n, r.host = .waiting → Configuring n r →
      ((∃ m, Configuring m r') ∨ Configured r') ∧ r'.host = r.host)
    (hconfigured : Configured r → Configured r' ∧ r'.host = r.host) : Settled r' := by
  by_cases hholds : r.host.holds
  · rcases hholds with hhost | hhost | hhost
    · rw [Settled, hhost] at h
      exact absurd h.2.1 (hopened hhost h.1)
    · rw [Settled, hhost] at h
      have hnext : ((∃ m, Configuring m r') ∨ Configured r') ∧ r'.host = r.host := by
        rcases h with ⟨n, hn⟩ | hdone
        · exact hconfiguring n hhost hn
        · exact ⟨Or.inr (hconfigured hdone).1, (hconfigured hdone).2⟩
      rw [Settled, hnext.2, hhost]
      exact hnext.1
    · rw [Settled, hhost] at h
      rw [Settled, (hconfigured h).2, hhost]
      exact (hconfigured h).1
  · exact settled_of_not_holds (hfree hholds)

/-- The board reads a byte. -/
lemma Settled.receive {r : Rig} {b : UInt8} {bytes : List UInt8} (h : Settled r)
    (hbytes : r.toBoard = b :: bytes) (memory : ℕ → UInt8) :
    Settled (Rig.receive { r with toBoard := bytes } b memory) := by
  apply h.board_step
  · intro hfree
    exact not_holds_receive (r := { r with toBoard := bytes }) hfree b memory
  · intro _ _
    rw [hbytes]
    exact List.cons_ne_nil b bytes
  · intro n _ hn
    exact hn.receive hbytes memory
  · intro hdone
    exact hdone.receive hbytes memory

/-- `setup` gives up. -/
lemma Settled.setupTimeout {r : Rig} {received : List UInt8} (h : Settled r)
    (hboard : r.board = .setup received)
    (htimely : r.host = .opened ∨ r.host = .waiting → 2 ≤ received.length)
    (memory : ℕ → UInt8) : Settled (r.attach received memory) := by
  apply h.board_step
  · exact id
  · intro hhost hempty
    have hlength := htimely (Or.inl hhost)
    rw [hboard, Board.setup.injEq] at hempty
    rw [hempty] at hlength
    exact absurd hlength (by decide)
  · intro n hhost hn
    have hlength := htimely (Or.inr hhost)
    have hreceived := hn.board
    rw [hboard, Board.setup.injEq] at hreceived
    rw [hreceived] at hlength ⊢
    rw [List.length_take] at hlength
    exact ⟨Or.inr (Configured.of_attach (by omega) hn.toBoard memory), rfl⟩
  · intro hdone
    rcases hdone.board with ⟨teensy, hrunning, -⟩
    rw [hboard] at hrunning
    exact absurd hrunning (by simp)

/-- A time-out of `loop` means nothing to a configured board. -/
lemma Settled.loopTimeout {r : Rig} {teensy : Teensy} (h : Settled r)
    (hboard : r.board = .running teensy) :
    Settled { r with board := .running teensy.timeout } := by
  apply h.board_step
  · exact id
  · intro _ hsetup
    rw [hboard] at hsetup
    exact absurd hsetup (by simp)
  · intro n _ hn
    have hsetup := hn.board
    rw [hboard] at hsetup
    exact absurd hsetup (by simp)
  · intro hdone
    rcases hdone.board with ⟨t, ht, hlength, hmode⟩
    rw [hboard, Board.running.injEq] at ht
    rcases ht with rfl
    refine ⟨⟨⟨teensy, ?_, hlength, hmode⟩, hdone.toBoard⟩, rfl⟩
    rw [Teensy.timeout, hmode]

/-- The board comes back, so the host had not got the port. -/
lemma Settled.boot {r : Rig} (h : Settled r) (hboard : r.board = .booting) :
    Settled { r with board := .setup [] } := by
  apply h.board_step
  · exact id
  · intro _ hsetup
    rw [hboard] at hsetup
    exact absurd hsetup (by simp)
  · intro n _ hn
    have hsetup := hn.board
    rw [hboard] at hsetup
    exact absurd hsetup (by simp)
  · intro hdone
    rcases hdone.board with ⟨teensy, hrunning, -⟩
    rw [hboard] at hrunning
    exact absurd hrunning (by simp)

/-- The host reads the echo, or gives up waiting for it, when `setup` is over. -/
lemma Settled.configured {r : Rig} (h : Settled r) (hhost : r.host = .waiting)
    (hover : r.board.received = none ∨ r.toHost ≠ []) : Configured r := by
  rw [Settled, hhost] at h
  rcases h with ⟨n, hconfiguring⟩ | hconfigured
  · rw [hconfiguring.board, hconfiguring.toHost] at hover
    simp [Board.received] at hover
  · exact hconfigured

/-- The host opens the port of a board that waits in `setup`. -/
lemma Settled.of_open {r : Rig} {arrived : ℕ} (h : Timely r (.open arrived)) :
    Settled { r with host := .opened, toHost := r.toHost.drop arrived } := by
  rcases h with ⟨hreceived, htoBoard, htoHost⟩
  refine ⟨Board.received_eq_some.mp hreceived, htoBoard, ?_⟩
  dsimp only
  rw [htoHost, List.drop_nil]

/-- The host writes the length. -/
lemma Settled.write {r : Rig} (h : Settled r) (hhost : r.host = .opened) :
    Settled { r with host := .waiting, toBoard := r.toBoard ++ pack ledsPerStrip } := by
  rw [Settled, hhost] at h
  rcases h with ⟨hboard, htoBoard, htoHost⟩
  refine Or.inl ⟨0, by decide, hboard, ?_, htoHost⟩
  dsimp only
  rw [htoBoard, List.nil_append, List.drop_zero]

/-- One timely step. -/
lemma settled_step {r r' : Rig} {a : Action} (h : Settled r) (htimely : Timely r a)
    (hstep : r.step a = some r') : Settled r' := by
  cases a with
  | reboot =>
    rcases of_guard hstep with ⟨-, rfl⟩
    trivial
  | wake =>
    rcases of_guard hstep with ⟨-, rfl⟩
    trivial
  | «open» arrived =>
    rcases of_guard hstep with ⟨-, rfl⟩
    exact Settled.of_open htimely
  | openFails =>
    rcases of_guard hstep with ⟨-, rfl⟩
    trivial
  | write =>
    rcases of_guard hstep with ⟨hhost, rfl⟩
    exact h.write hhost
  | read =>
    rcases of_guard hstep with ⟨⟨hhost, hlength⟩, rfl⟩
    have hconfigured := h.configured hhost (Or.inr (List.ne_nil_of_length_pos (by omega)))
    exact ⟨hconfigured.board, hconfigured.toBoard⟩
  | readTimeout =>
    rcases of_guard hstep with ⟨hhost, rfl⟩
    have hconfigured := h.configured hhost (Or.inl htimely)
    exact ⟨hconfigured.board, hconfigured.toBoard⟩
  | boot =>
    rw [Rig.step] at hstep
    split at hstep
    · rename_i hboard
      rw [Option.some.injEq] at hstep
      rcases hstep with rfl
      exact h.boot hboard
    · exact absurd hstep (by simp)
  | receive memory =>
    rw [Rig.step] at hstep
    split at hstep
    · rename_i b bytes hbytes
      rcases of_guard hstep with ⟨-, rfl⟩
      exact h.receive hbytes memory
    · exact absurd hstep (by simp)
  | setupTimeout memory =>
    rw [Rig.step] at hstep
    split at hstep
    · rename_i received hboard
      rw [Option.some.injEq] at hstep
      rcases hstep with rfl
      apply h.setupTimeout hboard
      intro hhost
      exact htimely hhost received (Board.received_eq_some.mpr hboard)
    · exact absurd hstep (by simp)
  | loopTimeout =>
    rw [Rig.step] at hstep
    split at hstep
    · rename_i teensy hboard
      rw [Option.some.injEq] at hstep
      rcases hstep with rfl
      exact h.loopTimeout hboard
    · exact absurd hstep (by simp)

/-- **When the lengths agree.** Whatever the board is doing at first, and in whatever order the
two programs take their steps: if the port is opened when `setup` waits for its first byte, and
nobody gives up too early, a returned port belongs to a board with the length of the host. -/
theorem serialConfigure_agrees (board : Board) (toBoard toHost : List UInt8)
    (actions : List Action) (r : Rig)
    (hmeets : Meets Rig.step Timely (Rig.start board toBoard toHost) actions)
    (hrun : run Rig.step (Rig.start board toBoard toHost) actions = some r) : Agrees r :=
  (run_invariant (settled_of_not_holds (by simp [Rig.start, Host.holds]))
    (fun _ _ _ hinv hok ha => settled_step hinv hok ha) hmeets hrun).agrees

/-! ## Runs on fixed inputs -/

instance : ∀ r a, Decidable (Timely r a)
  | r, .open _ =>
    inferInstanceAs (Decidable (r.board.received = some [] ∧ r.toBoard = [] ∧ r.toHost = []))
  | r, .setupTimeout _ => inferInstanceAs (Decidable (r.host = .opened ∨ r.host = .waiting →
      ∀ received ∈ r.board.received, 2 ≤ received.length))
  | r, .readTimeout => inferInstanceAs (Decidable (r.board.received = none))
  | _, .reboot | _, .wake | _, .openFails | _, .write | _, .read | _, .boot | _, .receive _
  | _, .loopTimeout => isTrue trivial

/-- A memory of zeros. -/
def blank : ℕ → UInt8 := fun _ => 0

/-- A board in `loop` whose `setup` gave up without any byte. -/
def unconfigured : Board := .running ⟨0, blank, .loop, []⟩

/-- The board restarts, and is back before the host opens the port. -/
def promptRun : List Action :=
  [.reboot, .receive blank, .boot, .wake, .open 0, .write, .receive blank, .receive blank,
    .receive blank, .receive blank, .read]

lemma timely_promptRun : Meets Rig.step Timely (Rig.start unconfigured [] []) promptRun :=
  .cons trivial rfl <| .cons trivial rfl <| .cons trivial rfl <| .cons trivial rfl <|
  .cons (by decide) rfl <| .cons trivial rfl <| .cons trivial rfl <| .cons trivial rfl <|
  .cons trivial rfl <| .cons trivial rfl <| .cons trivial rfl .nil

/-- The board that gave up is configured after a restart. -/
theorem serialConfigure_agrees_promptRun :
    ∃ r, run Rig.step (Rig.start unconfigured [] []) promptRun = some r ∧ r.host = .returned ∧
      Agrees r := by
  obtain ⟨r, hrun, hhost⟩ : ∃ r, run Rig.step (Rig.start unconfigured [] []) promptRun = some r ∧
      r.host = .returned := ⟨_, rfl, rfl⟩
  refine ⟨r, hrun, hhost, ?_⟩
  exact serialConfigure_agrees unconfigured [] [] promptRun r timely_promptRun hrun

/-- The board still waits in its first `setup`. -/
def earlyRun : List Action :=
  [.reboot, .receive blank, .receive blank, .receive blank, .receive blank, .wake, .open 0,
    .write, .receive blank, .receive blank, .receive blank, .receive blank, .read]

/-- It takes the command for its length, 33, and discards the length; the port is returned. -/
theorem command_taken_for_length :
    ∃ r, run Rig.step (Rig.start (.setup []) [] []) earlyRun = some r ∧ ¬ Agrees r := by
  obtain ⟨r, hrun, hhost, hboard⟩ : ∃ r,
      run Rig.step (Rig.start (.setup []) [] []) earlyRun = some r ∧ r.host = .returned ∧
        r.board = .running ⟨33, blank, .loop, []⟩ := ⟨_, rfl, rfl, rfl⟩
  refine ⟨r, hrun, fun h => ?_⟩
  rcases h hhost with ⟨teensy, hrunning, hlength⟩
  rw [hboard, Board.running.injEq] at hrunning
  rw [← hrunning] at hlength
  exact absurd hlength (by decide)

end SerialConfigure

end Syndilights.V2
