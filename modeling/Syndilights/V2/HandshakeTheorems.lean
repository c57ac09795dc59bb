import Syndilights.ActionSystem
import Syndilights.V2.Handshake
import Syndilights.V2.PipelineTheorems

/-!
# When the handshake is exact

Each side reads four bytes at a time and does not look at how many it got. As long as four
bytes are there when a read happens, both sides decode what the other one sent.
-/

namespace Syndilights.V2

open InTransit ActionSystem

/-! ## Four bytes -/

lemma length_pack (n : ℕ) : (pack n).length = 4 := by
  rw [pack, List.length_map, List.length_range]

/-- Four bytes fill the array. -/
lemma filled_pack (n : ℕ) : filled (pack n) = pack n := by
  rw [filled, length_pack]
  exact List.append_nil _

/-- The client reads back a number that is an `int`. -/
lemma unpack_pack {n : ℕ} (h : n < 2 ^ 31) : unpack (pack n) = n := by
  rw [unpack, from_bytes_pack (by omega), if_pos h]

/-- The client's configuration is within the limits of the server, which are `int`s. -/
structure ClientConfig.Within (client : ClientConfig) (config : Config) : Prop where
  height_pos : 0 < client.height
  width_pos : 0 < client.width
  framerate_pos : 0 < client.framerate
  height_le : client.height ≤ config.max_height
  width_le : client.width ≤ config.max_width
  framerate_le : client.framerate ≤ config.max_framerate

/-- The limits are `int`s. -/
structure Config.AreInts (config : Config) : Prop where
  height_lt : config.max_height < 2 ^ 31
  width_lt : config.max_width < 2 ^ 31
  framerate_lt : config.max_framerate < 2 ^ 31

lemma Config.AreInts.lt {config : Config} (h : config.AreInts) {max : ℕ}
    (hmax : max ∈ config.maxima) : max < 2 ^ 31 := by
  rw [Config.maxima, List.mem_cons, List.mem_cons, List.mem_singleton] at hmax
  rcases hmax with rfl | rfl | rfl
  · exact h.height_lt
  · exact h.width_lt
  · exact h.framerate_lt

lemma ClientConfig.Within.lt {client : ClientConfig} {config : Config} (h : client.Within config)
    (hints : config.AreInts) {value : ℕ} (hvalue : value ∈ client.values) : value < 2 ^ 31 := by
  rw [ClientConfig.values, List.mem_cons, List.mem_cons, List.mem_singleton] at hvalue
  rcases hvalue with rfl | rfl | rfl
  · exact h.height_le.trans_lt hints.height_lt
  · exact h.width_le.trans_lt hints.width_lt
  · exact h.framerate_le.trans_lt hints.framerate_lt

/-- Within the limits, the client does not give up. -/
lemma check_config_within {client : ClientConfig} {config : Config} (h : client.Within config) :
    check_config config.max_height config.max_width config.max_framerate client = none := by
  have hheight := h.height_le
  have hwidth := h.width_le
  have hframerate := h.framerate_le
  have hheight0 := h.height_pos
  have hwidth0 := h.width_pos
  have hframerate0 := h.framerate_pos
  unfold check_config
  rw [if_neg (by omega), if_neg (by omega), if_neg (by omega)]

namespace Handshake

/-! ## The property -/

/-- What was decoded so far is what was sent, nobody gave up, and behind the client's
configuration the server's stream starts with the first frame byte. -/
structure Exact (config : Config) (client : ClientConfig) (s : Handshake) : Prop where
  maxima : s.maxima <+: config.maxima.map (↑)
  asked : s.asked <+: client.values
  positioned : s.asked.length = 3 → s.toServer.content = s.frames
  accepted : s.verdict = none ∨ s.verdict = some none

/-- A read of four bytes happens when four bytes have arrived. -/
def Whole (s : Handshake) : Action → Prop
  | .recv => 4 ≤ s.toServer.arrived.length
  | .readBytes => 4 ≤ s.toClient.arrived.length
  | _ => True

instance : ∀ s a, Decidable (Whole s a)
  | s, .recv => inferInstanceAs (Decidable (4 ≤ s.toServer.arrived.length))
  | s, .readBytes => inferInstanceAs (Decidable (4 ≤ s.toClient.arrived.length))
  | _, .sendall | _, .available | _, .check | _, .write | _, .frame _ | _, .atClient _
  | _, .atServer _ => isTrue trivial

/-! ## The invariant -/

/-- Both links convey the values in order. -/
structure InOrder (config : Config) (client : ClientConfig) (s : Handshake) : Prop where
  toClient : ∃ got : List ℕ, s.maxima = got.map (↑) ∧
    Conveys pack config.maxima s.maxima_sent got s.toClient.content []
  toServer : Conveys pack client.values s.config_sent s.asked s.toServer.content s.frames
  accepted : s.verdict = none ∨ s.verdict = some none

section
variable {config : Config} {client : ClientConfig} {s s' : Handshake}

lemma inOrder_start : InOrder config client start where
  toClient := ⟨[], rfl, Conveys.start⟩
  toServer := Conveys.start
  accepted := Or.inl rfl

lemma InOrder.exact (h : InOrder config client s) : Exact config client s where
  maxima := by
    rcases h.toClient with ⟨got, hmaxima, hconveys⟩
    rw [hmaxima]
    exact hconveys.got_isPrefix.map _
  asked := h.toServer.got_isPrefix
  positioned := h.toServer.content_of_all
  accepted := h.accepted

/-- A read of four bytes that have arrived takes the next value. -/
lemma read_pack {l : Link UInt8} {n : ℕ} {rest : List UInt8} (h : l.content = pack n ++ rest)
    (harrived : 4 ≤ l.arrived.length) : (l.read 4).1 = pack n ∧ (l.read 4).2.content = rest := by
  have hread := Link.read_eq h (by rwa [length_pack])
  rwa [length_pack] at hread

/-- Something has arrived of a link that is not empty. -/
lemma content_ne_nil {l : Link UInt8} (harrived : 4 ≤ l.arrived.length) : l.content ≠ [] := by
  rw [Link.content]
  intro hnil
  rw [(List.append_eq_nil_iff.mp hnil).1] at harrived
  exact absurd harrived (by decide)

/-- The server reads a value. -/
lemma InOrder.recv (h : InOrder config client s) (hints : config.AreInts)
    (hwithin : client.Within config) (hwhole : 4 ≤ s.toServer.arrived.length)
    (hstep : step config client s .recv = some s') : InOrder config client s' := by
  rw [step, Option.ite_none_right_eq_some, Option.some.injEq] at hstep
  rcases hstep with ⟨⟨-, hlength, -⟩, rfl⟩
  rcases h.toServer.next hlength (content_ne_nil hwhole) with ⟨v, rest, hv, hcontent, hnext⟩
  rcases read_pack hcontent hwhole with ⟨hbytes, hrest⟩
  refine ⟨h.toClient, ?_, h.accepted⟩
  dsimp only
  have hlt := hwithin.lt hints hv
  rw [hbytes, hrest, from_bytes_pack (by omega)]
  exact hnext

/-- The client reads a value. -/
lemma InOrder.readBytes (h : InOrder config client s) (hints : config.AreInts)
    (hwhole : 4 ≤ s.toClient.arrived.length)
    (hstep : step config client s .readBytes = some s') : InOrder config client s' := by
  rw [step, Option.ite_none_right_eq_some, Option.some.injEq] at hstep
  rcases hstep with ⟨⟨-, hlength⟩, rfl⟩
  rcases h.toClient with ⟨got, hmaxima, hconveys⟩
  rw [hmaxima, List.length_map] at hlength
  rcases hconveys.next hlength (content_ne_nil hwhole) with ⟨v, rest, hv, hcontent, hnext⟩
  rcases read_pack hcontent hwhole with ⟨hbytes, hrest⟩
  refine ⟨⟨got ++ [v], ?_, ?_⟩, h.toServer, h.accepted⟩
  · dsimp only
    rw [hbytes, filled_pack, unpack_pack (hints.lt hv), hmaxima, List.map_append]
    rfl
  · dsimp only
    rw [hrest]
    exact hnext

/-- The client's check lets its configuration pass. -/
lemma InOrder.check (h : InOrder config client s) (hwithin : client.Within config)
    (hstep : step config client s .check = some s') : InOrder config client s' := by
  rcases h.toClient with ⟨got, hmaxima, hconveys⟩
  rw [step] at hstep
  split at hstep
  · rename_i max_height max_width max_framerate hthree hnone
    have hall : got = config.maxima := by
      apply hconveys.got_isPrefix.eq_of_length
      rw [← List.length_map, ← hmaxima, hthree]
      rfl
    rw [hthree, hall] at hmaxima
    simp only [Config.maxima, List.map_cons, List.map_nil, List.cons.injEq, and_true] at hmaxima
    rcases hmaxima with ⟨rfl, rfl, rfl⟩
    rw [check_config_within hwithin, Option.some.injEq] at hstep
    rcases hstep with rfl
    refine ⟨⟨got, ?_, hconveys⟩, h.toServer, Or.inr rfl⟩
    rw [hall]
    exact hthree
  · exact absurd hstep (by simp)

/-- One step keeps the order. -/
lemma inOrder_step (hints : config.AreInts) (hwithin : client.Within config) {a : Action}
    (h : InOrder config client s) (hwhole : Whole s a)
    (hstep : step config client s a = some s') : InOrder config client s' := by
  cases a with
  | sendall =>
    rw [step, Option.bind_eq_bind, Option.bind_eq_some_iff] at hstep
    rcases hstep with ⟨max, hmax, hstep⟩
    rcases of_guard hstep with ⟨-, rfl⟩
    rcases h.toClient with ⟨got, hmaxima, hconveys⟩
    refine ⟨⟨got, hmaxima, ?_⟩, h.toServer, h.accepted⟩
    dsimp only
    rw [Link.content_write]
    exact hconveys.send hmax
  | recv => exact h.recv hints hwithin hwhole hstep
  | available =>
    rcases of_guard hstep with ⟨-, rfl⟩
    exact ⟨h.toClient, h.toServer, h.accepted⟩
  | readBytes => exact h.readBytes hints hwhole hstep
  | check => exact h.check hwithin hstep
  | write =>
    rw [step, Option.bind_eq_bind, Option.bind_eq_some_iff] at hstep
    rcases hstep with ⟨value, hvalue, hstep⟩
    rcases of_guard hstep with ⟨-, rfl⟩
    refine ⟨h.toClient, ?_, h.accepted⟩
    dsimp only
    rw [Link.content_write]
    exact h.toServer.send hvalue
  | frame data =>
    rcases of_guard hstep with ⟨hsent, rfl⟩
    refine ⟨h.toClient, ?_, h.accepted⟩
    dsimp only
    rw [Link.content_write]
    exact h.toServer.append hsent data
  | atClient n =>
    rw [step, Option.some.injEq] at hstep
    rcases hstep with rfl
    refine ⟨?_, h.toServer, h.accepted⟩
    dsimp only
    rw [Link.content_deliver]
    exact h.toClient
  | atServer n =>
    rw [step, Option.some.injEq] at hstep
    rcases hstep with rfl
    refine ⟨h.toClient, ?_, h.accepted⟩
    dsimp only
    rw [Link.content_deliver]
    exact h.toServer

/-- **When the handshake is exact.** In every run in which each read of four bytes finds four
bytes, for limits that are `int`s and a client within them, both sides have decoded what the
other one sent, and the server's stream goes on with the first frame byte. -/
theorem handshake_exact (config : Config) (client : ClientConfig) (hints : config.AreInts)
    (hwithin : client.Within config) (actions : List Action) (s : Handshake)
    (hmeets : Meets (step config client) Whole start actions)
    (hrun : run (step config client) start actions = some s) : Exact config client s :=
  (run_invariant inOrder_start
    (fun _ _ _ hinv hok ha => inOrder_step hints hwithin hinv hok ha) hmeets hrun).exact

end

/-- The limits of the forwarder, and a client that wants all of it. -/
def wall : Config := ⟨25, 20, 40, 40⟩

def wholeWall : ClientConfig := ⟨25, 20, 40⟩

lemma areInts_wall : wall.AreInts := by
  constructor <;> decide

lemma within_wholeWall : wholeWall.Within wall := by
  constructor <;> decide

/-- The two sides take turns, and every write arrives at once. -/
def wholeRun : List Action :=
  [.sendall, .sendall, .sendall, .atClient 12, .available, .readBytes, .readBytes, .readBytes,
    .check, .write, .write, .write, .frame [255, 0], .atServer 14, .recv, .recv, .recv]

/-- Every read of that run finds four bytes. -/
lemma whole_wholeRun : Meets (step wall wholeWall) Whole start wholeRun :=
  .cons trivial rfl <| .cons trivial rfl <| .cons trivial rfl <| .cons trivial rfl <|
  .cons trivial rfl <| .cons (by decide) rfl <| .cons (by decide) rfl <|
  .cons (by decide) rfl <| .cons trivial rfl <| .cons trivial rfl <| .cons trivial rfl <|
  .cons trivial rfl <| .cons trivial rfl <| .cons trivial rfl <| .cons (by decide) rfl <|
  .cons (by decide) rfl <| .cons (by decide) rfl .nil

/-- A handshake whose bytes arrive twelve at a time. -/
theorem handshake_exact_wholeRun :
    ∃ s, run (step wall wholeWall) start wholeRun = some s ∧ s.asked = [25, 20, 40] ∧
      Exact wall wholeWall s := by
  obtain ⟨s, hrun, hasked⟩ : ∃ s, run (step wall wholeWall) start wholeRun = some s ∧
      s.asked = [25, 20, 40] := ⟨_, rfl, rfl⟩
  exact ⟨s, hrun, hasked, handshake_exact wall wholeWall areInts_wall within_wholeWall wholeRun s
    whole_wholeRun hrun⟩

/-- One byte is there when the client looks, and one when the server reads. -/
theorem one_byte_misread :
    (∃ s, run (step wall wholeWall) start
        [.sendall, .atClient 1, .available, .readBytes, .readBytes] = some s ∧
      ¬ Exact wall wholeWall s) ∧
    ∃ s, run (step wall wholeWall) start
        [.sendall, .sendall, .sendall, .atClient 12, .available, .readBytes, .readBytes,
          .readBytes, .check, .write, .atServer 1, .recv, .atServer 3, .recv] = some s ∧
      ¬ Exact wall wholeWall s := by
  constructor
  · refine ⟨_, rfl, fun h => ?_⟩
    exact absurd h.maxima (by decide)
  · refine ⟨_, rfl, fun h => ?_⟩
    exact absurd h.asked (by decide)

/-! ## The rest of a handshake -/

section
variable {config : Config} {client : ClientConfig} {s : Handshake}

end

end Handshake

end Syndilights.V2
