import Syndilights.V2.HandshakeTheorems
import Syndilights.V2.Limits

/-!
# When both sides enforce the same limits

The client refuses what is not positive, the server only what is both positive and too high. A
negative value reaches the server as one that is higher by 2 ^ 32.
-/

namespace Syndilights.V2.Limits

/-! ## Across the wire -/

lemma length_pack_int (n : Int32) : (pack_int n).length = 4 := length_pack _

/-- The server decodes the residue. -/
lemma from_bytes_pack_int (n : Int32) : (from_bytes (pack_int n) : ℤ) = n.toInt % 2 ^ 32 := by
  have hmod : (n.toInt % 2 ^ 32).toNat < 2 ^ 32 := by omega
  rw [pack_int, from_bytes_pack hmod]
  omega

/-- Each value is decoded on its own. -/
lemma decode_send_config (request : Request) :
    decode request.send_config =
      (request.height.toInt % 2 ^ 32, request.width.toInt % 2 ^ 32,
        request.framerate.toInt % 2 ^ 32) := by
  have hheight := length_pack_int request.height
  have hwidth := length_pack_int request.width
  have hframerate := length_pack_int request.framerate
  have htake : request.send_config.take 4 = pack_int request.height := by
    rw [Request.send_config, List.append_assoc, List.take_left' hheight]
  have hdrop : request.send_config.drop 4 =
      pack_int request.width ++ pack_int request.framerate := by
    rw [Request.send_config, List.append_assoc, List.drop_left' hheight]
  have hrest : request.send_config.drop 8 = pack_int request.framerate := by
    rw [show 8 = 4 + 4 from rfl, ← List.drop_drop, hdrop, List.drop_left' hwidth]
  rw [decode, htake, hdrop, hrest, List.take_left' hwidth, List.take_of_length_le hframerate.le,
    from_bytes_pack_int, from_bytes_pack_int, from_bytes_pack_int]

/-! ## The checks -/

/-- Nothing is refused when none of three checks refuses. -/
lemma first_of_three {p q r : Prop} [Decidable p] [Decidable q] [Decidable r] {a b c : String} :
    (if p then some a else if q then some b else if r then some c else none) = none ↔
      ¬p ∧ ¬q ∧ ¬r := by
  split_ifs <;> simp_all

/-- On values that are not negative, the client's check is the one of the handshake. -/
lemma check_config_natCast (max_height max_width max_framerate : ℤ) (client : ClientConfig) :
    check_config max_height max_width max_framerate client.height client.width client.framerate =
      V2.check_config max_height max_width max_framerate client := by
  unfold check_config V2.check_config
  simp only [Nat.cast_nonpos, nonpos_iff_eq_zero]
  rfl

namespace MyTCPHandler

/-- On maxima that are not negative, the server's check is the one of the sessions. -/
lemma check_config_natCast (config : Config) (cur_framerate imgsize : ℤ)
    (height width framerate : ℕ) :
    check_config ⟨config.max_height, config.max_width, config.max_framerate, cur_framerate,
      imgsize⟩ height width framerate = config.check_config height width framerate := by
  unfold check_config Config.check_config
  simp only [gt_iff_lt, Nat.cast_pos, Nat.cast_lt]
  rfl

/-- What is accepted becomes the configuration, and what is refused changes nothing. -/
lemma receive_client_config_eq (handler : MyTCPHandler) (stream : List UInt8) :
    handler.receive_client_config stream =
      (handler.check_config (decode stream).1 (decode stream).2.1 (decode stream).2.2,
        if handler.check_config (decode stream).1 (decode stream).2.1 (decode stream).2.2 = none
        then handler.set_config (decode stream).2.2 (decode stream).1 (decode stream).2.1
        else handler) := by
  unfold receive_client_config
  rcases decode stream with ⟨height, width, framerate⟩
  dsimp only
  cases handler.check_config height width framerate with
  | none => rfl
  | some reason => rfl

end MyTCPHandler

/-! ## Agreement -/

/-- Both sides accept the same, what is accepted arrives unchanged, and what the server refuses
changes nothing. -/
structure SameLimits (handler : MyTCPHandler) (request : Request) : Prop where
  accepts : (handler.receive_client_config request.send_config).1 = none ↔
    check_config handler.max_height handler.max_width handler.max_framerate
      request.height.toInt request.width.toInt request.framerate.toInt = none
  decoded : (handler.receive_client_config request.send_config).1 = none →
    decode request.send_config =
      (request.height.toInt, request.width.toInt, request.framerate.toInt)
  refused : (handler.receive_client_config request.send_config).1 ≠ none →
    (handler.receive_client_config request.send_config).2 = handler

/-- The value is too high, or it is negative and 2 ^ 32 more is too high. -/
def TooHigh (max n : ℤ) : Prop := (0 < n ∧ max < n) ∨ (n < 0 ∧ max < n + 2 ^ 32)

instance (max n : ℤ) : Decidable (TooHigh max n) :=
  inferInstanceAs (Decidable ((0 < n ∧ max < n) ∨ (n < 0 ∧ max < n + 2 ^ 32)))

/-- The server refuses what is too high. -/
lemma refuses_iff (max : ℤ) (n : Int32) :
    (n.toInt % 2 ^ 32 > 0 ∧ n.toInt % 2 ^ 32 > max) ↔ TooHigh max n.toInt := by
  have hlt := n.toInt_lt
  have hle := n.le_toInt
  unfold TooHigh
  omega

/-- What the client accepts of a value is what is positive and not too high. -/
lemma accepts_iff (max : ℤ) (n : Int32) :
    ¬(n.toInt ≤ 0 ∨ n.toInt > max) ↔ 0 < n.toInt ∧ ¬TooHigh max n.toInt := by
  unfold TooHigh
  omega

/-- A positive value is its own residue. -/
lemma residue_of_pos {n : Int32} (h : 0 < n.toInt) : n.toInt % 2 ^ 32 = n.toInt := by
  have hlt := n.toInt_lt
  omega

section
variable (handler : MyTCPHandler) (request : Request)

/-- Some value is too high for the server. -/
def AnyTooHigh : Prop :=
  TooHigh handler.max_height request.height.toInt ∨
    TooHigh handler.max_width request.width.toInt ∨
    TooHigh handler.max_framerate request.framerate.toInt

/-- All values are positive. -/
structure AllPositive : Prop where
  height : 0 < request.height.toInt
  width : 0 < request.width.toInt
  framerate : 0 < request.framerate.toInt

lemma server_accepts_iff :
    (handler.receive_client_config request.send_config).1 = none ↔
      ¬AnyTooHigh handler request := by
  rw [handler.receive_client_config_eq, decode_send_config, MyTCPHandler.check_config,
    first_of_three, refuses_iff, refuses_iff, refuses_iff, AnyTooHigh, not_or, not_or]

lemma client_accepts_iff :
    check_config handler.max_height handler.max_width handler.max_framerate
      request.height.toInt request.width.toInt request.framerate.toInt = none ↔
      AllPositive request ∧ ¬AnyTooHigh handler request := by
  rw [check_config, first_of_three, accepts_iff, accepts_iff, accepts_iff, AnyTooHigh, not_or,
    not_or]
  constructor
  · rintro ⟨⟨hheight, hheight'⟩, ⟨hwidth, hwidth'⟩, hframerate, hframerate'⟩
    exact ⟨⟨hheight, hwidth, hframerate⟩, hheight', hwidth', hframerate'⟩
  · rintro ⟨hpos, hheight, hwidth, hframerate⟩
    exact ⟨⟨hpos.height, hheight⟩, ⟨hpos.width, hwidth⟩, hpos.framerate, hframerate⟩

/-- Positive values are decoded as they are. -/
lemma decode_of_pos {request : Request} (h : AllPositive request) :
    decode request.send_config =
      (request.height.toInt, request.width.toInt, request.framerate.toInt) := by
  rw [decode_send_config, residue_of_pos h.height, residue_of_pos h.width,
    residue_of_pos h.framerate]

/-- A refusal leaves the handler as it was. -/
lemma receive_of_refused {handler : MyTCPHandler} {stream : List UInt8}
    (h : (handler.receive_client_config stream).1 ≠ none) :
    (handler.receive_client_config stream).2 = handler := by
  rw [handler.receive_client_config_eq] at h ⊢
  exact if_neg h

/-- The limits are the same for a request whose values are all positive, and for one that has a
value that is too high. -/
theorem sameLimits_iff :
    SameLimits handler request ↔ AllPositive request ∨ AnyTooHigh handler request := by
  constructor
  · intro hsame
    by_cases htoo : AnyTooHigh handler request
    · exact Or.inr htoo
    · have hclient := hsame.accepts.mp ((server_accepts_iff handler request).mpr htoo)
      exact Or.inl ((client_accepts_iff handler request).mp hclient).1
  · intro hcondition
    have hpositive : ¬AnyTooHigh handler request → AllPositive request :=
      hcondition.resolve_right
    refine ⟨?_, ?_, receive_of_refused⟩
    · rw [server_accepts_iff, client_accepts_iff]
      exact ⟨fun h => ⟨hpositive h, h⟩, And.right⟩
    · rw [server_accepts_iff]
      exact fun h => decode_of_pos (hpositive h)

end

/-- A picture without lines: the server accepts it, the client does not. -/
theorem no_lines :
    (MyTCPHandler.receive_client_config ⟨25, 20, 40, 0, 0⟩ (Request.send_config ⟨0, 1, 1⟩)).1 =
        none ∧
      check_config 25 20 40 0 1 1 = some "height cannot be higher than 25. Current: 0." ∧
      ¬SameLimits ⟨25, 20, 40, 0, 0⟩ ⟨0, 1, 1⟩ := by
  have hserver : (MyTCPHandler.receive_client_config ⟨25, 20, 40, 0, 0⟩
      (Request.send_config ⟨0, 1, 1⟩)).1 = none := by decide
  have hclient : check_config 25 20 40 0 1 1 =
      some "height cannot be higher than 25. Current: 0." := by decide
  refine ⟨hserver, hclient, fun hsame => ?_⟩
  have haccepts := hsame.accepts.mp hserver
  exact absurd (hclient.symm.trans haccepts) (by decide)

end Syndilights.V2.Limits
