import Syndilights.MaskLoop
import Syndilights.PoC.Shiftout
import Syndilights.Strided

/-!
# What the shift registers show

A byte ends up on the lines `Q0` to `Q7` of a register, the last byte in the first register. The
latch shows the bytes of one round together, so the displays count without anything in between.
-/

namespace Syndilights.PoC.Shiftout
open ShiftChain

/-! ## Bytes in the stages -/

/-- The lines `Q0` to `Q7` of a register with this byte. -/
def lines (b : UInt8) : List Bool := (MaskLoop.bits b.toNat 8).reverse

section
variable {c : Chain}

@[simp] lemma length_lines (b : UInt8) : (lines b).length = 8 := by
  rw [lines, List.length_reverse, MaskLoop.length_bits]

lemma getElem?_lines (b : UInt8) {i : ℕ} (hi : i < 8) :
    (lines b)[i]? = some (b.toNat.testBit i) := by
  have hrev : i < (MaskLoop.bits b.toNat 8).length := by
    rw [MaskLoop.length_bits]
    exact hi
  rw [lines, List.getElem?_reverse hrev, MaskLoop.length_bits, MaskLoop.bits, List.getElem?_map,
    List.getElem?_range (by omega), Option.map_some]
  congr 2
  omega

/-- `shiftOut` clocks the bits in. -/
lemma shiftOut_eq (b : UInt8) : shiftOut dataPin clockPin b =
    [(.data, false), (.clock, false)] ++ (MaskLoop.bits b.toNat 8).flatMap pulse ++
      [(.clock, false)] := by
  have hbit : ∀ i, (decide ((if b.toNat &&& 1 <<< i ≠ 0 then 1 else 0) ≠ 0) : Bool) =
      b.toNat.testBit i := by
    intro i
    have hmask := MaskLoop.and_two_pow_ne_zero b.toNat i
    rw [Nat.one_shiftLeft]
    cases hb : b.toNat.testBit i with
    | true => rw [if_pos (hmask.mpr hb)]; rfl
    | false =>
      rw [if_neg (fun hne => by rw [hmask.mp hne] at hb; cases hb)]
      rfl
  have hpulse : (fun i => digitalWrite clockPin 0 ++
        digitalWrite dataPin (if b.toNat &&& 1 <<< i ≠ 0 then 1 else 0) ++
        digitalWrite clockPin 1 ++ digitalWrite dataPin 0) =
      fun i => pulse (b.toNat.testBit i) := by
    funext i
    rw [← hbit i]
    rfl
  show _ ++ List.flatMap (fun i => digitalWrite clockPin 0 ++
    digitalWrite dataPin (if b.toNat &&& 1 <<< i ≠ 0 then 1 else 0) ++
    digitalWrite clockPin 1 ++ digitalWrite dataPin 0) _ ++ _ = _
  rw [hpulse]
  rfl

/-- The byte is in the first stages, `Q0` in the first one. -/
lemma run_shiftOut (b : UInt8) : (c.run (shiftOut dataPin clockPin b)).stages =
    (lines b ++ c.stages).take c.stages.length := by
  have hidle : ∀ c : Chain, (c.drive (.clock, false)).stages = c.stages := by
    intro c
    show (if !c.clock && false then _ else c.stages) = _
    rw [Bool.and_false, if_neg Bool.false_ne_true]
  rw [shiftOut_eq, run_append, run_append]
  show ((Chain.run _ _).drive (.clock, false)).stages = _
  rw [hidle, run_pulses, lines]
  show (_ ++ ((c.drive (.data, false)).drive (.clock, false)).stages).take
    ((c.drive (.data, false)).drive (.clock, false)).stages.length = _
  rw [hidle]
  rfl

lemma unlatched_shiftOut (b : UInt8) : Unlatched (shiftOut dataPin clockPin b) := by
  have hidle : Unlatched [(.clock, false)] := by
    intro w hw
    rw [List.mem_singleton.mp hw]
    decide
  have hclear : Unlatched [(.data, false), (.clock, false)] := by
    intro w hw
    rcases List.mem_pair.mp hw with rfl | rfl
    · decide
    · decide
  rw [shiftOut_eq]
  exact (hclear.append (.flatMap fun level _ => unlatched_pulse level)).append hidle

/-- A chain of registers, after as many bytes as it has registers. -/
lemma run_shiftOut_all (bytes : List UInt8) (hlength : c.stages.length = 8 * bytes.length) :
    (c.run (bytes.flatMap (shiftOut dataPin clockPin))).stages = bytes.reverse.flatMap lines := by
  have hrun : ∀ bytes : List UInt8,
      (c.run (bytes.flatMap (shiftOut dataPin clockPin))).stages =
        (bytes.reverse.flatMap lines ++ c.stages).take c.stages.length := by
    intro bytes
    induction bytes using List.reverseRecOn with
    | nil => exact (List.take_length).symm
    | append_singleton bytes b ih =>
      have hstages : (c.run (bytes.flatMap (shiftOut dataPin clockPin))).stages.length =
          c.stages.length := length_stages_run
      rw [List.flatMap_append, run_append, List.flatMap_singleton, run_shiftOut, hstages, ih,
        List.reverse_append, List.reverse_singleton, List.singleton_append, List.flatMap_cons,
        List.append_assoc, List.take_append, @List.take_append _ (lines b), List.take_take]
      congr 2
      omega
  have htotal : (bytes.reverse.flatMap lines).length = c.stages.length := by
    rw [Strided.length_flatMap fun b _ => length_lines b, List.length_reverse, hlength, mul_comm]
  rw [hrun, ← htotal, List.take_left]

end

/-! ## Counting on four displays -/

namespace Display4

/-- Decimal digits, with zeros in front. -/
lemma padded_digits (w : ℕ) {j : ℕ} (hj : j < 10 ^ (w + 1)) :
    List.replicate (w + 1 - (Nat.toDigits 10 j).length) '0' ++ Nat.toDigits 10 j =
      (List.range (w + 1)).reverse.map fun r => (j / 10 ^ r % 10).digitChar := by
  induction w generalizing j with
  | zero =>
    have hlt : j < 10 := by omega
    rw [Nat.toDigits_of_lt_base hlt]
    show [j.digitChar] = [(j / 10 ^ 0 % 10).digitChar]
    rw [pow_zero, Nat.div_one, Nat.mod_eq_of_lt hlt]
  | succ w ih =>
    -- the last digit, and those of the tenth
    have htenth : j / 10 < 10 ^ (w + 1) := by
      rw [Nat.div_lt_iff_lt_mul (by decide), ← pow_succ]
      exact hj
    have hrange : (List.range (w + 1 + 1)).reverse.map (fun r => (j / 10 ^ r % 10).digitChar) =
        (List.range (w + 1)).reverse.map (fun r => (j / 10 / 10 ^ r % 10).digitChar) ++
          [(j % 10).digitChar] := by
      rw [List.range_succ_eq_map, List.reverse_cons, List.map_append, ← List.map_reverse,
        List.map_map]
      congr 1
      · apply List.map_congr_left
        intro r _
        show (j / 10 ^ (r + 1) % 10).digitChar = (j / 10 / 10 ^ r % 10).digitChar
        rw [Nat.div_div_eq_div_mul, pow_succ, mul_comm]
      · show [(j / 10 ^ 0 % 10).digitChar] = _
        rw [pow_zero, Nat.div_one]
    rw [hrange, ← ih htenth]
    by_cases hlt : j < 10
    · have hzero : j / 10 = 0 := Nat.div_eq_of_lt hlt
      rw [hzero, Nat.toDigits_of_lt_base hlt, Nat.toDigits_zero, Nat.mod_eq_of_lt hlt]
      show List.replicate (w + 1) '0' ++ [j.digitChar] =
        (List.replicate w '0' ++ ['0']) ++ [j.digitChar]
      rw [List.replicate_succ']
    · rw [Nat.toDigits_of_base_le (by decide) (not_lt.mp hlt), List.length_append,
        List.length_singleton, Nat.add_sub_add_right, List.append_assoc]

/-- The byte that is sent for a digit. -/
def digit (d : ℕ) : UInt8 := steve_converter (ascii2segments.getD (16 + d) 0)

lemma segments_digitChar {d : ℕ} (hd : d < 10) :
    (segments d.digitChar).map steve_converter = some (digit d) := by
  interval_cases d <;> rfl

/-- The bytes of a number, thousands first. -/
def number (j : ℕ) : List UInt8 := [3, 2, 1, 0].map fun r => digit (j / 10 ^ r % 10)

/-- The table is never read outside. -/
lemma round_eq {j : ℕ} (hj : j < 10000) :
    round j = some (frame ((number j).flatMap (shiftOut dataPin clockPin))) := by
  have hchars : sprintf j = [3, 2, 1, 0].map fun r => (j / 10 ^ r % 10).digitChar :=
    padded_digits 3 hj
  have hbytes : (sprintf j).mapM (fun c => (segments c).map steve_converter) =
      some (number j) := by
    have hdigit : ∀ r, (segments (j / 10 ^ r % 10).digitChar).map steve_converter =
        some (digit (j / 10 ^ r % 10)) := fun r => segments_digitChar (Nat.mod_lt _ (by decide))
    rw [hchars]
    simp only [List.map_cons, List.map_nil, List.mapM_cons, List.mapM_nil, hdigit]
    rfl
  rw [round, hbytes]
  rfl

lemma mapM_round {rounds : ℕ → List Write} {js : List ℕ}
    (h : ∀ j ∈ js, round j = some (rounds j)) : js.mapM round = some (js.map rounds) := by
  induction js with
  | nil => rfl
  | cons j js ih =>
    rw [List.mapM_cons, h j List.mem_cons_self, ih fun i hi => h i (List.mem_cons_of_mem j hi)]
    rfl

/-- The line that lights a segment. -/
def line (segment : ℕ) : ℕ := [1, 2, 0, 5, 6, 3, 4, 7].getD segment 0

/-- The converter moves each segment to its line. -/
lemma testBit_steve_converter (b : UInt8) {segment : ℕ} (h : segment < 8) :
    (steve_converter b).toNat.testBit (line segment) = b.toNat.testBit segment := by
  have hall : ∀ (v : Fin 256) (segment : Fin 8),
      (steve_converter (UInt8.ofNat v)).toNat.testBit (line segment) =
        v.val.testBit segment := by decide +kernel
  have hb := hall ⟨b.toNat, b.toNat_lt⟩ ⟨segment, h⟩
  rwa [UInt8.ofNat_toNat] at hb

/-- The displays show a number: the first one the ones, the last one the thousands. -/
def Shows (outputs : List Bool) (j : ℕ) : Prop :=
  ∀ r < 4, ∀ segment < 8, outputs[r * 8 + line segment]? =
    some ((ascii2segments.getD (16 + j / 10 ^ r % 10) 0).toNat.testBit segment)

lemma shows_number (j : ℕ) : Shows ((number j).reverse.flatMap lines) j := by
  intro r hr segment hsegment
  have hline : line segment < 8 := by
    interval_cases segment <;> decide
  have hdigit : (number j).reverse[r]? = some (digit (j / 10 ^ r % 10)) := by
    interval_cases r <;> rfl
  rw [Strided.getElem?_flatMap (fun b _ => length_lines b) hline, hdigit, Option.bind_some,
    getElem?_lines _ hline, digit, testBit_steve_converter _ hsegment]

/-- In front of the last write of round `k` the displays show the number of the round before,
or what they showed at first. -/
def Counts (c : Chain) (rounds : ℕ → List Write) : Prop :=
  ∀ (k : ℕ) (front : List Write), front <+: rounds (k % 9999) → front ≠ rounds (k % 9999) →
    let outputs := (c.run ((List.range k).flatMap (fun i => rounds (i % 9999)) ++ front)).outputs
    if k = 0 then outputs = c.outputs else Shows outputs ((k - 1) % 9999)

/-- **Counting.** Over any number of rounds the displays show the number of the last round that
has ended, at every moment, and never a mixture of two. -/
theorem shows_last_number {c : Chain} (hlength : c.stages.length = 4 * 8) :
    ∃ rounds : ℕ → List Write, (∀ j < 9999, round j = some (rounds j)) ∧
      loop = some ((List.range 9999).flatMap rounds) ∧ Counts c rounds := by
  have hround : ∀ j < 9999,
      round j = some (frame ((number j).flatMap (shiftOut dataPin clockPin))) :=
    fun j hj => round_eq (by omega)
  refine ⟨fun j => frame ((number j).flatMap (shiftOut dataPin clockPin)), hround, ?_, ?_⟩
  · rw [loop, mapM_round fun j hj => hround j (List.mem_range.mp hj), List.flatMap]
    rfl
  · intro k front hfront hne outputs
    have hmoment : outputs = if k = 0 then c.outputs else
        (number ((k - 1) % 9999)).reverse.flatMap lines :=
      outputs_moment (fun i => .flatMap fun b _ => unlatched_shiftOut b)
        (fun i c hc => run_shiftOut_all (number (i % 9999)) hc) hlength k
        (prefix_of_ne_frame hfront hne)
    by_cases hk : k = 0
    · rw [if_pos hk] at hmoment ⊢
      exact hmoment
    · rw [if_neg hk] at hmoment ⊢
      show Shows outputs _
      rw [hmoment]
      exact shows_number _

/-- Displays that show nothing. -/
def dark : Chain := ⟨false, false, false, List.replicate 32 false, List.replicate 32 false⟩

theorem dark_displays_count :
    ∃ rounds : ℕ → List Write, (∀ j < 9999, round j = some (rounds j)) ∧
      loop = some ((List.range 9999).flatMap rounds) ∧ Counts dark rounds :=
  shows_last_number rfl

end Display4

/-! ## One LED in each row -/

lemma show₂_eq (first second : UInt8) : show₂ first second =
    frame ([first, second].flatMap (shiftOut dataPin clockPin)) := by
  simp [show₂, frame, digitalWrite, latchPin]

namespace Shiftout2

/-- The two functions send the same byte. -/
lemma lightShiftPinB_eq (p : ℕ) : lightShiftPinB p = lightShiftPinA p := by
  have hpin : ∀ n, (List.range n).foldl (fun pin _ => pin * 2) 1 = 1 <<< n := by
    intro n
    induction n with
    | zero => rfl
    | succ n ih =>
      rw [List.range_succ, List.foldl_append, ih, Nat.one_shiftLeft, Nat.one_shiftLeft, pow_succ]
      rfl
  rw [lightShiftPinB, hpin, lightShiftPinA]

/-- The bytes of the rounds, red before green. -/
def changes : List (UInt8 × UInt8) :=
  [(0, 0), (255, 255), (0, 0)] ++
  (List.range 8).map (fun j => (lightShiftPinA (7 - j), lightShiftPinA j)) ++
  (List.range 8).map fun j => (lightShiftPinA j, lightShiftPinA (7 - j))

lemma loop_eq : loop = changes.flatMap fun (red, green) => show₂ red green := by
  simp only [loop, changes, lightShiftPinB_eq, List.flatMap_append, List.flatMap_map]
  rfl

/-- Both rows are dark or lit, or each has one LED lit, the two at opposite places. -/
def Picture (outputs : List Bool) : Prop :=
  ∃ red green, outputs = lines green ++ lines red ∧
    ((red = 0 ∧ green = 0) ∨ (red = 255 ∧ green = 255) ∨
      ∃ p < 8, lines red = (List.range 8).map (fun i => decide (i = p)) ∧
        lines green = (List.range 8).map fun i => decide (i = 7 - p))

lemma lines_lightShiftPinA {p : ℕ} (hp : p < 8) :
    lines (lightShiftPinA p) = (List.range 8).map fun i => decide (i = p) := by
  interval_cases p <;> decide

lemma picture_changes {red green : UInt8} (h : (red, green) ∈ changes) :
    Picture (lines green ++ lines red) := by
  refine ⟨red, green, rfl, ?_⟩
  rw [changes, List.mem_append, List.mem_append, List.mem_map, List.mem_map] at h
  rcases h with (h | ⟨j, hj, h⟩) | ⟨j, hj, h⟩
  · simp only [List.mem_cons, List.not_mem_nil, or_false, Prod.mk.injEq] at h
    tauto
  · have hlt := List.mem_range.mp hj
    obtain ⟨rfl, rfl⟩ := Prod.mk.inj h
    refine .inr (.inr ⟨7 - j, by omega, lines_lightShiftPinA (by omega), ?_⟩)
    rw [lines_lightShiftPinA hlt, Nat.sub_sub_self (by omega)]
  · have hlt := List.mem_range.mp hj
    obtain ⟨rfl, rfl⟩ := Prod.mk.inj h
    exact .inr (.inr ⟨j, hlt, lines_lightShiftPinA hlt, lines_lightShiftPinA (by omega)⟩)

/-- Loops are frames of two bytes. -/
lemma loops_eq (loops : ℕ) : (List.replicate loops loop).flatten =
    ((List.replicate loops changes).flatten.map fun change =>
      [change.1, change.2].flatMap (shiftOut dataPin clockPin)).flatMap frame := by
  have hshow : (fun change : UInt8 × UInt8 => show₂ change.1 change.2) = fun change =>
      frame ([change.1, change.2].flatMap (shiftOut dataPin clockPin)) :=
    funext fun change => show₂_eq change.1 change.2
  induction loops with
  | zero => rfl
  | succ loops ih =>
    rw [List.replicate_succ, List.flatten_cons, ih, List.replicate_succ, List.flatten_cons,
      List.map_append, List.flatMap_append, loop_eq]
    show changes.flatMap (fun change => show₂ change.1 change.2) ++ _ = _
    rw [hshow, List.flatMap_map, List.flatMap_map]

/-- **One by one.** From the first change on the rows show a picture at every moment. -/
theorem picture_always {c : Chain} (hlength : c.stages.length = 2 * 8) (loops : ℕ)
    {front : List Write} (hfront : front <+: (List.replicate loops loop).flatten) :
    (c.run front).outputs = c.outputs ∨ Picture (c.run front).outputs := by
  rw [loops_eq] at hfront
  refine outputs_invariant (P := fun outputs => outputs = c.outputs ∨ Picture outputs) (n := 16)
    ?_ ?_ hlength (.inl rfl) hfront
  · intro load hload
    obtain ⟨change, -, rfl⟩ := List.mem_map.mp hload
    exact .flatMap fun b _ => unlatched_shiftOut b
  · intro load hload c hc
    obtain ⟨⟨red, green⟩, hchange, rfl⟩ := List.mem_map.mp hload
    right
    obtain ⟨l, hl, hchange⟩ := List.mem_flatten.mp hchange
    rw [List.eq_of_mem_replicate hl] at hchange
    rw [run_shiftOut_all _ hc, List.reverse_cons, List.reverse_singleton, List.flatMap_append,
      List.flatMap_singleton, List.flatMap_singleton]
    exact picture_changes hchange

/-- Rows that are dark. -/
def dark : Chain := ⟨false, false, false, List.replicate 16 false, List.replicate 16 false⟩

/-- In the middle of the first change they are still dark, which is a picture as well. -/
theorem dark_rows_show_picture :
    Picture (dark.run ((List.replicate 2 loop).flatten.take 30)).outputs := by
  rcases picture_always (c := dark) rfl 2 (List.take_prefix 30 _) with hsame | hpicture
  · rw [hsame]
    exact ⟨0, 0, rfl, .inl ⟨rfl, rfl⟩⟩
  · exact hpicture

end Shiftout2

end Syndilights.PoC.Shiftout
