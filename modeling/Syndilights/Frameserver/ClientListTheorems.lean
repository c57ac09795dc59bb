import Syndilights.Frameserver.ClientList

/-!
# Terminals on which the clients can be listed

On three rows and more the clients are laid out in columns below the header. On fewer rows the
list is safe only while it stays empty.
-/

namespace Syndilights.Frameserver.Console

/-! ## Positions -/

/-- The position of an entry. -/
def Entry.position (e : Entry) : ℤ × ℤ := (e.row, e.col)

/-- The `k`-th client in columns of `m` rows. -/
def place (m k : ℕ) : ℤ × ℤ := ((k % m : ℕ) + 2, 32 * (k / m : ℕ))

lemma place_injective (m : ℕ) : Function.Injective (place m) := by
  intro k l h
  unfold place at h
  rw [Prod.mk.injEq] at h
  have hmod : k % m = l % m := by omega
  have hdiv : k / m = l / m := by omega
  rw [← Nat.div_add_mod k m, ← Nat.div_add_mod l m, hmod, hdiv]

/-- The list is printed, each client inside the screen and below the header, and no two of them at
one position. -/
def Listed (rows cols : ℤ) (result : Option (List Entry)) : Prop :=
  ∃ entries, result = some entries ∧
    (∀ e ∈ entries, 2 ≤ e.row ∧ e.row < rows ∧ 0 ≤ e.col ∧ e.col < cols) ∧
    (entries.map Entry.position).Nodup

lemma listed_nil (rows cols : ℤ) : Listed rows cols (some []) :=
  ⟨[], rfl, by simp, by simp⟩

lemma not_listed_none (rows cols : ℤ) : ¬Listed rows cols none := by
  rintro ⟨entries, h, -⟩
  exact absurd h (by simp)

/-! ## Three rows and more -/

section
variable {rows cols offset : ℤ} {selected_buffer i m : ℕ} {buffer : Buffer} {buffers : List Buffer}

lemma remainder_natCast (i : ℕ) (hm : 0 < m) : remainder i m = some ((i % m : ℕ) : ℤ) := by
  rw [remainder, if_neg (by omega), Int.ofNat_tmod]

/-- The offset in front of the `i`-th client. -/
def Offset (m i : ℕ) (offset : ℤ) : Prop :=
  if i = 0 then offset = 0 else offset = 32 * ((i - 1) / m : ℕ)

lemma advance_eq (hm : 0 < m) (hrows : rows = m + 2) (h : Offset m i offset) :
    advance rows i offset = some (32 * ((i / m : ℕ) : ℤ)) := by
  have hrows' : rows - 2 = m := by omega
  unfold advance Offset at *
  cases i with
  | zero =>
    rw [if_pos rfl] at h
    rw [if_neg (lt_irrefl 0), h, Nat.zero_div]
    rfl
  | succ i =>
    -- a new column starts behind every `m` clients
    rw [if_neg (Nat.succ_ne_zero i), Nat.add_sub_cancel] at h
    rw [if_pos (Nat.succ_pos i), hrows', remainder_natCast _ hm, Option.map_some, h, Nat.succ_div]
    congr 1
    split_ifs <;> omega

lemma print_eq (cols : ℤ) (selected_buffer i : ℕ) (buffer : Buffer) (hm : 0 < m)
    (hrows : rows = m + 2) :
    ∃ entries, print rows cols selected_buffer i (32 * (i / m : ℕ)) buffer = some entries ∧
      (entries = [] ∨ ∃ e, entries = [e] ∧ e.position = place m i ∧ e.col + 32 < cols) := by
  have hrows' : rows - 2 = m := by omega
  unfold print
  split_ifs with hcols
  · rw [hrows', remainder_natCast _ hm]
    exact ⟨_, rfl, Or.inr ⟨_, rfl, rfl, hcols⟩⟩
  · exact ⟨[], rfl, Or.inl rfl⟩

/-- The entries of the `i`-th client and the ones behind it. -/
structure Laid (m i : ℕ) (cols : ℤ) (entries : List Entry) : Prop where
  places : ∀ e ∈ entries, ∃ k, i ≤ k ∧ e.position = place m k ∧ e.col + 32 < cols
  nodup : (entries.map Entry.position).Nodup

lemma Laid.mono {entries : List Entry} {l : ℕ} (h : Laid m l cols entries) (hle : i ≤ l) :
    Laid m i cols entries where
  places e he := by
    rcases h.places e he with ⟨k, hk, hplace⟩
    exact ⟨k, hle.trans hk, hplace⟩
  nodup := h.nodup

/-- A client in front of the others has a position of its own. -/
lemma Laid.cons {entries : List Entry} (h : Laid m (i + 1) cols entries) {e : Entry}
    (hplace : e.position = place m i) (hcols : e.col + 32 < cols) :
    Laid m i cols (e :: entries) where
  places := by
    rw [List.forall_mem_cons]
    exact ⟨⟨i, le_rfl, hplace, hcols⟩, (h.mono (Nat.le_succ i)).places⟩
  nodup := by
    rw [List.map_cons, List.nodup_cons]
    refine ⟨fun hmem => ?_, h.nodup⟩
    rcases List.mem_map.mp hmem with ⟨e', he', hsame⟩
    rcases h.places e' he' with ⟨k, hk, hplace', -⟩
    rw [hplace, hplace'] at hsame
    -- the places of the later clients are other ones
    have heq := place_injective m hsame
    omega

/-- The loop lays out the clients from the `i`-th on. -/
lemma printFrom_laid (hm : 0 < m) (hrows : rows = m + 2) (h : Offset m i offset) :
    ∃ entries, printFrom rows cols selected_buffer i offset buffers = some entries ∧
      Laid m i cols entries := by
  induction buffers generalizing i offset with
  | nil => exact ⟨[], rfl, by simp, by simp⟩
  | cons buffer buffers ih =>
    have hnext : Offset m (i + 1) (32 * (i / m : ℕ)) := by
      rw [Offset, if_neg (Nat.succ_ne_zero i), Nat.add_sub_cancel]
    rcases ih hnext with ⟨later, hlater, hlaid⟩
    rcases print_eq cols selected_buffer i buffer hm hrows with ⟨first, hfirst, hcases⟩
    refine ⟨first ++ later, ?_, ?_⟩
    · rw [printFrom, advance_eq hm hrows h, Option.bind_some, hfirst, Option.bind_some, hlater]
      rfl
    · rcases hcases with rfl | ⟨e, rfl, hplace, hcols⟩
      · exact hlaid.mono (Nat.le_succ i)
      · exact hlaid.cons hplace hcols

/-- Three rows and more: every list is laid out. -/
lemma listed_of_three_le (hrows : 3 ≤ rows) (cols : ℤ) (c : Console) :
    Listed rows cols (console_printclients rows cols c) := by
  obtain ⟨m, hm⟩ : ∃ m : ℕ, rows = m + 2 := ⟨(rows - 2).toNat, by omega⟩
  have hpos : 0 < m := by omega
  have hstart : Offset m 0 0 := by rw [Offset, if_pos rfl]
  rcases printFrom_laid hpos hm hstart with ⟨entries, hentries, hlaid⟩
  refine ⟨entries, hentries, fun e he => ?_, hlaid.nodup⟩
  rcases hlaid.places e he with ⟨k, -, hplace, hcols⟩
  rw [Entry.position, place, Prod.mk.injEq] at hplace
  have hlt := Nat.mod_lt k hpos
  have hcol : 0 ≤ e.col := by
    rw [hplace.2]
    positivity
  omega

end

/-! ## One row and two rows -/

section
variable {rows cols offset : ℤ} {selected_buffer i : ℕ} {buffers : List Buffer}

/-- On a narrow terminal nothing is printed, unless it has two rows. -/
lemma printFrom_narrow (hrows : rows ≠ 2) (hcols : cols ≤ 32) (hoffset : 0 ≤ offset) :
    printFrom rows cols selected_buffer i offset buffers = some [] := by
  induction buffers generalizing i offset with
  | nil => rfl
  | cons buffer buffers ih =>
    obtain ⟨next, hnext, hle⟩ : ∃ next, advance rows i offset = some next ∧ 0 ≤ next := by
      unfold advance remainder
      rw [if_neg (by omega : ¬rows - 2 = 0), Option.map_some]
      split_ifs
      · exact ⟨_, rfl, by omega⟩
      · exact ⟨_, rfl, hoffset⟩
      · exact ⟨_, rfl, hoffset⟩
    rw [printFrom, hnext, Option.bind_some, print, if_neg (by omega), Option.bind_some, ih hle]
    rfl

/-- The first client on a wide terminal of one row is below its only row. -/
lemma not_listed_one (hcols : 32 < cols) (buffer : Buffer) :
    ¬Listed 1 cols (printFrom 1 cols selected_buffer 0 0 (buffer :: buffers)) := by
  rintro ⟨entries, hentries, hinside, -⟩
  have hprint : print 1 cols selected_buffer 0 0 buffer = some [_] := if_pos hcols
  rw [printFrom, advance, if_neg (lt_irrefl 0), Option.bind_some, hprint, Option.bind_some,
    Option.map_eq_some_iff] at hentries
  rcases hentries with ⟨later, -, rfl⟩
  have hrow : (0 : ℤ).tmod (1 - 2) + 2 < 1 := (hinside _ List.mem_cons_self).2.1
  exact absurd hrow (by decide)

/-- On two rows nothing can be printed, and a second client is not reached. -/
lemma printFrom_two (cols : ℤ) (selected_buffer : ℕ) (buffer : Buffer) (buffers : List Buffer) :
    printFrom 2 cols selected_buffer 0 0 (buffer :: buffers) =
      if cols ≤ 32 ∧ buffers = [] then some [] else none := by
  rw [printFrom, advance, if_neg (lt_irrefl 0), Option.bind_some, print]
  by_cases hcols : cols ≤ 32
  · rw [if_neg (by omega), Option.bind_some]
    cases buffers with
    | nil =>
      rw [if_pos ⟨hcols, rfl⟩]
      rfl
    | cons next buffers =>
      -- `advance` takes the remainder for the second client
      rw [if_neg fun h => absurd h.2 (List.cons_ne_nil next buffers)]
      rfl
  · -- `print` takes it for the first one
    rw [if_pos (by omega), if_neg fun h => hcols h.1]
    rfl

end

/-! ## The condition -/

/-- **Terminals on which the clients can be listed.** -/
theorem listed_iff {rows : ℤ} (cols : ℤ) (c : Console) (hrows : 1 ≤ rows) :
    Listed rows cols (console_printclients rows cols c) ↔
      c.server.buffers = [] ∨ 3 ≤ rows ∨
        (cols ≤ 32 ∧ (rows = 1 ∨ c.server.buffers.length = 1)) := by
  unfold console_printclients
  cases hbuffers : c.server.buffers with
  | nil => exact iff_of_true (listed_nil rows cols) (Or.inl rfl)
  | cons buffer buffers =>
    rw [List.length_cons, Nat.add_eq_right, List.length_eq_zero_iff, or_iff_right (by simp)]
    rcases (by omega : rows = 1 ∨ rows = 2 ∨ 3 ≤ rows) with rfl | rfl | hthree
    · by_cases hcols : cols ≤ 32
      · rw [printFrom_narrow (by decide) hcols le_rfl]
        exact iff_of_true (listed_nil 1 cols) (Or.inr ⟨hcols, Or.inl rfl⟩)
      · exact iff_of_false (not_listed_one (not_le.mp hcols) buffer) (by omega)
    · rw [printFrom_two]
      split_ifs with hquiet
      · exact iff_of_true (listed_nil 2 cols) (Or.inr ⟨hquiet.1, Or.inr hquiet.2⟩)
      · refine iff_of_false (not_listed_none 2 cols) ?_
        rintro (hthree | ⟨hcols, hone | hnil⟩)
        · exact absurd hthree (by decide)
        · exact absurd hone (by decide)
        · exact hquiet ⟨hcols, hnil⟩
    · have hlisted := listed_of_three_le hthree cols c
      rw [console_printclients, hbuffers] at hlisted
      exact iff_of_true hlisted (Or.inl hthree)

/-- A console with the clients at these addresses. -/
def withClients (addresses : List UInt32) : Console :=
  { init default 0 with
    server := { Server.init default with
      buffers := addresses.map fun address => ⟨Endpoint.toStr ⟨address, 4242⟩, default⟩
      endpoints := addresses.map fun address => ⟨address, 4242⟩
      times := addresses.map fun _ => 0 } }

/-- A console with one client. -/
def oneClient : Console := withClients [0x0A027106]

/-- Four clients on five rows: three are below each other, and the fourth is in a second column. -/
theorem listed_terminal :
    let c := withClients [0x0A027106, 0x0A027107, 0x0A027108, 0x0A027109]
    Listed 5 80 (console_printclients 5 80 c) ∧
      (console_printclients 5 80 c).map (·.map fun entry => (entry.row, entry.col))
        = some [(2, 0), (3, 0), (4, 0), (2, 32)] :=
  ⟨(listed_iff 80 _ (by decide)).mpr (Or.inr (Or.inl (by decide))), rfl⟩

/-- On two rows and 80 columns, the first client is a remainder by zero. -/
theorem two_rows_by_zero :
    console_printclients 2 80 oneClient = none ∧
      ¬Listed 2 80 (console_printclients 2 80 oneClient) := by
  have hnone : console_printclients 2 80 oneClient = none := printFrom_two 80 0 _ []
  rw [hnone]
  exact ⟨rfl, not_listed_none 2 80⟩

end Syndilights.Frameserver.Console
