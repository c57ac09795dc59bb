import Mathlib.Tactic
import Mathlib.Data.List.Nodup

/-!
# Bounded insertion-ordered tables

A table of at most `cap` entries with distinct keys, kept in the order in which the keys
were inserted. Writing a known key replaces its value in place, a new key is appended,
and a new key is refused when the table is full; a sweep drops every entry whose value
satisfies a predicate.

* `mem_run` reads an entry back to the last `put` of its key in the history;
* `erase_run` deletes one key from a whole history in which no key is refused.
-/

/-- Entries with distinct keys in insertion order, at most `cap` of them. -/
@[ext]
structure BoundedTable (κ ν : Type*) (cap : ℕ) where
  entries : List (κ × ν)
  nodup : (entries.map Prod.fst).Nodup
  size_le : entries.length ≤ cap

namespace BoundedTable

variable {κ ν : Type*} {cap : ℕ}

/-- The keys, oldest registration first. -/
def keys (t : BoundedTable κ ν cap) : List κ := t.entries.map Prod.fst

/-- The table without entries. -/
def empty : BoundedTable κ ν cap where
  entries := []
  nodup := List.nodup_nil
  size_le := Nat.zero_le cap

@[simp] lemma entries_empty : (empty : BoundedTable κ ν cap).entries = [] := rfl

lemma nodup_keys (t : BoundedTable κ ν cap) : t.keys.Nodup := t.nodup

@[simp] lemma length_keys (t : BoundedTable κ ν cap) : t.keys.length = t.entries.length :=
  List.length_map ..

lemma mem_keys_of_mem {t : BoundedTable κ ν cap} {e : κ × ν} (h : e ∈ t.entries) :
    e.1 ∈ t.keys :=
  List.mem_map_of_mem h

/-- Drop every entry whose value satisfies `p`. -/
def sweep (p : ν → Bool) (t : BoundedTable κ ν cap) : BoundedTable κ ν cap where
  entries := t.entries.filter fun e => !p e.2
  nodup := ((List.filter_sublist).map Prod.fst).nodup t.nodup
  size_le := (List.length_filter_le ..).trans t.size_le

@[simp] lemma entries_sweep (p : ν → Bool) (t : BoundedTable κ ν cap) :
    (t.sweep p).entries = t.entries.filter fun e => !p e.2 := rfl

variable [DecidableEq κ]

/-- Forget the entry of one key. -/
def erase (k : κ) (t : BoundedTable κ ν cap) : BoundedTable κ ν cap where
  entries := t.entries.filter fun e => e.1 ≠ k
  nodup := ((List.filter_sublist).map Prod.fst).nodup t.nodup
  size_le := (List.length_filter_le ..).trans t.size_le

@[simp] lemma entries_erase (k : κ) (t : BoundedTable κ ν cap) :
    (t.erase k).entries = t.entries.filter fun e => e.1 ≠ k := rfl

lemma mem_keys_erase {k k' : κ} {t : BoundedTable κ ν cap} :
    k' ∈ (t.erase k).keys ↔ k' ∈ t.keys ∧ k' ≠ k := by
  simp only [keys, entries_erase, List.mem_map, List.mem_filter, decide_eq_true_eq]
  constructor
  · rintro ⟨e, ⟨he, hk⟩, rfl⟩
    exact ⟨⟨e, he, rfl⟩, hk⟩
  · rintro ⟨⟨e, he, rfl⟩, hk⟩
    exact ⟨e, ⟨he, hk⟩, rfl⟩

/-- A key that is not registered is erased without effect. -/
lemma erase_of_notMem {k : κ} {t : BoundedTable κ ν cap} (h : k ∉ t.keys) : t.erase k = t := by
  ext1
  rw [entries_erase, List.filter_eq_self]
  intro e he
  have hne : e.1 ≠ k := fun hk => h (hk ▸ mem_keys_of_mem he)
  simpa using hne

/-! ## Writing a key -/

/-- The entries with the value of `k` replaced. -/
def replaced (k : κ) (v : ν) (l : List (κ × ν)) : List (κ × ν) :=
  l.map fun e => if e.1 = k then (k, v) else e

lemma map_fst_replaced (k : κ) (v : ν) (l : List (κ × ν)) :
    (replaced k v l).map Prod.fst = l.map Prod.fst := by
  rw [replaced, List.map_map]
  refine List.map_congr_left fun e _ => ?_
  by_cases h : e.1 = k <;> simp [h]

/-- Write `v` under `k`: in place for a known key, at the end for a new one, and not at
all for a new key of a full table. -/
def put (k : κ) (v : ν) (t : BoundedTable κ ν cap) : BoundedTable κ ν cap :=
  if hk : k ∈ t.keys then
    { entries := replaced k v t.entries
      nodup := by rw [map_fst_replaced]; exact t.nodup
      size_le := by rw [replaced, List.length_map]; exact t.size_le }
  else if hc : t.entries.length < cap then
    { entries := t.entries ++ [(k, v)]
      nodup := by
        rw [List.map_append, List.nodup_append]
        refine ⟨t.nodup, by simp, ?_⟩
        rintro a ha b hb rfl
        have hak : a = k := by simpa using hb
        exact hk (hak ▸ ha)
      size_le := by simpa using hc }
  else t

lemma entries_put_known {k : κ} {t : BoundedTable κ ν cap} (h : k ∈ t.keys) (v : ν) :
    (t.put k v).entries = replaced k v t.entries := by
  rw [put, dif_pos h]

lemma entries_put_new {k : κ} {t : BoundedTable κ ν cap} (h : k ∉ t.keys)
    (hc : t.entries.length < cap) (v : ν) :
    (t.put k v).entries = t.entries ++ [(k, v)] := by
  rw [put, dif_neg h, dif_pos hc]

/-- A new key of a full table changes nothing. -/
lemma put_refused {k : κ} {t : BoundedTable κ ν cap} (h : k ∉ t.keys)
    (hc : cap ≤ t.entries.length) (v : ν) : t.put k v = t := by
  rw [put, dif_neg h, dif_neg hc.not_gt]

/-- In a list with distinct keys the replaced entry is the one at the key's index. -/
lemma replaced_eq_set {k : κ} {l : List (κ × ν)} (hn : (l.map Prod.fst).Nodup)
    (hk : k ∈ l.map Prod.fst) (v : ν) :
    replaced k v l = l.set ((l.map Prod.fst).idxOf k) (k, v) := by
  induction l with
  | nil => simp at hk
  | cons e l ih =>
    rw [List.map_cons, List.nodup_cons] at hn
    by_cases he : e.1 = k
    · -- the key is at the head, so no later entry carries it
      have htail : l.map (fun e => if e.1 = k then (k, v) else e) = l := by
        conv_rhs => rw [← List.map_id l]
        refine List.map_congr_left fun e' he' => ?_
        have hne : e'.1 ≠ k := fun h => hn.1 (he ▸ h ▸ List.mem_map_of_mem he')
        simp [hne]
      simp [replaced, he, htail, List.idxOf_cons_self]
    · have hk' : k ∈ l.map Prod.fst := by
        rw [List.map_cons, List.mem_cons] at hk
        exact hk.resolve_left fun h => he h.symm
      rw [List.map_cons, List.idxOf_cons_ne _ he, List.set_cons_succ, ← ih hn.2 hk']
      simp [replaced, he]

/-- Only the entry of the written key changes. -/
lemma mem_put_of_ne {k k' : κ} {v w : ν} {t : BoundedTable κ ν cap} (h : k' ≠ k) :
    (k', w) ∈ (t.put k v).entries ↔ (k', w) ∈ t.entries := by
  by_cases hk : k ∈ t.keys
  · rw [entries_put_known hk, replaced, List.mem_map]
    constructor
    · rintro ⟨e, he, heq⟩
      by_cases hek : e.1 = k
      · rw [if_pos hek] at heq
        exact absurd (congrArg Prod.fst heq).symm h
      · rw [if_neg hek] at heq
        exact heq ▸ he
    · intro hw
      exact ⟨(k', w), hw, if_neg h⟩
  · by_cases hc : t.entries.length < cap
    · rw [entries_put_new hk hc]
      simp [h]
    · rw [put_refused hk (not_lt.mp hc)]

/-- After a `put` the key, when it is registered, has the written value. -/
lemma value_of_mem_put {k : κ} {v w : ν} {t : BoundedTable κ ν cap}
    (h : (k, w) ∈ (t.put k v).entries) : w = v := by
  by_cases hk : k ∈ t.keys
  · rw [entries_put_known hk, replaced, List.mem_map] at h
    rcases h with ⟨e, -, heq⟩
    by_cases hek : e.1 = k
    · rw [if_pos hek] at heq
      exact (congrArg Prod.snd heq).symm
    · rw [if_neg hek] at heq
      exact absurd (congrArg Prod.fst heq) hek
  · by_cases hc : t.entries.length < cap
    · rw [entries_put_new hk hc, List.mem_append] at h
      rcases h with h | h
      · exact absurd (mem_keys_of_mem h) hk
      · simpa using h
    · rw [put_refused hk (not_lt.mp hc)] at h
      exact absurd (mem_keys_of_mem h) hk

/-- Writing the only registered key leaves it the only entry. -/
lemma entries_put_only {k : κ} {t : BoundedTable κ ν cap} (h : ∀ k' ∈ t.keys, k' = k)
    (hcap : 0 < cap) (v : ν) : (t.put k v).entries = [(k, v)] := by
  cases hl : t.entries with
  | nil =>
    have hk : k ∉ t.keys := by rw [keys, hl]; exact List.not_mem_nil
    rw [entries_put_new hk (by rw [hl]; exact hcap), hl]
    rfl
  | cons e l =>
    have hkeys : t.keys = e.1 :: l.map Prod.fst := by rw [keys, hl, List.map_cons]
    have he : e.1 = k := h e.1 (by rw [hkeys]; exact List.mem_cons_self)
    -- a second key would be the same one
    have htail : l = [] := by
      have hnodup := t.nodup_keys
      rw [hkeys, List.nodup_cons] at hnodup
      cases l with
      | nil => rfl
      | cons e' l =>
        have he' : e'.1 = k := h e'.1 (by simp [hkeys])
        exact absurd (by simp [he, he']) hnodup.1
    rw [entries_put_known (he ▸ mem_keys_of_mem (by rw [hl]; exact List.mem_cons_self)), hl,
      htail, replaced]
    simp [he]

/-! ## Histories -/

/-- One operation on the table. -/
inductive Op (κ ν : Type*)
  | put (k : κ) (v : ν)
  | sweep (p : ν → Bool)

/-- The table after one operation. -/
def apply (t : BoundedTable κ ν cap) : Op κ ν → BoundedTable κ ν cap
  | .put k v => t.put k v
  | .sweep p => t.sweep p

/-- The table after a history of operations. -/
def run (t : BoundedTable κ ν cap) (ops : List (Op κ ν)) : BoundedTable κ ν cap :=
  ops.foldl apply t

@[simp] lemma run_nil (t : BoundedTable κ ν cap) : t.run [] = t := rfl

lemma run_append (t : BoundedTable κ ν cap) (ops ops' : List (Op κ ν)) :
    t.run (ops ++ ops') = (t.run ops).run ops' := by
  simp only [run, List.foldl_append]

lemma run_concat (t : BoundedTable κ ν cap) (ops : List (Op κ ν)) (op : Op κ ν) :
    t.run (ops ++ [op]) = (t.run ops).apply op := by
  rw [run_append]; rfl

/-- **Provenance.** An entry of a table that started empty was written by the last `put`
of its key, and has been in the table ever since. -/
theorem mem_run {ops : List (Op κ ν)} {k : κ} {v : ν}
    (h : (k, v) ∈ ((empty : BoundedTable κ ν cap).run ops).entries) :
    ∃ pre post, ops = pre ++ .put k v :: post ∧ (∀ w, .put k w ∉ post) ∧
      ∀ mid, mid <+: post →
        (k, v) ∈ ((empty : BoundedTable κ ν cap).run (pre ++ .put k v :: mid)).entries := by
  induction ops using List.reverseRecOn with
  | nil => simp at h
  | append_singleton ops op ih =>
    -- an operation that leaves the entry in place extends `post`
    have extend (hmem : (k, v) ∈ ((empty : BoundedTable κ ν cap).run ops).entries)
        (hop : ∀ w, op ≠ .put k w) :
        ∃ pre post, ops ++ [op] = pre ++ .put k v :: post ∧ (∀ w, .put k w ∉ post) ∧
          ∀ mid, mid <+: post →
            (k, v) ∈ ((empty : BoundedTable κ ν cap).run (pre ++ .put k v :: mid)).entries := by
      rcases ih hmem with ⟨pre, post, rfl, hlast, hkeep⟩
      refine ⟨pre, post ++ [op], by simp, ?_, ?_⟩
      · intro w hw
        rcases List.mem_append.mp hw with hw | hw
        · exact hlast w hw
        · exact hop w (List.mem_singleton.mp hw).symm
      · intro mid hmid
        rcases List.prefix_concat_iff.mp hmid with rfl | hmid
        · simpa using h
        · exact hkeep mid hmid
    rw [run_concat] at h
    cases op with
    | put k' v' =>
      by_cases hk : k = k'
      · -- the history ends with a `put` of this very key
        subst hk
        obtain rfl := value_of_mem_put h
        refine ⟨ops, [], rfl, by simp, ?_⟩
        intro mid hmid
        obtain rfl := List.prefix_nil.mp hmid
        rw [run_concat]
        exact h
      · exact extend ((mem_put_of_ne hk).mp h) fun w hw => hk (Op.put.inj hw).1.symm
    | sweep p =>
      exact extend (List.mem_of_mem_filter h) fun w hw => nomatch hw

/-! ## Deleting one key from a history -/

/-- Writing the erased key leaves the erased table as it is. -/
lemma erase_put_self (k : κ) (v : ν) (t : BoundedTable κ ν cap) :
    (t.put k v).erase k = t.erase k := by
  ext1
  by_cases hk : k ∈ t.keys
  · rw [entries_erase, entries_erase, entries_put_known hk, replaced]
    generalize t.entries = l
    induction l with
    | nil => rfl
    | cons e l ih => by_cases he : e.1 = k <;> simp_all
  · by_cases hc : t.entries.length < cap
    · simp [entries_put_new hk hc]
    · rw [put_refused hk (not_lt.mp hc)]

/-- Writing another key commutes with the erasure, as long as neither table refuses it. -/
lemma erase_put_of_ne {k k' : κ} (hne : k' ≠ k) (v : ν) (t : BoundedTable κ ν cap)
    (hroom : k' ∈ t.keys ∨ t.entries.length < cap) :
    (t.put k' v).erase k = (t.erase k).put k' v := by
  ext1
  by_cases hk : k' ∈ t.keys
  · rw [entries_erase, entries_put_known hk,
      entries_put_known (mem_keys_erase.mpr ⟨hk, hne⟩), entries_erase, replaced, replaced]
    generalize t.entries = l
    induction l with
    | nil => rfl
    | cons e l ih =>
      by_cases he : e.1 = k'
      · simp_all
      · by_cases he' : e.1 = k <;> simp_all
  · have hc := hroom.resolve_left hk
    have hc' : (t.erase k).entries.length < cap := (List.length_filter_le ..).trans_lt hc
    have hk' : k' ∉ (t.erase k).keys := fun h => hk (mem_keys_erase.mp h).1
    rw [entries_erase, entries_put_new hk hc, entries_put_new hk' hc']
    simp [hne]

/-- A sweep commutes with the erasure. -/
lemma erase_sweep (k : κ) (p : ν → Bool) (t : BoundedTable κ ν cap) :
    (t.sweep p).erase k = (t.erase k).sweep p := by
  ext1
  simp only [entries_erase, entries_sweep, List.filter_filter, Bool.and_comm]

/-- The operation writes the key `k`. -/
def Op.writes (k : κ) : Op κ ν → Bool
  | .put k' _ => k' = k
  | .sweep _ => false

lemma Op.writes_put (k k' : κ) (v : ν) : (Op.put k' v).writes k = decide (k' = k) := rfl

/-- No `put` of the history meets a full table that does not know its key. -/
def Fits (t : BoundedTable κ ν cap) (ops : List (Op κ ν)) : Prop :=
  ∀ pre k v, pre ++ [.put k v] <+: ops →
    k ∈ (t.run pre).keys ∨ (t.run pre).entries.length < cap

lemma Fits.of_concat {t : BoundedTable κ ν cap} {ops : List (Op κ ν)} {op : Op κ ν}
    (h : t.Fits (ops ++ [op])) : t.Fits ops :=
  fun pre k v hpre => h pre k v (hpre.trans (List.prefix_append ..))

/-- **Deletion.** In a history without refusals, erasing a key at the end is the same as
erasing it at the start and deleting its writes. -/
theorem erase_run {t : BoundedTable κ ν cap} {ops : List (Op κ ν)} (k : κ) (h : t.Fits ops) :
    (t.run ops).erase k = (t.erase k).run (ops.filter fun op => !op.writes k) := by
  induction ops using List.reverseRecOn with
  | nil => rfl
  | append_singleton ops op ih =>
    rw [run_concat, List.filter_append, run_append, ← ih h.of_concat]
    cases op with
    | put k' v =>
      by_cases hk : k' = k
      · -- a write of the key itself is deleted
        subst hk
        rw [List.filter_cons_of_neg (by simp [Op.writes])]
        exact erase_put_self ..
      · rw [List.filter_cons_of_pos (by simp [Op.writes, hk])]
        exact erase_put_of_ne hk v _ (h ops k' v List.prefix_rfl)
    | sweep p => exact erase_sweep ..

/-- One operation adds at most one entry. -/
lemma length_apply_le (t : BoundedTable κ ν cap) (op : Op κ ν) :
    (t.apply op).entries.length ≤ t.entries.length + 1 := by
  cases op with
  | put k v =>
    show (t.put k v).entries.length ≤ _
    by_cases hk : k ∈ t.keys
    · rw [entries_put_known hk, replaced, List.length_map]
      omega
    · by_cases hc : t.entries.length < cap
      · rw [entries_put_new hk hc, List.length_append]
        rfl
      · rw [put_refused hk (not_lt.mp hc)]
        omega
  | sweep p => exact (List.length_filter_le ..).trans (Nat.le_succ _)

lemma length_run_le (t : BoundedTable κ ν cap) (ops : List (Op κ ν)) :
    (t.run ops).entries.length ≤ t.entries.length + ops.length := by
  induction ops using List.reverseRecOn with
  | nil => exact le_rfl
  | append_singleton ops op ih =>
    have hop := length_apply_le (t.run ops) op
    rw [run_concat, List.length_append, List.length_singleton]
    omega

end BoundedTable
