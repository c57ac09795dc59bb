import Syndilights.Frameserver.TableTheorems

/-!
# When `listen` stores only what was sent

`recv_buf` is not initialised and the length of the datagram is not looked at, so the
hash check of a short datagram reads what the memory held before. `onlySent_iff` says
exactly for which datagrams this cannot be seen in the state.
-/

namespace Syndilights.Frameserver
namespace Server

/-! ## The property -/

/-- The vectors and the packet counter are as before. -/
def Untouched (s s' : Server) : Prop :=
  s'.buffers = s.buffers ∧ s'.endpoints = s.endpoints ∧ s'.times = s.times ∧
    s'.packetcounter = s.packetcounter

/-- Every byte of the frame is a byte of the datagram, at the offset of the format. -/
def SentAs (bytes : List UInt8) (frame : Frame) : Prop :=
  bytes[10]? = some frame.z ∧
  (∀ p, bytes[(recvWindow p).val]? = some (frame.windows p)) ∧
  (∀ p, bytes[(recvSegment p).val]? = some (frame.segments p))

/-- The bytes determine the frame. -/
lemma SentAs.unique {bytes : List UInt8} {f f' : Frame} (h : SentAs bytes f)
    (h' : SentAs bytes f') : f = f' := by
  refine Frame.ext ?_ (funext fun p => ?_) (funext fun p => ?_)
  · exact Option.some.inj (h.1.symm.trans h'.1)
  · exact Option.some.inj ((h.2.1 p).symm.trans (h'.2.1 p))
  · exact Option.some.inj ((h.2.2 p).symm.trans (h'.2.2 p))

/-- Only what a source sent reaches the state, whatever the uninitialised memory holds. -/
structure OnlySent (s : Server) (recv : Recv) (now : ℤ) : Prop where
  sent : ∀ stale, Untouched s (listen stale recv now s).1 ∨
    ∃ frame, SentAs recv.bytes frame ∧
      Stored s (listen stale recv now s).1 recv.remote_endpoint frame now
  two_runs : ∀ stale stale', (listen stale recv now s).1 = (listen stale' recv now s).1
  short : recv.bytes.length < BUFLEN → ∀ stale, Untouched s (listen stale recv now s).1
  error : recv.throws → ∀ stale, (listen stale recv now s).1 = s

lemma Untouched.rfl {s : Server} : Untouched s s := ⟨Eq.refl _, Eq.refl _, Eq.refl _, Eq.refl _⟩

/-! ## The hash check -/

/-- A datagram of at least `BUFLEN` bytes decides the whole buffer. -/
lemma fill_of_long {recv : Recv} (h : BUFLEN ≤ recv.bytes.length)
    (recv_buf : Fin BUFLEN → UInt8) (k : Fin BUFLEN) :
    recv.bytes[k.val]? = some (recv.fill recv_buf k) := by
  have hk : k.val < recv.bytes.length := lt_of_lt_of_le k.isLt h
  rw [Recv.fill, List.getD_eq_getElem?_getD, List.getElem?_eq_getElem hk, Option.getD_some]

lemma fill_congr_of_long {recv : Recv} (h : BUFLEN ≤ recv.bytes.length)
    (recv_buf recv_buf' : Fin BUFLEN → UInt8) : recv.fill recv_buf = recv.fill recv_buf' := by
  funext k
  have hk := (fill_of_long h recv_buf k).symm.trans (fill_of_long h recv_buf' k)
  exact Option.some.inj hk

/-- The first ten bytes that arrived are at the start of the header. -/
lemma take_prefix_header (recv : Recv) (recv_buf : Fin BUFLEN → UInt8) :
    recv.bytes.take 10 <+: header (recv.fill recv_buf) := by
  rw [List.prefix_iff_getElem?]
  intro i hi
  rw [List.length_take] at hi
  have hi10 : i < 10 := by omega
  have hlen : i < recv.bytes.length := by omega
  rw [List.getElem_take, header, List.getElem?_ofFn, dif_pos hi10]
  show some (recv.bytes.getD i _) = _
  rw [List.getD_eq_getElem?_getD, List.getElem?_eq_getElem hlen, Option.getD_some]

/-- Memory that holds an old packet's hash. -/
def hashed : Stale where
  recv_buf k := HASH.getD k 0
  frame := default

/-- Over such memory the check accepts every datagram whose bytes agree with the hash. -/
lemma header_hashed {recv : Recv} (h : recv.bytes.take 10 <+: HASH) :
    header (recv.fill hashed.recv_buf) = HASH := by
  apply List.ext_getElem?
  intro i
  rw [header, List.getElem?_ofFn]
  by_cases hi : i < 10
  · rw [dif_pos hi]
    show some (recv.bytes.getD i (HASH.getD i 0)) = HASH[i]?
    have hhash : i < HASH.length := hi
    rw [List.getD_eq_getElem?_getD, List.getD_eq_getElem?_getD,
      List.getElem?_eq_getElem hhash, Option.getD_some]
    by_cases hlen : i < recv.bytes.length
    · -- the byte arrived
      have htake : i < (recv.bytes.take 10).length := by rw [List.length_take]; omega
      have hbyte := List.prefix_iff_getElem?.mp h i htake
      rw [List.getElem_take, List.getElem?_eq_getElem hhash] at hbyte
      rw [List.getElem?_eq_getElem hlen, Option.getD_some, hbyte]
    · -- the byte is the old one
      rw [List.getElem?_eq_none (by omega), Option.getD_none]
  · rw [dif_neg hi, List.getElem?_eq_none (by rw [length_HASH]; omega)]

/-- Over zeroed memory a datagram of less than ten bytes is discarded. -/
lemma header_zeroed {recv : Recv} (h : recv.bytes.length < 10) :
    header (recv.fill fun _ => 0) ≠ HASH := by
  intro heq
  have hlast := congrArg (·[9]?) heq
  simp only [header, List.getElem?_ofFn] at hlast
  rw [dif_pos (by decide)] at hlast
  have hzero : recv.bytes.getD 9 0 = 0 := by
    rw [List.getD_eq_getElem?_getD, List.getElem?_eq_none (by omega), Option.getD_none]
  have hhash : HASH[9]? = some 32 := rfl
  rw [hhash, Option.some.injEq] at hlast
  exact absurd (hzero.symm.trans hlast) (by decide)

/-! ## When the property holds -/

section
variable {s : Server} {recv : Recv} {now : ℤ}

/-- A frame taken from a full-length datagram is the sender's. -/
lemma sentAs_of_long (h : BUFLEN ≤ recv.bytes.length) (recv_buf : Fin BUFLEN → UInt8) :
    SentAs recv.bytes (packetFrame (recv.fill recv_buf)) :=
  ⟨fill_of_long h recv_buf recvZ, fun p => fill_of_long h recv_buf (recvWindow p),
    fun p => fill_of_long h recv_buf (recvSegment p)⟩

/-- An error carries no bytes. -/
lemma bytes_of_throws (h : recv.throws) : recv.bytes = [] := by
  cases recv with
  | datagram e bytes => exact absurd h (by simp [Recv.throws])
  | message_size e bytes hlen => exact absurd h (by simp [Recv.throws])
  | error code => rfl

/-- Nothing is at stake when every outcome is the old state. -/
lemma onlySent_of_same (h : ∀ stale, (listen stale recv now s).1 = s) : OnlySent s recv now where
  sent stale := Or.inl (by rw [h stale]; exact Untouched.rfl)
  two_runs stale stale' := by rw [h stale, h stale']
  short _ stale := by rw [h stale]; exact Untouched.rfl
  error _ := h

/-- A full-length datagram. -/
lemma onlySent_of_long (hs : Aligned s) (h : BUFLEN ≤ recv.bytes.length) :
    OnlySent s recv now where
  sent stale := by
    by_cases hash : header (recv.fill stale.recv_buf) = HASH
    · by_cases hroom : recv.remote_endpoint ∈ s.endpoints ∨ s.endpoints.length < NUMBUFS
      · exact Or.inr ⟨_, sentAs_of_long h stale.recv_buf,
          hs.refines.stored stale recv now hash hroom⟩
      · rw [not_or, not_lt] at hroom
        rw [listen_refuse stale recv now hs.refines hash hroom.1 hroom.2]
        exact Or.inl Untouched.rfl
    · rw [listen_discard stale recv now hash]
      exact Or.inl Untouched.rfl
  two_runs stale stale' := by
    have hfill := fill_congr_of_long h stale.recv_buf stale'.recv_buf
    by_cases hash : header (recv.fill stale'.recv_buf) = HASH
    · by_cases he : recv.remote_endpoint ∈ s.endpoints
      · rw [listen_known stale recv now hs.refines (hfill ▸ hash) he,
          listen_known stale' recv now hs.refines hash he, hfill]
      · by_cases hroom : s.endpoints.length < NUMBUFS
        · rw [listen_register stale recv now hs.refines (hfill ▸ hash) he hroom,
            listen_register stale' recv now hs.refines hash he hroom, hfill]
        · rw [listen_refuse stale recv now hs.refines (hfill ▸ hash) he (not_lt.mp hroom),
            listen_refuse stale' recv now hs.refines hash he (not_lt.mp hroom)]
    · rw [listen_discard stale recv now (hfill ▸ hash), listen_discard stale' recv now hash]
  short hshort := absurd h hshort.not_ge
  error herr := by
    rw [bytes_of_throws herr] at h
    exact absurd h (by decide)

/-- A short datagram whose bytes contradict the hash. -/
lemma onlySent_of_mismatch (h : ¬ recv.bytes.take 10 <+: HASH) : OnlySent s recv now := by
  apply onlySent_of_same
  intro stale
  rw [listen_discard stale recv now]
  intro hash
  exact h (hash ▸ take_prefix_header recv stale.recv_buf)

/-- A new source of a full table, whose ten first bytes arrived. -/
lemma onlySent_of_refused (hs : Aligned s) (hlen : 10 ≤ recv.bytes.length)
    (hpre : recv.bytes.take 10 <+: HASH) (he : recv.remote_endpoint ∉ s.endpoints)
    (hfull : s.endpoints.length = NUMBUFS) : OnlySent s recv now := by
  have hrefuse (stale : Stale) :
      (listen stale recv now s).1 = { s with currenttime := now } := by
    have hheader := take_prefix_header recv stale.recv_buf
    have hten : (recv.bytes.take 10).length = 10 := by rw [List.length_take]; omega
    have hash : header (recv.fill stale.recv_buf) = HASH := by
      rw [← hpre.eq_of_length (by rw [hten, length_HASH])]
      exact (hheader.eq_of_length (by rw [hten, header, List.length_ofFn])).symm
    rw [listen_refuse stale recv now hs.refines hash he hfull.ge]
  have hsame (stale : Stale) : Untouched s (listen stale recv now s).1 := by
    rw [hrefuse stale]
    exact Untouched.rfl
  constructor
  · exact fun stale => Or.inl (hsame stale)
  · exact fun stale stale' => (hrefuse stale).trans (hrefuse stale').symm
  · exact fun _ stale => hsame stale
  · intro herr
    rw [bytes_of_throws herr] at hlen
    exact absurd hlen (by decide)

/-- A new source of a full table, when the clock has not moved. -/
lemma onlySent_of_refused_now (hs : Aligned s) (he : recv.remote_endpoint ∉ s.endpoints)
    (hfull : s.endpoints.length = NUMBUFS) (hnow : now = s.currenttime) :
    OnlySent s recv now := by
  apply onlySent_of_same
  intro stale
  by_cases hash : header (recv.fill stale.recv_buf) = HASH
  · rw [listen_refuse stale recv now hs.refines hash he hfull.ge, hnow]
  · rw [listen_discard stale recv now hash]

/-- A packet that is accepted and stored is counted. -/
lemma packetcounter_stored (hs : Aligned s) (stale : Stale)
    (hash : header (recv.fill stale.recv_buf) = HASH)
    (hroom : recv.remote_endpoint ∈ s.endpoints ∨ s.endpoints.length < NUMBUFS) :
    (listen stale recv now s).1.packetcounter = s.packetcounter + 1 := by
  by_cases he : recv.remote_endpoint ∈ s.endpoints
  · rw [listen_known stale recv now hs.refines hash he]
  · rw [listen_register stale recv now hs.refines hash he (hroom.resolve_left he)]

/-- A short datagram that agrees with the hash so far is stored over an old packet. -/
lemma not_onlySent_of_stored (hs : Aligned s) (hshort : recv.bytes.length < BUFLEN)
    (hpre : recv.bytes.take 10 <+: HASH)
    (hroom : recv.remote_endpoint ∈ s.endpoints ∨ s.endpoints.length < NUMBUFS) :
    ¬ OnlySent s recv now := by
  intro honly
  have hcount := (honly.short hshort hashed).2.2.2
  rw [packetcounter_stored hs hashed (header_hashed hpre) hroom] at hcount
  exact absurd hcount (Nat.succ_ne_self _)

/-- A datagram without a full hash moves the clock of a full server or does not, as the
uninitialised memory has it. -/
lemma not_onlySent_of_clock (hs : Aligned s) (hten : recv.bytes.length < 10)
    (hpre : recv.bytes.take 10 <+: HASH) (he : recv.remote_endpoint ∉ s.endpoints)
    (hfull : s.endpoints.length = NUMBUFS) (hnow : now ≠ s.currenttime) :
    ¬ OnlySent s recv now := by
  intro honly
  have htwo := honly.two_runs hashed ⟨fun _ => 0, default⟩
  rw [listen_refuse hashed recv now hs.refines (header_hashed hpre) he hfull.ge,
    listen_discard _ recv now (header_zeroed hten)] at htwo
  exact hnow (congrArg Server.currenttime htwo)

/-- **Exactly when only sent bytes are stored.** The datagram fills the buffer; or its first
bytes contradict the hash; or its sender is new and the table full, and either the hash
arrived or the clock shows the second it showed last. -/
theorem onlySent_iff (hs : Aligned s) :
    OnlySent s recv now ↔
      BUFLEN ≤ recv.bytes.length ∨ ¬ recv.bytes.take 10 <+: HASH ∨
      (recv.remote_endpoint ∉ s.endpoints ∧ s.endpoints.length = NUMBUFS ∧
        (10 ≤ recv.bytes.length ∨ now = s.currenttime)) := by
  constructor
  · intro honly
    by_contra hcond
    simp only [not_or, not_le, not_not] at hcond
    rcases hcond with ⟨hshort, hpre, hrefused⟩
    by_cases hroom : recv.remote_endpoint ∈ s.endpoints ∨ s.endpoints.length < NUMBUFS
    · exact not_onlySent_of_stored hs hshort hpre hroom honly
    · rw [not_or, not_lt] at hroom
      have hfull : s.endpoints.length = NUMBUFS := hs.length_le.antisymm hroom.2
      have hlate : ¬ (10 ≤ recv.bytes.length ∨ now = s.currenttime) :=
        fun h => hrefused ⟨hroom.1, hfull, h⟩
      rw [not_or, not_le] at hlate
      exact not_onlySent_of_clock hs hlate.1 hpre hroom.1 hfull hlate.2 honly
  · intro hcond
    by_cases hpre : recv.bytes.take 10 <+: HASH
    · rcases hcond with hlong | hmismatch | ⟨he, hfull, hlen | hnow⟩
      · exact onlySent_of_long hs hlong
      · exact absurd hpre hmismatch
      · exact onlySent_of_refused hs hlen hpre he hfull
      · exact onlySent_of_refused_now hs he hfull hnow
    · exact onlySent_of_mismatch hpre

end

/-- The server before the first packet. -/
lemma aligned_init (raw : Uninit) : Aligned (init raw) := (refines_init raw).aligned

/-- A full packet at a server that just started, and the hash alone, ten bytes. -/
theorem onlySent_iff_hash :
    OnlySent (init default) (.datagram firstSource (opaquePacket 1 200).1) 5 ∧
      ¬ OnlySent (init default) (.datagram firstSource HASH) 5 := by
  constructor
  · exact (onlySent_iff (aligned_init default)).mpr (Or.inl (opaquePacket 1 200).2)
  · exact (onlySent_iff (aligned_init default)).not.mpr (by decide)

/-- Ten bytes become a frame. -/
theorem short_datagram_stored :
    Aligned (init default) ∧ ¬ OnlySent (init default) (.datagram firstSource HASH) 0 := by
  refine ⟨aligned_init default, not_onlySent_of_stored (aligned_init default) ?_ ?_ ?_⟩
  · decide
  · exact List.take_prefix 10 HASH
  · exact Or.inr (by decide)

end Server
end Syndilights.Frameserver
