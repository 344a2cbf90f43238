import Mathlib
import LedgerSearch.Memory.Sample
import LedgerSearch.Proofs.LedgerClose.Announcement

/-
  The rows of a closed ledger. The join goes through the results in the order of application, each
  taking the envelope of its hash out of the set; so the rows keep this order, no two results share
  a hash, and the order of the envelopes in the set plays no part where their hashes differ
  (`LedgerClose.decode_rows`). The join succeeds whenever each result finds an envelope of its own
  (`LedgerClose.exists_join_iff`).
-/

namespace LedgerSearch

open Wire Wire.Reader

namespace LedgerClose

variable {seq : UInt32} {set set' : List (Hash × Envelope)}

/-! ## The join -/

theorem mem_of_lookup_reverse {h : Hash} {e : Envelope} (hlookup : set.reverse.lookup h = some e) :
    (h, e) ∈ set := by
  obtain ⟨before, behind, hsplit, -⟩ := List.lookup_eq_some_iff.mp hlookup
  rw [← List.mem_reverse, hsplit]
  exact List.mem_append_right _ List.mem_cons_self

/-- Where no hash occurs twice, the envelope found for a hash is the one that stands with it. -/
theorem lookup_reverse_eq_some_iff (hset : (set.map Prod.fst).Nodup) {h : Hash} {e : Envelope} :
    set.reverse.lookup h = some e ↔ (h, e) ∈ set := by
  constructor
  · exact mem_of_lookup_reverse
  · intro hmem
    obtain ⟨before, behind, hsplit⟩ := List.append_of_mem (List.mem_reverse.mpr hmem)
    refine List.lookup_eq_some_iff.mpr ⟨before, behind, hsplit, fun p hp => ?_⟩
    have hnodup : ((before ++ (h, e) :: behind).map Prod.fst).Nodup := by
      rw [← hsplit, List.map_reverse]
      exact List.nodup_reverse.mpr hset
    rw [List.map_append, List.map_cons, List.nodup_append] at hnodup
    have hne := hnodup.2.2 p.1 (List.mem_map_of_mem hp) h List.mem_cons_self
    exact bne_iff_ne.mpr hne.symm

theorem lookup_reverse_perm (hset : (set.map Prod.fst).Nodup) (h : set'.Perm set) (hash : Hash) :
    set'.reverse.lookup hash = set.reverse.lookup hash := by
  have hset' : (set'.map Prod.fst).Nodup := (h.map Prod.fst).nodup_iff.mpr hset
  refine Option.ext fun e => ?_
  rw [lookup_reverse_eq_some_iff hset', lookup_reverse_eq_some_iff hset, h.mem_iff]

theorem join_cons_eq_ok {a : Applied} {rest : List Applied} {joined : List (Applied × Envelope)} :
    join seq set (a :: rest) = .ok joined ↔
      ∃ e more, set.reverse.lookup a.result.hash = some e ∧
        join seq (set.filter (·.1 ≠ a.result.hash)) rest = .ok more ∧ joined = (a, e) :: more := by
  rw [join]
  cases set.reverse.lookup a.result.hash with
  | none => simp
  | some e =>
    cases join seq (set.filter (·.1 ≠ a.result.hash)) rest with
    | error e => simp [Except.map]
    | ok more => simp [Except.map, eq_comm]

/-- The results, no two of one hash, each with an envelope that the set has under its hash. -/
structure Joined (set : List (Hash × Envelope)) (applied : List Applied)
    (joined : List (Applied × Envelope)) : Prop where
  map_fst : joined.map Prod.fst = applied
  mem_set : ∀ p ∈ joined, (p.1.result.hash, p.2) ∈ set
  nodup : (applied.map (·.result.hash)).Nodup

/-- By induction on the results: an envelope that was taken is not in the set any more, so none of
    the results that follow has its hash. -/
theorem joined_of_join {applied : List Applied} {joined : List (Applied × Envelope)}
    (h : join seq set applied = .ok joined) : Joined set applied joined := by
  induction applied generalizing set joined with
  | nil =>
    obtain rfl := Except.ok.inj h
    exact ⟨rfl, List.forall_mem_nil _, List.nodup_nil⟩
  | cons a rest ih =>
    obtain ⟨e, more, hlookup, hmore, rfl⟩ := join_cons_eq_ok.mp h
    have hjoined := ih hmore
    have hmem : ∀ p ∈ more, (p.1.result.hash, p.2) ∈ set ∧ p.1.result.hash ≠ a.result.hash := by
      intro p hp
      simpa using hjoined.mem_set p hp
    refine ⟨?_, ?_, ?_⟩
    · rw [List.map_cons, hjoined.map_fst]
    · intro p hp
      cases hp with
      | head => exact mem_of_lookup_reverse hlookup
      | tail _ hp => exact (hmem p hp).1
    · rw [List.map_cons, List.nodup_cons]
      refine ⟨fun hagain => ?_, hjoined.nodup⟩
      obtain ⟨b, hb, heq⟩ := List.mem_map.mp hagain
      rw [← hjoined.map_fst] at hb
      obtain ⟨p, hp, rfl⟩ := List.mem_map.mp hb
      exact (hmem p hp).2 heq

theorem exists_lookup_reverse {h : Hash} {e : Envelope} (hmem : (h, e) ∈ set) :
    ∃ e', set.reverse.lookup h = some e' := by
  cases hlookup : set.reverse.lookup h with
  | some e' => exact ⟨e', rfl⟩
  | none =>
    have hne := List.lookup_eq_none_iff.mp hlookup (h, e) (List.mem_reverse.mpr hmem)
    exact absurd rfl (bne_iff_ne.mp hne)

/-- The join fails for no other reason than a hash that occurs twice or has no envelope. -/
theorem exists_join_iff {applied : List Applied} :
    (∃ joined, join seq set applied = .ok joined) ↔
      (applied.map (·.result.hash)).Nodup ∧ ∀ a ∈ applied, ∃ e, (a.result.hash, e) ∈ set := by
  constructor
  · intro h
    obtain ⟨joined, h⟩ := h
    have hjoined := joined_of_join h
    refine ⟨hjoined.nodup, fun a ha => ?_⟩
    rw [← hjoined.map_fst] at ha
    obtain ⟨p, hp, rfl⟩ := List.mem_map.mp ha
    exact ⟨p.2, hjoined.mem_set p hp⟩
  · intro h
    induction applied generalizing set with
    | nil => exact ⟨[], rfl⟩
    | cons a rest ih =>
      obtain ⟨hnot, hnodup⟩ := List.nodup_cons.mp h.1
      obtain ⟨⟨e, he⟩, hrest⟩ := List.forall_mem_cons.mp h.2
      have hleft : ∀ b ∈ rest, ∃ e, (b.result.hash, e) ∈ set.filter (·.1 ≠ a.result.hash) := by
        intro b hb
        obtain ⟨e, he⟩ := hrest b hb
        have hne : b.result.hash ≠ a.result.hash := fun heq =>
          hnot (List.mem_map.mpr ⟨b, hb, heq⟩)
        exact ⟨e, List.mem_filter.mpr ⟨he, decide_eq_true hne⟩⟩
      obtain ⟨more, hmore⟩ := ih ⟨hnodup, hleft⟩
      obtain ⟨e', hlookup⟩ := exists_lookup_reverse he
      exact ⟨_, join_cons_eq_ok.mpr ⟨e', more, hlookup, hmore, rfl⟩⟩

/-- By induction on the results: what is left of the set without an envelope is permuted, too. -/
theorem join_perm {applied : List Applied} (hset : (set.map Prod.fst).Nodup)
    (h : set'.Perm set) : join seq set' applied = join seq set applied := by
  induction applied generalizing set set' with
  | nil => rfl
  | cons a rest ih =>
    have hfilter : ((set.filter (·.1 ≠ a.result.hash)).map Prod.fst).Nodup :=
      hset.sublist (List.filter_sublist.map Prod.fst)
    rw [join, join, lookup_reverse_perm hset h, ih hfilter (h.filter _)]

/-! ## Rows -/

theorem transactionRows_eq {index : ℕ} {joined : List (Applied × Envelope)} :
    transactionRows seq index joined = joined.mapIdx fun i p =>
      ⟨p.1.result.hash, seq, UInt32.ofNat (index + i), p.2, p.1.result.result, p.1.changes⟩ := by
  induction joined generalizing index with
  | nil => rfl
  | cons p rest ih =>
    simp only [transactionRows, ih, List.mapIdx_cons, Nat.add_right_comm index 1, Nat.add_zero,
      ← Nat.add_assoc]

theorem feeRows_eq {index : ℕ} {joined : List (Applied × Envelope)} :
    feeRows seq index joined = joined.mapIdx fun i p =>
      ⟨p.1.result.hash, seq, UInt32.ofNat (index + i), p.1.feeChanges⟩ := by
  induction joined generalizing index with
  | nil => rfl
  | cons p rest ih =>
    simp only [feeRows, ih, List.mapIdx_cons, Nat.add_right_comm index 1, Nat.add_zero,
      ← Nat.add_assoc]

end LedgerClose

namespace Announcement

variable {n : Network} {a : Announcement} {joined : List (Applied × Envelope)}
  {record : LedgerClose}

theorem length_applied_lt (a : Announcement) : a.applied.length < UInt32.size := by
  obtain ⟨c, hread, -⟩ := decode_eq_ok.mp a.decode_applied
  exact length_array_lt hread

/-- The rows that stand at place `i`, counted from zero, tell of what the `i`-th result says. -/
structure RowsOf (a : Announcement) (n : Network) (i : ℕ) (did : Applied) (t : TransactionRow)
    (f : FeeRow) : Prop where
  hash : t.hash = did.result.hash ∧ f.hash = did.result.hash
  seq : t.seq = a.entry.header.seq ∧ f.seq = a.entry.header.seq
  index : t.index.toNat = i + 1 ∧ f.index.toNat = i + 1
  envelope_mem : t.envelope ∈ a.envelopes
  envelopeHash : n.envelopeHash t.envelope = did.result.hash
  result : t.result = did.result.result
  changes : t.changes = did.changes
  feeChanges : f.changes = did.feeChanges

theorem Closes.length_rows (h : a.Closes n joined record) :
    record.transactions.length = a.applied.length ∧ record.fees.length = a.applied.length := by
  have hmap := (LedgerClose.joined_of_join h.join).map_fst
  rw [h.transactions, h.fees, LedgerClose.transactionRows_eq, LedgerClose.feeRows_eq,
    List.length_mapIdx, List.length_mapIdx, ← hmap, List.length_map]
  exact ⟨rfl, rfl⟩

theorem Closes.rowsOf (h : a.Closes n joined record) {i : ℕ} {did : Applied}
    (hi : a.applied[i]? = some did) :
    ∃ t f, record.transactions[i]? = some t ∧ record.fees[i]? = some f ∧ a.RowsOf n i did t f := by
  have hjoined := LedgerClose.joined_of_join h.join
  have hindex : (UInt32.ofNat (1 + i)).toNat = i + 1 := by
    obtain ⟨hlt, -⟩ := List.getElem?_eq_some_iff.mp hi
    have hsize := a.length_applied_lt
    rw [UInt32.toNat_ofNat_of_lt' (by omega), Nat.add_comm]
  rw [← hjoined.map_fst, List.getElem?_map] at hi
  obtain ⟨⟨did, e⟩, hp, rfl⟩ := Option.map_eq_some_iff.mp hi
  obtain ⟨e', he', heq⟩ := List.mem_map.mp (hjoined.mem_set _ (List.mem_of_getElem? hp))
  obtain ⟨hhash, rfl⟩ := Prod.mk.inj heq
  rw [h.transactions, h.fees, LedgerClose.transactionRows_eq, LedgerClose.feeRows_eq,
    List.getElem?_mapIdx, List.getElem?_mapIdx, hp]
  exact ⟨_, _, rfl, rfl, ⟨rfl, rfl⟩, ⟨rfl, rfl⟩, ⟨hindex, hindex⟩, he', hhash, rfl, rfl, rfl⟩

/-- Announces the same results with the envelopes in another order and with other bytes behind. -/
def rearranged (a : Announcement) (envelopes : List Envelope) (h : envelopes.Perm a.envelopes)
    (rest : Bytes) : Announcement where
  entry := a.entry
  previous := a.previous
  envelopes
  applied := a.applied
  appliedBytes := a.appliedBytes
  rest
  entry_wellFormed := a.entry_wellFormed
  length_lt := h.length_eq ▸ a.length_lt
  envelopes_wellFormed e he := a.envelopes_wellFormed e (h.mem_iff.mp he)
  decode_applied := a.decode_applied

theorem frame_rearranged {envelopes : List Envelope} (h : envelopes.Perm a.envelopes)
    (rest : Bytes) : (a.rearranged envelopes h rest).frame = a.frameWith envelopes rest := rfl

theorem Closes.rearranged (h : a.Closes n joined record)
    (hset : (a.envelopes.map n.envelopeHash).Nodup) {envelopes : List Envelope}
    (hperm : envelopes.Perm a.envelopes) (rest : Bytes) :
    (a.rearranged envelopes hperm rest).Closes n joined record where
  join := by
    have hkeys : ((a.set n).map Prod.fst).Nodup := by
      rwa [set, List.map_map]
    rw [← h.join]
    exact LedgerClose.join_perm hkeys (hperm.map _)
  ledger := h.ledger
  transactions := h.transactions
  fees := h.fees

/-! ## A ledger of two transactions -/

section Sample

open Transaction (idle)

/-- The network that hashes a transaction to its fee and what follows it. -/
def feeFirst : Network := ⟨Block.fill 32 5, fun bs => Block.ofBytes 32 (bs.drop 72)⟩

/-- A transaction without operations, told from others by its number. -/
def idleWith (seqNum : Int64) : Envelope := ⟨.plain { idle with seqNum }, []⟩

/-- The hash of an idle transaction on that network. -/
def idleHash (seqNum : UInt8) : Hash :=
  Block.ofBytes 32 [0, 0, 0, 100, 0, 0, 0, 0, 0, 0, 0, seqNum]

/-- The result of a transaction that came too early, and its bytes. -/
def early (seqNum : UInt8) : Applied := ⟨⟨idleHash seqNum, ⟨0, .other (-2)⟩⟩, [], .v0 []⟩

/-- What became of such a transaction, which came too early, as bytes. -/
def earlyBytes (seqNum : UInt8) : Bytes :=
  (idleHash seqNum).bytes ++ List.replicate 8 0 ++ [255, 255, 255, 254] ++ List.replicate 16 0

theorem wellFormed_idleWith (seqNum : Int64) : (idleWith seqNum).WellFormed :=
  ⟨⟨trivial, Nat.zero_le _, List.forall_mem_nil _⟩, Nat.zero_le _, List.forall_mem_nil _⟩

/-- Two transactions that were applied in the order opposite to that of the set. -/
def idlePair : Announcement where
  entry := ⟨Block.fill 32 0, Memory.Sample.emptyHeader⟩
  previous := Block.fill 32 0
  envelopes := [idleWith 7, idleWith 8]
  applied := [early 8, early 7]
  appliedBytes := [0, 0, 0, 2] ++ earlyBytes 8 ++ earlyBytes 7
  rest := [1, 2, 3]
  entry_wellFormed := ⟨by decide, List.forall_mem_nil _, fun _ h => nomatch h⟩
  length_lt := by decide
  envelopes_wellFormed e he := by
    obtain rfl | he := List.mem_cons.mp he
    · exact wellFormed_idleWith 7
    · rw [List.mem_singleton.mp he]
      exact wellFormed_idleWith 8
  decode_applied := by decide +kernel

end Sample

end Announcement

namespace LedgerClose

open Announcement

variable {n : Network} {frame : Bytes} {record : LedgerClose}

/-- The record of an accepted frame has a transaction row and a fee row for each result, in the
    order of the results, and no two results share a hash. Bytes behind the results do not change
    the record, nor does the order of the envelopes if their hashes differ. -/
theorem decode_rows (h : decode n frame = .ok record) :
    (∃ a : Announcement, a.frame = frame) ∧ ∀ a : Announcement, a.frame = frame →
      (record.transactions.length = a.applied.length ∧ record.fees.length = a.applied.length) ∧
      (∀ i did, a.applied[i]? = some did → ∃ t f, record.transactions[i]? = some t ∧
        record.fees[i]? = some f ∧ a.RowsOf n i did t f) ∧
      (a.applied.map (·.result.hash)).Nodup ∧
      (∀ rest, decode n (a.frameWith a.envelopes rest) = .ok record) ∧
      ((a.envelopes.map n.envelopeHash).Nodup → ∀ envelopes, envelopes.Perm a.envelopes →
        ∀ rest, decode n (a.frameWith envelopes rest) = .ok record) := by
  refine ⟨exists_announcement h, ?_⟩
  rintro a rfl
  obtain ⟨joined, hclose⟩ := decode_frame.mp h
  refine ⟨hclose.length_rows, fun i did hi => hclose.rowsOf hi,
    (joined_of_join hclose.join).nodup, fun rest => ?_, fun hset envelopes hperm rest => ?_⟩
  · rw [← frame_rearranged (.refl _)]
    exact decode_frame.mpr
      ⟨joined, hclose.join, hclose.ledger, hclose.transactions, hclose.fees⟩
  · rw [← frame_rearranged hperm]
    exact decode_frame.mpr ⟨joined, hclose.rearranged hset hperm rest⟩

/-- The ledger of the two transactions, its rows in the order they were applied in. -/
def idlePairRecord : LedgerClose where
  ledger := ⟨Block.fill 32 0, Memory.Sample.emptyHeader, ⟨0, by decide⟩⟩
  transactions :=
    [⟨idleHash 8, 0, 1, idleWith 8, ⟨0, .other (-2)⟩, .v0 []⟩,
      ⟨idleHash 7, 0, 2, idleWith 7, ⟨0, .other (-2)⟩, .v0 []⟩]
  fees := [⟨idleHash 8, 0, 1, []⟩, ⟨idleHash 7, 0, 2, []⟩]

/-- The rows follow the results, and the set may have its envelopes in this order, too. -/
theorem decode_rows_idlePair :
    decode feeFirst idlePair.frame = .ok idlePairRecord ∧
      (idlePair.envelopes.map feeFirst.envelopeHash).Nodup ∧
      decode feeFirst (idlePair.frameWith [idleWith 8, idleWith 7] [4]) = .ok idlePairRecord := by
  have hclose : idlePair.Closes feeFirst [(early 8, idleWith 8), (early 7, idleWith 7)]
      idlePairRecord :=
    ⟨by decide +kernel, by decide +kernel, by decide +kernel, by decide +kernel⟩
  have hdecode : decode feeFirst idlePair.frame = .ok idlePairRecord :=
    decode_frame.mpr ⟨_, hclose⟩
  have hset : (idlePair.envelopes.map feeFirst.envelopeHash).Nodup := by decide +kernel
  exact ⟨hdecode, hset,
    ((decode_rows hdecode).2 idlePair rfl).2.2.2.2 hset _ (List.Perm.swap _ _ _) [4]⟩

end LedgerClose

end LedgerSearch
