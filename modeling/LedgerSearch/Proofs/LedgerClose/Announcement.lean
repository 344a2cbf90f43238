import Mathlib
import LedgerSearch.Proofs.LedgerClose.SigningPreimage
import LedgerSearch.Proofs.Record.Types

/-
  The frames that announce a closed ledger, part by part: the header entry, the envelopes of the
  transaction set, each with the hash computed for it, and the results of the transactions. Every
  frame that is accepted has these parts (`LedgerClose.exists_announcement`), and what is decoded
  from it depends on nothing else (`LedgerClose.decode_frame`).
-/

namespace LedgerSearch

open Wire Wire.Reader Wire.Codec

/-- The hash computed for an envelope of a transaction set. -/
def Network.envelopeHash (n : Network) (e : Envelope) : Hash :=
  n.hash e.payload e.payload.signedBytes

/-- What a frame announces. The results come with the bytes they are read from, since a change of an
    entry is not written anywhere; `rest` is what follows them. -/
structure Announcement where
  entry : HistoryEntry
  previous : Hash
  envelopes : List Envelope
  applied : List Applied
  appliedBytes : Bytes
  rest : Bytes
  entry_wellFormed : entry.WellFormed
  length_lt : envelopes.length < UInt32.size
  envelopes_wellFormed : ∀ e ∈ envelopes, e.WellFormed
  decode_applied :
    (Reader.array "txProcessing" unbounded Applied.read).decode appliedBytes = .ok applied

namespace Announcement

/-- A set of transactions as it stands in the record, behind the hash of the ledger before. -/
def setBytes (previous : Hash) (envelopes : List Envelope) : Bytes :=
  Codec.hash.write previous ++
    (bigEndianBytes 4 envelopes.length ++ envelopes.flatMap Envelope.codec.write)

/-- The frame with these envelopes in its transaction set and these bytes behind its results. -/
def frameWith (a : Announcement) (envelopes : List Envelope) (rest : Bytes) : Bytes :=
  bigEndianBytes 4 0 ++ (HistoryEntry.codec.write a.entry ++
    (setBytes a.previous envelopes ++ a.appliedBytes)) ++ rest

/-- The record with the envelopes and the trailing bytes that it announces. -/
def frame (a : Announcement) : Bytes := a.frameWith a.envelopes a.rest

/-- The transaction set, each envelope under its hash. -/
def set (a : Announcement) (n : Network) : List (Hash × Envelope) :=
  a.envelopes.map fun e => (n.envelopeHash e, e)

/-- What closing the announced ledger gives. -/
structure Closes (a : Announcement) (n : Network) (joined : List (Applied × Envelope))
    (record : LedgerClose) : Prop where
  join : LedgerClose.join a.entry.header.seq (a.set n) a.applied = .ok joined
  ledger : LedgerRow.ofHeader a.entry.hash a.entry.header = .ok record.ledger
  transactions : record.transactions = LedgerClose.transactionRows a.entry.header.seq 1 joined
  fees : record.fees = LedgerClose.feeRows a.entry.header.seq 1 joined

end Announcement

/-! ## The transaction set -/

theorem Envelope.length_write_pos {e : Envelope} (h : e.WellFormed) :
    0 < (codec.write e).length := by
  have hdecode : codec.read.decode (codec.write e) = .ok e :=
    lawful_codec.decode_eq_ok.mpr ⟨e.fits_iff.mpr h, rfl⟩
  exact List.length_pos_iff.mpr (isRecord.ne_nil hdecode)

theorem Envelope.length_le_flatMap_write {es : List Envelope} (h : ∀ e ∈ es, e.WellFormed) :
    es.length ≤ (es.flatMap codec.write).length := by
  induction es with
  | nil => exact Nat.zero_le _
  | cons e es ih =>
    obtain ⟨he, hes⟩ := List.forall_mem_cons.mp h
    have hpos := length_write_pos he
    have hle := ih hes
    rw [List.flatMap_cons, List.length_append, List.length_cons]
    omega

/-- Envelopes read with their bytes, one after the other. -/
theorem Envelope.times_readSigned {signed : List (Envelope × Bytes)} {k : Nat} {c c' : Cursor} :
    times readSigned k c = .ok signed c' ↔
      ∃ es : List Envelope, es.length = k ∧ (∀ e ∈ es, e.WellFormed) ∧
        signed = es.map (fun e => (e, e.payload.signedBytes)) ∧
        c.After (es.flatMap codec.write) c' := by
  have hread : ∀ (p : Envelope × Bytes) c c', readSigned c = .ok p c' ↔
      (p.1.WellFormed ∧ p.2 = p.1.payload.signedBytes) ∧ c.After (codec.write p.1) c' := by
    intro p c c'
    rw [readSigned_eq_ok, lawful_codec, p.1.fits_iff, and_right_comm]
  rw [times_eq_ok hread]
  constructor
  · intro h
    obtain ⟨hlen, hfits, hafter⟩ := h
    refine ⟨signed.map Prod.fst, ?_, ?_, ?_, ?_⟩
    · rw [List.length_map, hlen]
    · intro e he
      obtain ⟨p, hp, rfl⟩ := List.mem_map.mp he
      exact (hfits p hp).1
    · rw [List.map_map]
      have hpair : ∀ p ∈ signed, p = (p.1, p.1.payload.signedBytes) := fun p hp =>
        Prod.ext rfl (hfits p hp).2
      exact (List.map_congr_left fun p hp => (hpair p hp).symm).trans (List.map_id signed) |>.symm
    · rwa [List.flatMap_map]
  · intro h
    obtain ⟨es, hlen, hwf, rfl, hafter⟩ := h
    refine ⟨?_, ?_, ?_⟩
    · rw [List.length_map, hlen]
    · intro p hp
      obtain ⟨e, he, rfl⟩ := List.mem_map.mp hp
      exact ⟨hwf e he, rfl⟩
    · rwa [List.flatMap_map]

namespace LedgerClose

open Announcement

variable {n : Network} {c c' : Cursor}

theorem readSet_eq_ok {set : List (Hash × Envelope)} :
    readSet n c = .ok set c' ↔
      ∃ previous envelopes, envelopes.length < UInt32.size ∧ (∀ e ∈ envelopes, e.WellFormed) ∧
        set = envelopes.map (fun e => (n.envelopeHash e, e)) ∧
        c.After (setBytes previous envelopes) c' := by
  have hset : readSet n c = (Reader.block 32 >>= fun _ => Reader.uint32 >>= fun count =>
      Reader.remaining >>= fun left =>
      if left < count.toNat then throw (.lengthExceeded "txs" count.toNat left)
      else Reader.times Envelope.readSigned count.toNat >>= fun signed =>
        pure (signed.map fun p => (n.hash p.1.payload p.2, p.1)) :
      Reader (List (Hash × Envelope))) c := by
    unfold readSet
    rfl
  have hremaining : ∀ m : Cursor, Reader.remaining m = .ok m.rest.length m := fun _ => rfl
  rw [hset, bind_eq_ok]
  constructor
  · intro h
    obtain ⟨previous, m₁, hprevious, h⟩ := h
    obtain ⟨count, m₂, hcount, h⟩ := bind_eq_ok.mp h
    rw [bind_of_ok (hremaining m₂)] at h
    split at h
    · exact (not_throw_eq_ok h).elim
    · obtain ⟨signed, m₃, hsigned, h⟩ := bind_eq_ok.mp h
      obtain ⟨rfl, rfl⟩ := pure_eq_ok.mp h
      obtain ⟨envelopes, hlen, hwf, rfl, hafter⟩ := Envelope.times_readSigned.mp hsigned
      have hcount := uint32_eq_ok.mp hcount
      rw [← hlen] at hcount
      refine ⟨previous, envelopes, ?_, hwf, List.map_map, ?_⟩
      · rw [hlen]
        exact count.toNat_lt
      · exact Cursor.after_append.mpr ⟨m₁, (lawful_hash _ _ _).mp hprevious |>.2,
          Cursor.after_append.mpr ⟨m₂, hcount, hafter⟩⟩
  · intro h
    obtain ⟨previous, envelopes, hlt, hwf, rfl, hafter⟩ := h
    obtain ⟨m₁, hprevious, hafter⟩ := Cursor.after_append.mp hafter
    obtain ⟨m₂, hcount, hafter⟩ := Cursor.after_append.mp hafter
    have hlen : (UInt32.ofNat envelopes.length).toNat = envelopes.length :=
      UInt32.toNat_ofNat_of_lt' hlt
    -- The count is never refused: an envelope has at least one byte.
    have hleft : envelopes.length ≤ m₂.rest.length := by
      have hle := Envelope.length_le_flatMap_write hwf
      rw [hafter.1, List.length_append]
      omega
    refine ⟨previous, m₁, (lawful_hash _ _ _).mpr ⟨trivial, hprevious⟩, ?_⟩
    rw [← hlen] at hcount
    rw [bind_of_ok (uint32_eq_ok.mpr hcount), bind_of_ok (hremaining m₂), hlen,
      if_neg (by omega), bind_of_ok (Envelope.times_readSigned.mpr ⟨_, rfl, hwf, rfl, hafter⟩),
      List.map_map]
    rfl

/-! ## The whole frame -/

theorem read_eq_ok {entry : HistoryEntry} {set : List (Hash × Envelope)} {applied : List Applied} :
    read n c = .ok (entry, set, applied) c' ↔
      entry.WellFormed ∧ ∃ previous envelopes appliedBytes,
        (envelopes.length < UInt32.size ∧ (∀ e ∈ envelopes, e.WellFormed) ∧
          set = envelopes.map (fun e => (n.envelopeHash e, e)) ∧
          (Reader.array "txProcessing" unbounded Applied.read).decode appliedBytes =
            .ok applied) ∧
        c.After (bigEndianBytes 4 0 ++ (HistoryEntry.codec.write entry ++
          (setBytes previous envelopes ++ appliedBytes))) c' := by
  have hread : read n c = (Reader.int32 >>= fun version =>
      if version ≠ 0 then throw (.unknownDiscriminant "LedgerCloseMeta" version)
      else HistoryEntry.codec.read >>= fun entry => readSet n >>= fun set =>
        Reader.array "txProcessing" unbounded Applied.read >>= fun applied =>
        pure (entry, set, applied) : Reader _) c := by
    unfold read
    rfl
  -- the results behind the transaction set tell by their bytes where they end
  have harray : ∀ {applied : List Applied} {c c' : Cursor},
      Reader.array "txProcessing" unbounded Applied.read c = .ok applied c' ↔ _ :=
    (isRecord_array "txProcessing" unbounded Applied.isRecord).toDelimited.eq_ok_iff
  rw [hread, bind_eq_ok]
  constructor
  · intro h
    obtain ⟨version, m₁, hversion, h⟩ := h
    split at h
    · exact (not_throw_eq_ok h).elim
    · next hzero =>
      rw [not_ne_iff.mp hzero] at hversion
      simp only [bind_eq_ok, pure_eq_ok] at h
      obtain ⟨entry', m₂, hentry, set', m₃, hset, applied', m₄, happlied, heq, rfl⟩ := h
      obtain ⟨rfl, rfl, rfl⟩ := Prod.mk.inj heq
      obtain ⟨hfits, hentry⟩ := (HistoryEntry.lawful_codec _ _ _).mp hentry
      obtain ⟨previous, envelopes, hlt, hwf, hset, henvelopes⟩ := readSet_eq_ok.mp hset
      obtain ⟨appliedBytes, happlied, hdecode⟩ := harray.mp happlied
      refine ⟨(HistoryEntry.fits_iff _).mp hfits, previous, envelopes, appliedBytes,
        ⟨hlt, hwf, hset, hdecode⟩, ?_⟩
      exact Cursor.after_append.mpr ⟨m₁, int32_zero_eq_ok.mp hversion,
        Cursor.after_append.mpr ⟨m₂, hentry, Cursor.after_append.mpr ⟨m₃, henvelopes, happlied⟩⟩⟩
  · intro h
    obtain ⟨hwf, previous, envelopes, appliedBytes, ⟨hlt, hwfs, rfl, hdecode⟩, hafter⟩ := h
    obtain ⟨m₁, hversion, hafter⟩ := Cursor.after_append.mp hafter
    obtain ⟨m₂, hentry, hafter⟩ := Cursor.after_append.mp hafter
    obtain ⟨m₃, hset, happlied⟩ := Cursor.after_append.mp hafter
    have hentry := (HistoryEntry.lawful_codec _ _ _).mpr ⟨(entry.fits_iff).mpr hwf, hentry⟩
    have hset := (readSet_eq_ok (n := n)).mpr ⟨previous, envelopes, hlt, hwfs, rfl, hset⟩
    have happlied := harray.mpr ⟨appliedBytes, happlied, hdecode⟩
    refine ⟨0, m₁, int32_zero_eq_ok.mpr hversion, ?_⟩
    rw [if_neg (not_not_intro rfl), bind_of_ok hentry, bind_of_ok hset, bind_of_ok happlied]
    rfl

/-- What decoding does with the parts it has read. -/
theorem decode_eq_ok {frame : Bytes} {record : LedgerClose} :
    decode n frame = .ok record ↔
      ∃ entry set applied c joined,
        read n (Cursor.ofBytes frame) = .ok (entry, set, applied) c ∧
        join entry.header.seq set applied = .ok joined ∧
        LedgerRow.ofHeader entry.hash entry.header = .ok record.ledger ∧
        record.transactions = transactionRows entry.header.seq 1 joined ∧
        record.fees = feeRows entry.header.seq 1 joined := by
  obtain ⟨ledger, transactions, fees⟩ := record
  unfold decode
  dsimp only [bind, Except.bind, pure, Except.pure, throw, throwThe, MonadExceptOf.throw]
  cases hread : read n (Cursor.ofBytes frame) with
  | error e c => simp
  | ok parts c =>
    obtain ⟨entry, set, applied⟩ := parts
    dsimp only
    cases hjoin : join entry.header.seq set applied with
    | error e => simp [hjoin]
    | ok joined =>
      cases hledger : LedgerRow.ofHeader entry.hash entry.header with
      | error e => simp [hjoin, hledger]
      | ok row => simp [hjoin, hledger, eq_comm]

theorem exists_announcement {frame : Bytes} {record : LedgerClose}
    (h : decode n frame = .ok record) : ∃ a : Announcement, a.frame = frame := by
  obtain ⟨entry, set, applied, c, joined, hread, -⟩ := decode_eq_ok.mp h
  obtain ⟨hwf, previous, envelopes, appliedBytes, ⟨hlt, hwfs, -, hdecode⟩, hafter⟩ :=
    read_eq_ok.mp hread
  exact ⟨⟨entry, previous, envelopes, applied, appliedBytes, c.rest, hwf, hlt, hwfs, hdecode⟩,
    hafter.1.symm⟩

/-- What is decoded from the frame of an announcement is what closing its ledger gives. -/
theorem decode_frame {a : Announcement} {record : LedgerClose} :
    decode n a.frame = .ok record ↔ ∃ joined, a.Closes n joined record := by
  have hread := (read_eq_ok (n := n) (c := Cursor.ofBytes a.frame)).mpr
    ⟨a.entry_wellFormed, a.previous, a.envelopes, a.appliedBytes,
      ⟨a.length_lt, a.envelopes_wellFormed, rfl, a.decode_applied⟩,
      show (Cursor.ofBytes a.frame).After _ ⟨a.rest, _⟩ from ⟨rfl, rfl⟩⟩
  rw [decode_eq_ok]
  constructor
  · intro h
    obtain ⟨entry, set, applied, c, joined, hread', hjoin, hledger, htransactions, hfees⟩ := h
    obtain ⟨hparts, -⟩ := EStateM.Result.ok.inj (hread.symm.trans hread')
    obtain ⟨rfl, hlists⟩ := Prod.mk.inj hparts
    obtain ⟨rfl, rfl⟩ := Prod.mk.inj hlists
    exact ⟨joined, hjoin, hledger, htransactions, hfees⟩
  · intro h
    obtain ⟨joined, hjoin, hledger, htransactions, hfees⟩ := h
    exact ⟨_, _, _, _, joined, hread, hjoin, hledger, htransactions, hfees⟩

end LedgerClose

end LedgerSearch
