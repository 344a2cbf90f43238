import Mathlib
import LedgerSearch.Proofs.LedgerClose.Rows
import LedgerSearch.Proofs.Serialize.LedgerDemands
import LedgerSearch.Proofs.Wire.FrameReading

/-
  Why the counts of a ledger that was announced in a frame always fit 32 bits. An envelope has at
  most 100 operations, and the result that goes with it takes more than 50 bytes of the frame; so
  there is no room in a frame for `2 ^ 32` operations (`Announcement.Closes.counts`).
-/

namespace LedgerSearch

open Wire

namespace Wire.Reader

variable {α β : Type} {m n : Nat}

/-! ## Bytes taken -/

/-- Whatever is read takes at least `n` bytes. -/
structure Takes (n : Nat) (r : Reader α) : Prop where
  le : ∀ {c c' : Cursor} {a : α}, r c = .ok a c' → c.offset + n ≤ c'.offset

theorem Delimited.takes {r : Reader α} (hr : Delimited r) : Takes 0 r where
  le {c c' a} h := by
    obtain ⟨bs, hbs, -⟩ := hr.exists_bytes h
    have hoffset : c'.offset = c.offset + bs.length := hbs.2
    omega

/-- A record takes a word at least, as it takes whole words and something. -/
theorem IsRecord.takes {r : Reader α} (hr : IsRecord r) : Takes 4 r where
  le {c c' a} h := by
    obtain ⟨bs, hbs, hdvd, -⟩ := hr.exists_bytes h
    have hoffset : c'.offset = c.offset + bs.length := hbs.2
    have hlt : c.offset < c'.offset := hr.advances h
    omega

theorem takes_block (n : Nat) : Takes n (block n) where
  le {c c' b} h := by
    have hoffset := (block_eq_ok.mp h).2
    rw [List.length_append, b.length_bytes] at hoffset
    omega

theorem Takes.bind {r : Reader α} {f : α → Reader β} (hr : Takes m r) (hf : ∀ a, Takes n (f a)) :
    Takes (m + n) (r >>= f) where
  le {c c' b} h := by
    obtain ⟨a, mid, ha, hb⟩ := bind_eq_ok.mp h
    have hfirst := hr.le ha
    have hsecond := (hf a).le hb
    omega

theorem Takes.map {r : Reader α} (hr : Takes n r) (f : α → β) :
    Takes n (r >>= fun a => pure (f a)) := hr.bind fun a => (delimited_pure (f a)).takes

theorem Takes.times {r : Reader α} (hr : Takes n r) (k : Nat) : Takes (n * k) (times r k) := by
  induction k with
  | zero => exact (delimited_pure []).takes
  | succ k ih =>
    rw [Nat.mul_succ, Nat.add_comm]
    exact hr.bind fun a => ih.map (a :: ·)

/-- The items of a list take their bytes, and its length takes a word. -/
theorem Takes.array {r : Reader α} (hr : Takes n r) {kind : String} {max : Nat} {as : List α}
    {c c' : Cursor} (h : array kind max r c = .ok as c') :
    c.offset + n * as.length ≤ c'.offset := by
  obtain ⟨count, mid, hcount, h⟩ := bind_eq_ok.mp h
  have hword := isRecord_uint32.takes.le hcount
  split at h
  · exact (not_throw_eq_ok h).elim
  · have hitems := (hr.times count.toNat).le h
    rw [length_times h]
    omega

end Wire.Reader

namespace Wire.Codec

open Reader

variable {α β : Type} {m n : Nat} {c : Codec α} {d : Codec β}

theorem takes_pair (hc : Takes m c.read) (hd : Takes n d.read) : Takes (m + n) (c.pair d).read :=
  hc.bind fun a => hd.map (a, ·)

theorem takes_beforeExt (kind : String) (hc : Takes n c.read) :
    Takes (n + 4) (c.before (Codec.emptyExt kind)).read :=
  hc.bind fun a => (isRecord_emptyExt kind).takes.map fun _ => a

end Wire.Codec

open Wire.Reader Wire.Codec

theorem TransactionResult.takes : Takes 12 TransactionResult.codec.read :=
  (takes_beforeExt _ (takes_pair isRecord_int64.takes TransactionVerdict.isRecord.takes)).map _

theorem ResultPair.takes : Takes 44 ResultPair.codec.read :=
  (takes_pair (takes_block 32) TransactionResult.takes).map _

theorem Applied.takes : Takes 52 Applied.read :=
  ResultPair.takes.bind fun _ => EntryChange.isRecord_all.takes.bind fun _ =>
    TransactionMeta.isRecord.takes.map _

/-! ## Operations of an envelope -/

theorem Envelope.length_operations_le {e : Envelope} (h : e.WellFormed) :
    e.operations.length ≤ 100 := by
  obtain ⟨payload, signatures⟩ := e
  have hpayload : payload.WellFormed := h.1
  cases payload with
  | legacy tx => exact hpayload.2.operations_le
  | plain tx => exact hpayload.operations_le
  | feeBump bump => exact hpayload.1.operations_le

namespace Announcement

variable {n : Network} {a : Announcement} {joined : List (Applied × Envelope)}
  {record : LedgerClose}

theorem length_applied_le (a : Announcement) : 52 * a.applied.length ≤ a.frame.length := by
  obtain ⟨c, hread, hrest⟩ := decode_eq_ok.mp a.decode_applied
  obtain ⟨bs, ⟨hbs, hoffset⟩, -⟩ :=
    (isRecord_array "txProcessing" unbounded Applied.isRecord).exists_bytes hread
  have htaken := Applied.takes.array hread
  have hall : a.appliedBytes = bs := by
    rwa [hrest, List.append_nil] at hbs
  have hframe : a.appliedBytes.length ≤ a.frame.length := by
    unfold frame frameWith
    simp only [List.length_append]
    omega
  have hstart : (Cursor.ofBytes a.appliedBytes).offset = 0 := rfl
  rw [hall] at hframe
  omega

theorem Closes.envelope_mem (h : a.Closes n joined record) {t : TransactionRow}
    (ht : t ∈ record.transactions) : t.envelope ∈ a.envelopes := by
  obtain ⟨i, hi⟩ := List.mem_iff_getElem?.mp ht
  have hlt : i < a.applied.length := by
    rw [← h.length_rows.1]
    exact (List.getElem?_eq_some_iff.mp hi).1
  obtain ⟨t', f, ht', -, hrows⟩ := h.rowsOf (List.getElem?_eq_getElem hlt)
  obtain rfl := Option.some.inj (hi.symm.trans ht')
  exact hrows.envelope_mem

/-- The counts of a ledger fit 32 bits where its frame is shorter than `2 ^ 31` bytes. -/
theorem Closes.counts (h : a.Closes n joined record)
    (hlt : a.frame.length < FrameStream.topBit) :
    Rows.Counts ⟨record.transactions, record.fees⟩ record.ledger := by
  have hbytes := a.length_applied_le
  have hrows := h.length_rows.1
  have htop : FrameStream.topBit = 2147483648 := rfl
  have hsize : UInt32.size = 4294967296 := rfl
  have hof : (Rows.transactionsOf ⟨record.transactions, record.fees⟩ record.ledger.seq).length ≤
      record.transactions.length := List.length_filter_le _ _
  have happlied : (Rows.appliedOf ⟨record.transactions, record.fees⟩ record.ledger.seq).length ≤
      record.transactions.length := Nat.le_trans (List.length_filter_le _ _) hof
  have hops : ((Rows.appliedOf ⟨record.transactions, record.fees⟩ record.ledger.seq).map
      (·.envelope.operations.length)).sum ≤
        (Rows.appliedOf ⟨record.transactions, record.fees⟩ record.ledger.seq).length * 100 := by
    rw [← smul_eq_mul, ← List.length_map (f := fun t : TransactionRow => t.envelope.operations.length)]
    refine List.sum_le_card_nsmul _ _ fun k hk => ?_
    obtain ⟨t, ht, rfl⟩ := List.mem_map.mp hk
    have hmem : t ∈ record.transactions := List.mem_of_mem_filter (List.mem_of_mem_filter ht)
    exact Envelope.length_operations_le (a.envelopes_wellFormed _ (h.envelope_mem hmem))
  exact .of_lt (by omega) (by omega)

end Announcement

/-- A ledger decoded from a frame of fewer than `2 ^ 31` bytes can be counted. -/
theorem LedgerClose.counts_of_decode {n : Network} {frame : Bytes} {record : LedgerClose}
    (h : LedgerClose.decode n frame = .ok record) (hlt : frame.length < FrameStream.topBit) :
    Rows.Counts ⟨record.transactions, record.fees⟩ record.ledger := by
  obtain ⟨a, rfl⟩ := LedgerClose.exists_announcement h
  obtain ⟨joined, hclose⟩ := LedgerClose.decode_frame.mp h
  exact hclose.counts hlt

end LedgerSearch
