import Mathlib
import LedgerSearch.Proofs.LedgerClose.FrameCounts

/-
  Lengths announced in front of a list. Every item takes a word at least, so a list that is read has
  at most a quarter as many items as there are bytes behind its length; a length beyond that fails
  once the bytes are used up, and not later than that many items
  (`RecordType.lengths_within_input`).
-/

namespace LedgerSearch

open Wire Wire.Reader

namespace Wire.Reader

variable {α β : Type} {r : Reader α} {c c' m : Cursor} {e : DecodeError} {n k : ℕ} {as : List α}

/-! ## Where a list fails -/

theorem bind_eq_error {f : α → Reader β} :
    (r >>= f) c = .error e c' ↔
      r c = .error e c' ∨ ∃ a m, r c = .ok a m ∧ f a m = .error e c' := by
  cases h : r c with
  | ok a m => simp [bind_of_ok h]
  | error e' m => simp [bind_of_error h]

/-- `k` items are read, and the reading of the next one fails. -/
def FailsAfter (r : Reader α) (k : ℕ) (c : Cursor) (e : DecodeError) (c' : Cursor) : Prop :=
  ∃ as m, times r k c = .ok as m ∧ r m = .error e c'

theorem failsAfter_zero (h : r c = .error e c') : FailsAfter r 0 c e c' :=
  ⟨[], c, pure_eq_ok.mpr ⟨rfl, rfl⟩, h⟩

theorem FailsAfter.succ {a : α} (ha : r c = .ok a m) (h : FailsAfter r k m e c') :
    FailsAfter r (k + 1) c e c' := by
  obtain ⟨as, last, has, hlast⟩ := h
  refine ⟨a :: as, last, ?_, hlast⟩
  unfold times
  rw [bind_of_ok ha, bind_of_ok has]
  rfl

/-- Items that cannot all be read fail with one of them. -/
theorem failsAfter_of_times (h : times r n c = .error e c') : ∃ k < n, FailsAfter r k c e c' := by
  induction n generalizing c with
  | zero => cases h
  | succ n ih =>
    unfold times at h
    rcases bind_eq_error.mp h with hfirst | ⟨a, m, ha, h⟩
    · exact ⟨0, Nat.succ_pos n, failsAfter_zero hfirst⟩
    · rcases bind_eq_error.mp h with hrest | ⟨rest, m', -, h⟩
      · obtain ⟨k, hk, hfails⟩ := ih hrest
        exact ⟨k + 1, Nat.succ_lt_succ hk, hfails.succ ha⟩
      · cases h

/-- A list behind its length. -/
theorem array_of_length {kind : String} {max : ℕ} {length : UInt32}
    (h : uint32 c = .ok length m) :
    array kind max r c = if max < length.toNat
      then .error (.lengthExceeded kind length.toNat max) m else times r length.toNat m := by
  unfold array
  rw [bind_of_ok h]
  split
  · rfl
  · rfl

/-! ## Bytes for the items -/

/-- The number of items that places are set aside for: all that are announced, but no more than
    there are words left. -/
def room (announced : ℕ) (c : Cursor) : ℕ := min announced (c.rest.length / 4)

/-- What is taken off a cursor is not left. -/
theorem Takes.le_rest (ht : Takes n r) (hd : Delimited r) {a : α} (h : r c = .ok a c') :
    n + c'.rest.length ≤ c.rest.length := by
  obtain ⟨bs, ⟨hrest, hoffset⟩, -⟩ := hd.exists_bytes h
  have hle := ht.le h
  rw [hrest, List.length_append]
  omega

theorem IsRecord.words_le (hr : IsRecord r) (h : times r k c = .ok as c') :
    4 * k ≤ c.rest.length := by
  have hle := (hr.takes.times k).le_rest (delimited_times hr.toDelimited k) h
  omega

/-- There is room for each item of a list that is read. -/
theorem IsRecord.length_eq_room (hr : IsRecord r) (h : times r n c = .ok as c') :
    as.length = room n c := by
  have hle := hr.words_le h
  rw [length_times h, room]
  omega

theorem IsRecord.le_room (hr : IsRecord r) (hk : k < n) (h : FailsAfter r k c e c') :
    k ≤ room n c := by
  obtain ⟨as, m, has, -⟩ := h
  have hle := hr.words_le has
  rw [room]
  omega

theorem IsRecord.exists_error (hr : IsRecord r) (h : c.rest.length / 4 < n) :
    ∃ e c', times r n c = .error e c' := by
  cases hread : times r n c with
  | ok as c' =>
    have hle := hr.words_le hread
    omega
  | error e c' => exact ⟨e, c', rfl⟩

end Wire.Reader

namespace LedgerClose

/-- Where the envelopes of a set can be read, there are as many bytes as envelopes, so that their
    count is not refused. -/
theorem readSet_of_times {network : Network} {c m m' c' : Cursor} {previous : Hash}
    {count : UInt32} {signed : List (Envelope × Bytes)}
    (hprevious : Reader.block 32 c = .ok previous m) (hcount : Reader.uint32 m = .ok count m')
    (hsigned : times Envelope.readSigned count.toNat m' = .ok signed c') :
    readSet network c = .ok (signed.map fun p => (network.hash p.1.payload p.2, p.1)) c' := by
  obtain ⟨es, hlength, hwf, rfl, hes⟩ := Envelope.times_readSigned.mp hsigned
  have hword := uint32_eq_ok.mp hcount
  rw [← hlength] at hword
  have hset : c.After (Announcement.setBytes previous es) c' :=
    Cursor.after_append.mpr ⟨m, ((Codec.lawful_hash _ _ _).mp hprevious).2,
      Cursor.after_append.mpr ⟨m', hword, hes⟩⟩
  have hlt : es.length < UInt32.size := hlength ▸ count.toNat_lt
  exact readSet_eq_ok.mpr ⟨previous, es, hlt, hwf, List.map_map, hset⟩

end LedgerClose

namespace RecordType

/-- A list of any type of record that is read has the length announced for it, has taken four bytes
    for each of its items, and finds places set aside for just as many. One that is not read is
    either refused for its length or fails with an item that there was room for all others before;
    so does every list that is announced longer than a quarter of the bytes behind its length. And
    the count of a transaction set is not what keeps envelopes from being read: the set is read if
    they are. -/
theorem lengths_within_input :
    (∀ (t : RecordType) (kind : String) (max : ℕ) (c m : Cursor) (length : UInt32),
      Reader.uint32 c = .ok length m →
      (∀ as c', Reader.array kind max t.read c = .ok as c' →
        as.length = length.toNat ∧ m.offset + 4 * as.length ≤ c'.offset ∧
          as.length ≤ m.rest.length / 4 ∧ as.length = room length.toNat m) ∧
      (∀ e c', Reader.array kind max t.read c = .error e c' →
        (max < length.toNat ∧ e = .lengthExceeded kind length.toNat max ∧ c' = m) ∨
          ∃ k, k < length.toNat ∧ k ≤ room length.toNat m ∧ FailsAfter t.read k m e c') ∧
      (m.rest.length / 4 < length.toNat →
        ∃ e c', Reader.array kind max t.read c = .error e c')) ∧
    ∀ (network : Network) (c m m' c' : Cursor) (previous : Hash) (count : UInt32)
      (signed : List (Envelope × Bytes)), Reader.block 32 c = .ok previous m →
      Reader.uint32 m = .ok count m' →
      times Envelope.readSigned count.toNat m' = .ok signed c' →
      LedgerClose.readSet network c =
        .ok (signed.map fun p => (network.hash p.1.payload p.2, p.1)) c' := by
  refine ⟨fun t kind max c m length hlength => ?_, fun network c m m' c' previous count signed =>
    LedgerClose.readSet_of_times⟩
  rw [array_of_length hlength]
  by_cases hmax : max < length.toNat
  · rw [if_pos hmax]
    refine ⟨nofun, fun e c' h => ?_, fun _ => ⟨_, _, rfl⟩⟩
    obtain ⟨rfl, rfl⟩ := EStateM.Result.error.inj h
    exact .inl ⟨hmax, rfl, rfl⟩
  · rw [if_neg hmax]
    refine ⟨fun as c' h => ?_, fun e c' h => ?_, t.isRecord.exists_error⟩
    · have hcount := length_times h
      -- every item takes one word at least, which bounds the count by the bytes that were there
      have hwords := t.isRecord.words_le h
      have htaken := (t.isRecord.takes.times length.toNat).le h
      exact ⟨hcount, by omega, by omega, t.isRecord.length_eq_room h⟩
    · obtain ⟨k, hk, hfails⟩ := failsAfter_of_times h
      exact .inr ⟨k, hk, t.isRecord.le_room hk hfails, hfails⟩

/-- The largest length there is, in front of two numbers and a byte of a third one. -/
def hostileBytes : Bytes := [255, 255, 255, 255] ++ ([0, 0, 0, 1] ++ [0, 0, 0, 2] ++ [0])

/-- A set of two envelopes. -/
def pairBytes : Bytes :=
  Announcement.setBytes (Block.fill 32 0) [Announcement.idleWith 7, Announcement.idleWith 8]

/-- Two numbers are read where 4294967295 are announced, and two envelopes where two are. -/
theorem lengths_within_input_hostile :
    Reader.uint32 (Cursor.ofBytes hostileBytes) = .ok 4294967295 ⟨hostileBytes.drop 4, 4⟩ ∧
      (∃ e c', Reader.array "numbers" unbounded RecordType.uint32.read (Cursor.ofBytes hostileBytes) =
          .error e c' ∧
        ∃ k ≤ 2, FailsAfter RecordType.uint32.read k ⟨hostileBytes.drop 4, 4⟩ e c') ∧
      ∃ c', LedgerClose.readSet Announcement.feeFirst (Cursor.ofBytes pairBytes) =
        .ok (Announcement.idlePair.set Announcement.feeFirst) c' := by
  obtain ⟨hlists, hset⟩ := lengths_within_input
  have hlength : Reader.uint32 (Cursor.ofBytes hostileBytes) =
      .ok 4294967295 ⟨hostileBytes.drop 4, 4⟩ := by rfl
  obtain ⟨-, hfails, hlong⟩ := hlists uint32 "numbers" unbounded _ _ _ hlength
  obtain ⟨e, c', h⟩ := hlong (by decide)
  refine ⟨hlength, ⟨e, c', h, ?_⟩, ?_⟩
  · rcases hfails e c' h with ⟨hmax, -⟩ | ⟨k, -, hk, hk'⟩
    · exact absurd hmax (by decide)
    · exact ⟨k, hk, hk'⟩
  · have hwf : ∀ e ∈ Announcement.idlePair.envelopes, e.WellFormed :=
      Announcement.idlePair.envelopes_wellFormed
    obtain ⟨m, hprevious, hrest⟩ := Cursor.after_append.mp (Cursor.after_ofBytes pairBytes)
    obtain ⟨m', hcount, henvelopes⟩ := Cursor.after_append.mp hrest
    have hsigned : times Envelope.readSigned (2 : UInt32).toNat m' =
        .ok (Announcement.idlePair.envelopes.map fun e => (e, e.payload.signedBytes)) _ :=
      Envelope.times_readSigned.mpr ⟨_, rfl, hwf, rfl, henvelopes⟩
    have hread := hset Announcement.feeFirst _ m m' _ _ 2 _
      ((Codec.lawful_hash _ _ _).mpr ⟨trivial, hprevious⟩) (uint32_eq_ok.mpr hcount) hsigned
    rw [List.map_map] at hread
    exact ⟨_, hread⟩

end RecordType

end LedgerSearch
