import Mathlib
import LedgerSearch.LedgerClose
import LedgerSearch.Proofs.Record.WellFormed

/-
  What is digested for the hash of a transaction. The bytes kept while an envelope is read are those
  its payload is written with, so that on one network two envelopes are hashed from the same bytes
  just where they carry the same transaction (`Network.preimage_eq_iff`).
-/

namespace LedgerSearch

open Wire Wire.Codec

/-! ## Bytes that are kept -/

theorem Wire.Codec.Lawful.write_injective {α : Type} {c : Codec α} (hc : c.Lawful) {a b : α}
    (ha : c.Fits a) (hb : c.Fits b) (h : c.write a = c.write b) : a = b := by
  have hread : c.decode (c.write a) = .ok a := hc.decode_eq_ok.mpr ⟨ha, rfl⟩
  have hread' : c.decode (c.write a) = .ok b := hc.decode_eq_ok.mpr ⟨hb, h⟩
  exact Except.ok.inj (hread.symm.trans hread')

theorem Wire.Reader.consumed_eq_ok {α : Type} {r : Reader α} {a : α} {bs : Bytes} {c c' : Cursor} :
    r.consumed c = .ok (a, bs) c' ↔
      r c = .ok a c' ∧ c.rest.take (c'.offset - c.offset) = bs := by
  have hget : r.consumed c = (r >>= fun a => do
      let after ← get
      pure (a, c.rest.take (after.offset - c.offset)) : Reader (α × Bytes)) c := rfl
  rw [hget, bind_eq_ok]
  constructor
  · intro h
    obtain ⟨a', m, hr, h⟩ := h
    have hpair : (pure (a', c.rest.take (m.offset - c.offset)) : Reader (α × Bytes)) m =
        .ok (a, bs) c' := h
    obtain ⟨heq, rfl⟩ := pure_eq_ok.mp hpair
    obtain ⟨rfl, rfl⟩ := Prod.mk.inj heq
    exact ⟨hr, rfl⟩
  · intro h
    obtain ⟨hr, rfl⟩ := h
    exact ⟨a, c', hr, rfl⟩

/-- What a lawful codec has read is what it writes. -/
theorem Wire.Codec.Lawful.consumed_eq_ok {α : Type} {c : Codec α} (hc : c.Lawful) {a : α}
    {bs : Bytes} {cur cur' : Cursor} :
    c.read.consumed cur = .ok (a, bs) cur' ↔ c.read cur = .ok a cur' ∧ bs = c.write a := by
  rw [Reader.consumed_eq_ok]
  refine and_congr_right fun hread => ?_
  obtain ⟨-, hrest, hoffset⟩ := (hc _ _ _).mp hread
  have hlen : cur'.offset - cur.offset = (c.write a).length := by omega
  rw [hlen, hrest, List.take_left, eq_comm]

namespace Payload

/-- The bytes signatures are made for: all of the payload but the number of its kind. -/
def signedBytes (p : Payload) : Bytes := (codec.write p).drop 4

theorem write_eq (p : Payload) :
    codec.write p = bigEndianBytes 4 p.tag.toUInt32.toNat ++ p.signedBytes := by
  have hlen := length_bigEndianBytes 4 p.tag.toUInt32.toNat
  have hwrite : ∃ body, codec.write p = bigEndianBytes 4 p.tag.toUInt32.toNat ++ body := ⟨_, rfl⟩
  obtain ⟨body, hbody⟩ := hwrite
  rw [signedBytes, hbody, List.drop_left' hlen]

end Payload

namespace Envelope

/-- Keeping the bytes does not change what is read. -/
theorem readSigned_eq_ok {e : Envelope} {p : Bytes} {c c' : Cursor} :
    readSigned c = .ok (e, p) c' ↔ codec.read c = .ok e c' ∧ p = e.payload.signedBytes := by
  obtain ⟨payload, signatures⟩ := e
  have hsigned : readSigned c = (Payload.codec.read.consumed >>= fun kept =>
      signaturesCodec.read >>= fun signatures =>
      pure (⟨kept.1, signatures⟩, kept.2.drop 4) : Reader (Envelope × Bytes)) c := rfl
  have hplain : codec.read c = ((Payload.codec.read >>= fun payload =>
      signaturesCodec.read >>= fun signatures => pure (payload, signatures)) >>= fun parts =>
      pure ⟨parts.1, parts.2⟩ : Reader Envelope) c := rfl
  rw [hsigned, hplain]
  simp only [Reader.bind_eq_ok, Reader.pure_eq_ok, Prod.exists, Payload.lawful_codec.consumed_eq_ok]
  constructor
  · intro h
    obtain ⟨payload', kept, m, ⟨hp, rfl⟩, signatures', m', hs, heq, rfl⟩ := h
    obtain ⟨henv, rfl⟩ := Prod.mk.inj heq
    obtain ⟨rfl, rfl⟩ := Envelope.mk.inj henv
    exact ⟨⟨_, _, m', ⟨_, m, hp, _, m', hs, rfl, rfl⟩, rfl, rfl⟩, rfl⟩
  · intro h
    obtain ⟨⟨_, _, m', ⟨_, m, hp, _, _, hs, heq, rfl⟩, henv, rfl⟩, rfl⟩ := h
    obtain ⟨rfl, rfl⟩ := Prod.mk.inj heq
    obtain ⟨rfl, rfl⟩ := Envelope.mk.inj henv
    exact ⟨_, _, m, ⟨hp, rfl⟩, _, _, hs, rfl, rfl⟩

theorem decode_readSigned {bs p : Bytes} {e : Envelope} :
    readSigned.decode bs = .ok (e, p) ↔
      e.WellFormed ∧ bs = codec.write e ∧ p = e.payload.signedBytes := by
  have hdecode : readSigned.decode bs = .ok (e, p) ↔
      codec.decode bs = .ok e ∧ p = e.payload.signedBytes := by
    unfold Codec.decode
    rw [Reader.decode_eq_ok, Reader.decode_eq_ok]
    simp only [readSigned_eq_ok]
    constructor
    · intro h
      obtain ⟨c, ⟨hread, hp⟩, hrest⟩ := h
      exact ⟨⟨c, hread, hrest⟩, hp⟩
    · intro h
      obtain ⟨⟨c, hread, hrest⟩, hp⟩ := h
      exact ⟨c, ⟨hread, hp⟩, hrest⟩
  rw [hdecode, lawful_codec.decode_eq_ok, e.fits_iff, and_assoc]

end Envelope

/-! ## Transactions and what is digested for them -/

namespace Payload

/-- Two payloads carry the same transaction: the same fee bump, or the same transaction that no fee
    bump wraps, in the older form or the newer one. -/
def SameTransaction : Payload → Payload → Prop
  | .feeBump bump, .feeBump bump' => bump = bump'
  | .feeBump _, _ => False
  | _, .feeBump _ => False
  | p, p' => p.tx = p'.tx

/-- The payload in the newer form. -/
def renewed : Payload → Payload
  | .legacy tx => .plain tx
  | p => p

theorem sameTransaction_iff (p p' : Payload) : p.SameTransaction p' ↔ p.renewed = p'.renewed := by
  cases p <;> cases p' <;> simp [SameTransaction, renewed, tx]

theorem WellFormed.renewed {p : Payload} (h : p.WellFormed) : p.renewed.WellFormed := by
  cases p with
  | legacy tx => exact h.2
  | plain tx => exact h
  | feeBump bump => exact h

end Payload

namespace Transaction

/-- A bare key is a source account of the newer form once its kind is put in front. -/
theorem write_codec {tx : Transaction} (h : tx.source.id = none) :
    codec.write tx = bigEndianBytes 4 0 ++ legacyCodec.write tx := by
  obtain ⟨⟨key, id⟩, fee, seqNum, timeBounds, memo, operations⟩ := tx
  obtain rfl : id = none := h
  rfl

/-- A transaction without operations, and its bytes from the key of its source on. -/
def idle : Transaction := ⟨⟨Block.fill 32 1, none⟩, 100, 7, none, .none, []⟩

/-- The bytes of a transaction without operations, from its bare key on. -/
def idleBytes : Bytes :=
  List.replicate 32 1 ++ [0, 0, 0, 100, 0, 0, 0, 0, 0, 0, 0, 7] ++ List.replicate 16 0

theorem wellFormed_idle : idle.WellFormed := ⟨trivial, by decide, List.forall_mem_nil _⟩

end Transaction

namespace Network

open Transaction (idle idleBytes wellFormed_idle)

variable (n : Network)

/-- The network, then the payload in the newer form. -/
theorem preimage_signedBytes {p : Payload} (h : p.WellFormed) :
    n.preimage p p.signedBytes = n.id.bytes ++ Payload.codec.write p.renewed := by
  cases p with
  | legacy tx =>
    have hlegacy : (Payload.legacy tx).signedBytes = Transaction.legacyCodec.write tx := rfl
    have hplain : (Payload.plain tx).signedBytes = Transaction.codec.write tx := rfl
    show n.id.bytes ++ bigEndianBytes 4 2 ++ bigEndianBytes 4 0 ++ _ = _
    rw [hlegacy, Payload.renewed, Payload.write_eq, hplain, Transaction.write_codec h.1]
    simp only [List.append_assoc]
    rfl
  | plain tx =>
    show n.id.bytes ++ bigEndianBytes 4 _ ++ _ = n.id.bytes ++ Payload.codec.write (.plain tx)
    rw [Payload.write_eq, List.append_assoc]
  | feeBump bump =>
    show n.id.bytes ++ bigEndianBytes 4 _ ++ _ = n.id.bytes ++ Payload.codec.write (.feeBump bump)
    rw [Payload.write_eq, List.append_assoc]

/-- On one network two envelopes are hashed from the same bytes just where they carry the same
    transaction. Whatever signatures an envelope is given, the bytes kept for its hash stay the
    same; and an older transaction has a newer form that is hashed from the same bytes. -/
theorem preimage_eq_iff {bs bs' p p' : Bytes} {e e' : Envelope}
    (h : Envelope.readSigned.decode bs = .ok (e, p))
    (h' : Envelope.readSigned.decode bs' = .ok (e', p')) :
    (n.preimage e.payload p = n.preimage e'.payload p' ↔
        e.payload.SameTransaction e'.payload) ∧
      (∀ signatures, SignaturesWellFormed signatures → ∃ resigned,
        Envelope.readSigned.decode resigned = .ok (⟨e.payload, signatures⟩, p)) ∧
      ∀ tx, e.payload = .legacy tx → ∃ newer p₁,
        Envelope.readSigned.decode newer = .ok (⟨.plain tx, e.signatures⟩, p₁) ∧
          n.preimage (.plain tx) p₁ = n.preimage e.payload p := by
  obtain ⟨⟨hpayload, hsignatures⟩, -, rfl⟩ := Envelope.decode_readSigned.mp h
  obtain ⟨⟨hpayload', -⟩, -, rfl⟩ := Envelope.decode_readSigned.mp h'
  refine ⟨?_, ?_, ?_⟩
  · rw [n.preimage_signedBytes hpayload, n.preimage_signedBytes hpayload',
      Payload.sameTransaction_iff, List.append_cancel_left_eq]
    constructor
    · intro hwrite
      exact Payload.lawful_codec.write_injective (Payload.fits_iff _ |>.mpr hpayload.renewed)
        (Payload.fits_iff _ |>.mpr hpayload'.renewed) hwrite
    · intro heq
      rw [heq]
  · intro signatures hss
    exact ⟨_, Envelope.decode_readSigned.mpr ⟨⟨hpayload, hss⟩, rfl, rfl⟩⟩
  · intro tx hlegacy
    rw [hlegacy] at hpayload ⊢
    -- both forms have the same bounds
    have hplain : (Payload.plain tx).WellFormed := hpayload.2
    refine ⟨_, _, Envelope.decode_readSigned.mpr ⟨⟨hplain, hsignatures⟩, rfl, rfl⟩, ?_⟩
    rw [n.preimage_signedBytes hplain, n.preimage_signedBytes hpayload]
    rfl

/-- A network whose hashes are the first bytes of what is digested. -/
def transparent : Network := ⟨Block.fill 32 5, Block.ofBytes 32⟩

/-- The older form without signatures, and the newer one with a signature of one byte. -/
theorem preimage_eq_iff_idle :
    Envelope.readSigned.decode ([0, 0, 0, 0] ++ idleBytes ++ [0, 0, 0, 0]) =
        .ok (⟨.legacy idle, []⟩, idleBytes) ∧
      Envelope.readSigned.decode ([0, 0, 0, 2, 0, 0, 0, 0] ++ idleBytes ++
          [0, 0, 0, 1, 9, 9, 9, 9, 0, 0, 0, 1, 8, 0, 0, 0]) =
        .ok (⟨.plain idle, [⟨Block.fill 4 9, [8]⟩]⟩, [0, 0, 0, 0] ++ idleBytes) ∧
      transparent.preimage (.legacy idle) idleBytes =
        transparent.preimage (.plain idle) ([0, 0, 0, 0] ++ idleBytes) := by
  have hlegacy : Envelope.readSigned.decode ([0, 0, 0, 0] ++ idleBytes ++ [0, 0, 0, 0]) =
      .ok (⟨.legacy idle, []⟩, idleBytes) :=
    Envelope.decode_readSigned.mpr
      ⟨⟨⟨rfl, wellFormed_idle⟩, by decide, List.forall_mem_nil _⟩, by decide, by decide⟩
  have hplain : Envelope.readSigned.decode ([0, 0, 0, 2, 0, 0, 0, 0] ++ idleBytes ++
      [0, 0, 0, 1, 9, 9, 9, 9, 0, 0, 0, 1, 8, 0, 0, 0]) =
      .ok (⟨.plain idle, [⟨Block.fill 4 9, [8]⟩]⟩, [0, 0, 0, 0] ++ idleBytes) := by
    refine Envelope.decode_readSigned.mpr ⟨⟨wellFormed_idle, by decide, ?_⟩, by decide, by decide⟩
    intro s hs
    rw [List.mem_singleton.mp hs]
    show 1 ≤ 64
    decide
  exact ⟨hlegacy, hplain, (transparent.preimage_eq_iff hlegacy hplain).1.mpr rfl⟩

end Network

end LedgerSearch
