import Mathlib
import LedgerSearch.Proofs.Wire.Cursor
import LedgerSearch.Wire.Codec

/-
  Readers that find the end of what they read by themselves. Where such a reader succeeds it does so
  for the bytes it took, whatever stands around them, and where these bytes are cut short it says
  that the input ended. Both are kept by reading one thing after the other, so they hold of a record
  because they hold of its fields.
-/

namespace LedgerSearch.Wire

namespace Reader

variable {α β : Type}

/-! ## Single readings -/

/-- The input ended before the reading did. -/
def Misses (result : EStateM.Result DecodeError Cursor α) : Prop :=
  ∃ offset needed c, result = .error (.unexpectedEnd offset needed) c

/-- `r` reads `a` from `bs`, whatever stands around them, and misses the rest of a part of them. -/
structure Accepts (r : Reader α) (bs : Bytes) (a : α) : Prop where
  read_eq : ∀ {c c'}, c.After bs c' → r c = .ok a c'
  misses : ∀ {c k}, k < bs.length → c.rest = bs.take k → Misses (r c)

theorem bind_of_ok {r : Reader α} {f : α → Reader β} {a : α} {c m : Cursor} (h : r c = .ok a m) :
    (r >>= f) c = f a m := by
  show EStateM.bind r f c = _
  unfold EStateM.bind
  rw [h]

theorem bind_of_error {r : Reader α} {f : α → Reader β} {e : DecodeError} {c m : Cursor}
    (h : r c = .error e m) : (r >>= f) c = .error e m := by
  show EStateM.bind r f c = _
  unfold EStateM.bind
  rw [h]

theorem Misses.bind {r : Reader α} {c : Cursor} (h : Misses (r c)) (f : α → Reader β) :
    Misses ((r >>= f) c) := by
  obtain ⟨offset, needed, m, hr⟩ := h
  exact ⟨offset, needed, m, bind_of_error hr⟩

theorem accepts_pure (a : α) : Accepts (pure a) [] a where
  read_eq h := pure_eq_ok.mpr ⟨rfl, Cursor.after_nil.mp h⟩
  misses hk _ := absurd hk (Nat.not_lt_zero _)

/-- A cut falls either into what the first reader takes or behind it. -/
theorem Accepts.bind {r : Reader α} {f : α → Reader β} {bs bs' : Bytes} {a : α} {b : β}
    (hr : Accepts r bs a) (hf : Accepts (f a) bs' b) : Accepts (r >>= f) (bs ++ bs') b where
  read_eq h := by
    obtain ⟨m, hm, hm'⟩ := Cursor.after_append.mp h
    exact bind_eq_ok.mpr ⟨a, m, hr.read_eq hm, hf.read_eq hm'⟩
  misses {c k} hk hc := by
    rw [List.length_append] at hk
    rw [List.take_append] at hc
    by_cases hcut : k < bs.length
    · have hzero : k - bs.length = 0 := by omega
      rw [hzero, List.take_zero, List.append_nil] at hc
      exact (hr.misses hcut hc).bind f
    · rw [List.take_of_length_le (by omega)] at hc
      have hafter : c.After bs ⟨bs'.take (k - bs.length), c.offset + bs.length⟩ := ⟨hc, rfl⟩
      rw [bind_of_ok (hr.read_eq hafter)]
      exact hf.misses (by omega) rfl

theorem accepts_take (bs : Bytes) : Accepts (take bs.length) bs bs where
  read_eq h := take_eq_ok.mpr ⟨rfl, h⟩
  misses {c k} hk hc := by
    have hgot : (c.rest.take bs.length).length = k := by
      rw [hc, List.take_take, List.length_take]
      omega
    refine ⟨c.offset, bs.length - k, c, ?_⟩
    unfold take
    dsimp only
    rw [hgot, if_pos hk]

theorem accepts_padding (n : Nat) : Accepts (padding n) (zeros n) () where
  read_eq h := padding_eq_ok.mpr h
  misses {c k} hk hc := by
    have htake := accepts_take (zeros n)
    rw [show (zeros n).length = paddingLength n from List.length_replicate] at htake
    exact (htake.misses hk hc).bind fun bs =>
      if bs.all (· = 0) then pure () else throw (.nonZeroPadding c.offset)

theorem accepts_fixed (bs : Bytes) : Accepts (fixed bs.length) (bs ++ zeros bs.length) bs := by
  have h := (accepts_padding bs.length).bind (f := fun _ => pure bs) (accepts_pure bs)
  rw [List.append_nil] at h
  exact (accepts_take bs).bind h

/-! ## Delimited readers -/

/-- Every reading takes whole words, and is accepted for the bytes it takes. -/
structure Delimited (r : Reader α) : Prop where
  exists_bytes : ∀ {c a c'}, r c = .ok a c' →
    ∃ bs, c.After bs c' ∧ 4 ∣ bs.length ∧ Accepts r bs a

/-- A delimited reader that never reads nothing. -/
structure IsRecord (r : Reader α) : Prop extends Delimited r where
  advances : ∀ {c a c'}, r c = .ok a c' → c.offset < c'.offset

theorem delimited_pure (a : α) : Delimited (pure a) where
  exists_bytes h := by
    obtain ⟨rfl, rfl⟩ := pure_eq_ok.mp h
    exact ⟨[], Cursor.after_nil.mpr rfl, Nat.dvd_zero 4, accepts_pure a⟩

theorem delimited_throw (e : DecodeError) : Delimited (throw e : Reader α) where
  exists_bytes h := (not_throw_eq_ok h).elim

theorem Delimited.bind {r : Reader α} {f : α → Reader β} (hr : Delimited r)
    (hf : ∀ a, Delimited (f a)) : Delimited (r >>= f) where
  exists_bytes h := by
    obtain ⟨a, m, ha, hb⟩ := bind_eq_ok.mp h
    obtain ⟨bs, hbs, hdvd, hacc⟩ := hr.exists_bytes ha
    obtain ⟨bs', hbs', hdvd', hacc'⟩ := (hf a).exists_bytes hb
    refine ⟨bs ++ bs', Cursor.after_append.mpr ⟨m, hbs, hbs'⟩, ?_, hacc.bind hacc'⟩
    rw [List.length_append]
    exact Nat.dvd_add hdvd hdvd'

/-- It is enough that the first thing read is a record. -/
theorem IsRecord.bind {r : Reader α} {f : α → Reader β} (hr : IsRecord r)
    (hf : ∀ a, Delimited (f a)) : IsRecord (r >>= f) where
  toDelimited := hr.toDelimited.bind hf
  advances {c _ c'} h := by
    obtain ⟨a, m, ha, hb⟩ := bind_eq_ok.mp h
    obtain ⟨bs, hbs, -⟩ := (hf a).exists_bytes hb
    have hlt : c.offset < m.offset := hr.advances ha
    have hle : c'.offset = m.offset + bs.length := hbs.2
    omega

theorem IsRecord.map {r : Reader α} (hr : IsRecord r) (f : α → β) :
    IsRecord (r >>= fun a => pure (f a)) := hr.bind fun a => delimited_pure (f a)

/-! ## Numbers, bytes and lists -/

theorem isRecord_uint32 : IsRecord uint32 where
  exists_bytes {c n c'} h := by
    refine ⟨bigEndianBytes 4 n.toNat, uint32_eq_ok.mp h, ?_, ?_⟩
    · rw [length_bigEndianBytes]
    · have htake := accepts_take (bigEndianBytes 4 n.toNat)
      rw [length_bigEndianBytes] at htake
      refine ⟨fun h' => uint32_eq_ok.mpr h', fun hk hc => ?_⟩
      rw [length_bigEndianBytes] at hk
      exact (htake.misses (by rwa [length_bigEndianBytes]) hc).bind _
  advances {c n c'} h := by
    have hoffset := (uint32_eq_ok.mp h).2
    rw [length_bigEndianBytes] at hoffset
    omega

theorem isRecord_int32 : IsRecord int32 := isRecord_uint32.map _

theorem isRecord_uint64 : IsRecord uint64 :=
  isRecord_uint32.bind fun _ => (isRecord_uint32.map _).toDelimited

theorem isRecord_int64 : IsRecord int64 := isRecord_uint64.map _

theorem isRecord_bool : IsRecord bool := by
  refine isRecord_int32.bind fun n => ?_
  split
  · exact delimited_pure false
  · split
    · exact delimited_pure true
    · exact delimited_throw _

theorem isRecord_emptyExt (kind : String) : IsRecord (emptyExt kind) := by
  refine isRecord_int32.bind fun n => ?_
  split
  · exact delimited_pure ()
  · exact delimited_throw _

theorem dvd_add_paddingLength (n : Nat) : 4 ∣ n + paddingLength n := by
  unfold paddingLength
  omega

theorem delimited_fixed (n : Nat) : Delimited (fixed n) where
  exists_bytes {c bs c'} h := by
    obtain ⟨rfl, hbs⟩ := fixed_eq_ok.mp h
    refine ⟨_, hbs, ?_, accepts_fixed bs⟩
    rw [List.length_append, zeros, List.length_replicate]
    exact dvd_add_paddingLength bs.length

theorem isRecord_block {n : Nat} (hn : 0 < n) : IsRecord (block n) where
  toDelimited := (delimited_fixed n).bind fun bs => delimited_pure _
  advances {c b c'} h := by
    have hoffset := (block_eq_ok.mp h).2
    rw [List.length_append, b.length_bytes] at hoffset
    omega

theorem isRecord_bytes (kind : String) (max : Nat) : IsRecord (bytes kind max) := by
  refine isRecord_uint32.bind fun n => ?_
  split
  · exact (delimited_throw _).bind fun _ => delimited_fixed _
  · exact (delimited_pure _).bind fun _ => delimited_fixed _

theorem isRecord_option {r : Reader α} (hr : IsRecord r) : IsRecord (option r) := by
  refine isRecord_bool.bind fun b => ?_
  cases b with
  | false => exact delimited_pure none
  | true => exact (hr.map some).toDelimited

theorem delimited_times {r : Reader α} (hr : Delimited r) (n : Nat) : Delimited (times r n) := by
  induction n with
  | zero => exact delimited_pure []
  | succ n ih => exact hr.bind fun a => ih.bind fun rest => delimited_pure (a :: rest)

theorem isRecord_array (kind : String) (max : Nat) {r : Reader α} (hr : IsRecord r) :
    IsRecord (array kind max r) := by
  refine isRecord_uint32.bind fun n => ?_
  split
  · exact (delimited_throw _).bind fun _ => delimited_times hr.toDelimited _
  · exact (delimited_pure _).bind fun _ => delimited_times hr.toDelimited _

theorem length_times {r : Reader α} {n : Nat} {as : List α} {c c' : Cursor}
    (h : times r n c = .ok as c') : as.length = n := by
  induction n generalizing as c c' with
  | zero => rw [← (pure_eq_ok.mp h).1, List.length_nil]
  | succ n ih =>
    unfold times at h
    simp only [bind_eq_ok, pure_eq_ok] at h
    obtain ⟨a, m, -, rest, m', hrest, rfl, -⟩ := h
    rw [List.length_cons, ih hrest]

/-- The length of a list is a 32-bit number. -/
theorem length_array_lt {kind : String} {max : Nat} {r : Reader α} {as : List α} {c c' : Cursor}
    (h : array kind max r c = .ok as c') : as.length < UInt32.size := by
  obtain ⟨n, m, -, h⟩ := bind_eq_ok.mp h
  split at h
  · exact (not_throw_eq_ok h).elim
  · rw [length_times h]
    exact n.toNat_lt

/-! ## Whole inputs -/

variable {r : Reader α} {a : α} {bs : Bytes}

theorem decode_of_ok {c : Cursor} (h : r (Cursor.ofBytes bs) = .ok a c) (hrest : c.rest ≠ []) :
    r.decode bs = .error (.trailingBytes c.rest.length) := by
  have hlen : c.rest.length ≠ 0 := fun hzero => hrest (List.length_eq_zero_iff.mp hzero)
  have hfinish : finish c = .error (.trailingBytes c.rest.length) c := by
    show (if c.rest.length = 0 then pure ()
      else throw (.trailingBytes c.rest.length) : Reader Unit) c = _
    rw [if_neg hlen]
    rfl
  have hwhole : r.whole (Cursor.ofBytes bs) = .error (.trailingBytes c.rest.length) c := by
    unfold whole
    rw [bind_of_ok h]
    exact bind_of_error hfinish
  unfold decode
  rw [hwhole]

theorem Accepts.decode (h : Accepts r bs a) : r.decode bs = .ok a :=
  decode_eq_ok.mpr ⟨_, h.read_eq (Cursor.after_ofBytes bs), rfl⟩

/-- Bytes behind a record are counted and refused. -/
theorem Accepts.decode_append (h : Accepts r bs a) {suffix : Bytes} (hsuffix : suffix ≠ []) :
    r.decode (bs ++ suffix) = .error (.trailingBytes suffix.length) := by
  have hafter : (Cursor.ofBytes (bs ++ suffix)).After bs ⟨suffix, bs.length⟩ :=
    ⟨rfl, (Nat.zero_add _).symm⟩
  exact decode_of_ok (h.read_eq hafter) hsuffix

/-- A reading takes just the bytes that are a record on their own. -/
theorem Delimited.eq_ok_iff (hr : Delimited r) {c c' : Cursor} :
    r c = .ok a c' ↔ ∃ bs, c.After bs c' ∧ r.decode bs = .ok a := by
  constructor
  · intro h
    obtain ⟨bs, hbs, -, hacc⟩ := hr.exists_bytes h
    exact ⟨bs, hbs, hacc.decode⟩
  · intro h
    obtain ⟨bs, hbs, hdecode⟩ := h
    obtain ⟨m, hm, hrest⟩ := decode_eq_ok.mp hdecode
    obtain ⟨bs', hbs', -, hacc⟩ := hr.exists_bytes hm
    have heq : bs = bs' := by
      have h := hbs'.1
      rwa [hrest, List.append_nil] at h
    exact hacc.read_eq (heq ▸ hbs)

theorem IsRecord.ne_nil (hr : IsRecord r) (h : r.decode bs = .ok a) : bs ≠ [] := by
  rintro rfl
  obtain ⟨c, hc, -⟩ := decode_eq_ok.mp h
  obtain ⟨bs, ⟨hbs, hoffset⟩, -⟩ := hr.exists_bytes hc
  obtain ⟨rfl, -⟩ := List.append_eq_nil_iff.mp hbs.symm
  exact (hr.advances hc).ne hoffset.symm

end Reader

/-! ## Codecs -/

namespace Codec

open Reader

variable {α β : Type} {c : Codec α} {d : Codec β}

theorem isRecord_pair (hc : IsRecord c.read) (hd : IsRecord d.read) : IsRecord (c.pair d).read :=
  hc.bind fun _ => (hd.map _).toDelimited

theorem isRecord_beforeExt (kind : String) (hc : IsRecord c.read) :
    IsRecord (c.before (Codec.emptyExt kind)).read :=
  hc.bind fun _ => ((isRecord_emptyExt kind).map _).toDelimited

theorem isRecord_imap {build : α → β} {view : β → α} (hc : IsRecord c.read) :
    IsRecord (c.imap build view).read := hc.map build

theorem delimited_arm {build : α → β} {view : β → Option α} (hc : IsRecord c.read) :
    Delimited (c.arm build view).read := (hc.map build).toDelimited

theorem delimited_only (b : β) : Delimited (only b).read := delimited_pure b

theorem delimited_refuse (e : DecodeError) : Delimited (refuse e : Codec β).read :=
  delimited_throw e

theorem delimited_unknown (kind : String) (n : Int32) : Delimited (unknown kind n : Codec β).read :=
  delimited_refuse _

theorem isRecord_tagged {tag : β → Int32} {arms : Int32 → Codec β}
    (h : ∀ t, Delimited (arms t).read) : IsRecord (tagged tag arms).read :=
  isRecord_int32.bind h

end Codec

end LedgerSearch.Wire
