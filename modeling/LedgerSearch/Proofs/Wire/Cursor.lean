import Mathlib
import LedgerSearch.Proofs.Wire.BigEndian
import LedgerSearch.Wire.Reader

/-
  What the readers of numbers, bytes and lists accept. A reader that succeeds has taken some bytes
  off the front of its cursor (`Cursor.After`); each lemma here says which bytes these are.
-/

namespace LedgerSearch.Wire

open Reader

namespace Cursor

/-- The second cursor is what is left of the first behind `bs`. -/
def After (c : Cursor) (bs : Bytes) (c' : Cursor) : Prop :=
  c.rest = bs ++ c'.rest ∧ c'.offset = c.offset + bs.length

theorem after_nil {c c' : Cursor} : c.After [] c' ↔ c = c' := by
  obtain ⟨rest, offset⟩ := c
  obtain ⟨rest', offset'⟩ := c'
  simp [After, eq_comm]

theorem after_append {c c' : Cursor} {bs bs' : Bytes} :
    c.After (bs ++ bs') c' ↔ ∃ m, c.After bs m ∧ m.After bs' c' := by
  constructor
  · intro h
    refine ⟨⟨bs' ++ c'.rest, c.offset + bs.length⟩, ⟨?_, rfl⟩, rfl, ?_⟩
    · rw [h.1, List.append_assoc]
    · rw [h.2, List.length_append, Nat.add_assoc]
  · intro h
    obtain ⟨m, hm, hc⟩ := h
    constructor
    · rw [hm.1, hc.1, List.append_assoc]
    · rw [hc.2, hm.2, List.length_append, Nat.add_assoc]

/-- A cursor over some bytes has them all in front of it. -/
theorem after_ofBytes (bs : Bytes) : (ofBytes bs).After bs ⟨[], bs.length⟩ :=
  ⟨(List.append_nil bs).symm, (Nat.zero_add _).symm⟩

end Cursor

namespace Reader

variable {α β : Type}

theorem pure_eq_ok {a b : α} {c c' : Cursor} :
    (pure a : Reader α) c = .ok b c' ↔ a = b ∧ c = c' := by
  show EStateM.Result.ok a c = .ok b c' ↔ _
  simp

theorem bind_eq_ok {r : Reader α} {f : α → Reader β} {b : β} {c c' : Cursor} :
    (r >>= f) c = .ok b c' ↔ ∃ a m, r c = .ok a m ∧ f a m = .ok b c' := by
  show EStateM.bind r f c = .ok b c' ↔ _
  unfold EStateM.bind
  cases r c with
  | ok a m => simp
  | error e m => simp

theorem not_throw_eq_ok {e : DecodeError} {a : α} {c c' : Cursor} :
    (throw e : Reader α) c ≠ .ok a c' := nofun

/-! ## Bytes -/

theorem take_eq_ok {n : Nat} {bs : Bytes} {c c' : Cursor} :
    take n c = .ok bs c' ↔ bs.length = n ∧ c.After bs c' := by
  unfold take
  dsimp only
  constructor
  · intro h
    split at h
    · exact nomatch h
    · next hlen =>
      obtain ⟨rfl, rfl⟩ := EStateM.Result.ok.injEq .. ▸ h
      have hn : (c.rest.take n).length = n := by
        have := List.length_take_le n c.rest
        omega
      exact ⟨hn, (List.take_append_drop n c.rest).symm, by rw [hn]⟩
  · intro h
    obtain ⟨rfl, hrest, hoffset⟩ := h
    rw [hrest, ← hoffset, List.take_left, List.drop_left, if_neg (Nat.lt_irrefl _)]

/-- The padding of `n` bytes. -/
def zeros (n : Nat) : Bytes := List.replicate (paddingLength n) 0

theorem padding_eq_ok {n : Nat} {u : Unit} {c c' : Cursor} :
    padding n c = .ok u c' ↔ c.After (zeros n) c' := by
  have hget : padding n c = (do
      let bs ← take (paddingLength n)
      if bs.all (· = 0) then pure () else throw (.nonZeroPadding c.offset) : Reader Unit) c := rfl
  rw [hget, bind_eq_ok]
  constructor
  · intro h
    obtain ⟨bs, m, htake, h⟩ := h
    obtain ⟨hlen, hm⟩ := take_eq_ok.mp htake
    split at h
    · next hzero =>
      obtain ⟨-, rfl⟩ := pure_eq_ok.mp h
      have hbs : bs = zeros n := by
        refine List.eq_replicate_iff.mpr ⟨hlen, fun b hb => ?_⟩
        simpa using List.all_eq_true.mp hzero b hb
      rwa [← hbs]
    · exact (not_throw_eq_ok h).elim
  · intro h
    refine ⟨zeros n, c', take_eq_ok.mpr ⟨List.length_replicate, h⟩, ?_⟩
    have hzero : (zeros n).all (· = 0) = true := by simp [zeros]
    rw [if_pos hzero]
    rfl

theorem fixed_eq_ok {n : Nat} {bs : Bytes} {c c' : Cursor} :
    fixed n c = .ok bs c' ↔ bs.length = n ∧ c.After (bs ++ zeros bs.length) c' := by
  unfold fixed
  simp only [bind_eq_ok, take_eq_ok, padding_eq_ok, pure_eq_ok, Cursor.after_append]
  constructor
  · intro h
    obtain ⟨bs', m, ⟨hlen, hm⟩, u, m', hpad, rfl, rfl⟩ := h
    exact ⟨hlen, m, hm, by rwa [hlen]⟩
  · intro h
    obtain ⟨rfl, m, hm, hpad⟩ := h
    exact ⟨bs, m, ⟨rfl, hm⟩, (), c', hpad, rfl, rfl⟩

theorem block_ofBytes {n : Nat} (b : Block n) : Block.ofBytes n b.bytes = b := by
  obtain ⟨bs, rfl⟩ := b
  simp [Block.ofBytes]

theorem block_eq_ok {n : Nat} {b : Block n} {c c' : Cursor} :
    block n c = .ok b c' ↔ c.After (b.bytes ++ zeros n) c' := by
  unfold block
  simp only [bind_eq_ok, fixed_eq_ok, pure_eq_ok]
  constructor
  · intro h
    obtain ⟨bs, m, ⟨rfl, hm⟩, rfl, rfl⟩ := h
    rwa [block_ofBytes ⟨bs, rfl⟩]
  · intro h
    have hlen := b.length_bytes
    exact ⟨b.bytes, c', ⟨hlen, by rwa [hlen]⟩, block_ofBytes b, rfl⟩

/-! ## Numbers -/

theorem uint32_eq_ok {n : UInt32} {c c' : Cursor} :
    uint32 c = .ok n c' ↔ c.After (bigEndianBytes 4 n.toNat) c' := by
  unfold uint32
  simp only [bind_eq_ok, take_eq_ok, pure_eq_ok]
  constructor
  · intro h
    obtain ⟨bs, m, ⟨hlen, hm⟩, rfl, rfl⟩ := h
    have hlt := bigEndianNat_lt bs
    have hbs := bigEndianBytes_bigEndianNat bs
    rw [hlen] at hlt hbs
    rwa [UInt32.toNat_ofNat_of_lt' hlt, hbs]
  · intro h
    refine ⟨_, c', ⟨length_bigEndianBytes 4 n.toNat, h⟩, ?_, rfl⟩
    rw [bigEndianNat_bigEndianBytes]
    have hlt : n.toNat < 256 ^ 4 := n.toNat_lt
    rw [Nat.mod_eq_of_lt hlt, UInt32.ofNat_toNat]

theorem int32_eq_ok {n : Int32} {c c' : Cursor} :
    int32 c = .ok n c' ↔ c.After (bigEndianBytes 4 n.toUInt32.toNat) c' := by
  unfold int32
  simp only [bind_eq_ok, uint32_eq_ok, pure_eq_ok]
  constructor
  · intro h
    obtain ⟨m, c₁, hm, rfl, rfl⟩ := h
    rwa [UInt32.toUInt32_toInt32]
  · intro h
    exact ⟨n.toUInt32, c', h, n.toInt32_toUInt32, rfl⟩

theorem int32_zero_eq_ok {c c' : Cursor} :
    int32 c = .ok 0 c' ↔ c.After (bigEndianBytes 4 0) c' := by
  have hzero : (0 : Int32).toUInt32.toNat = 0 := rfl
  rw [int32_eq_ok, hzero]

theorem uint64_eq_ok {n : UInt64} {c c' : Cursor} :
    uint64 c = .ok n c' ↔ c.After (bigEndianBytes 8 n.toNat) c' := by
  unfold uint64
  simp only [bind_eq_ok, uint32_eq_ok, pure_eq_ok]
  rw [show (8 : Nat) = 4 + 4 from rfl, bigEndianBytes_add, Cursor.after_append]
  constructor
  · intro h
    obtain ⟨hi, m, hhi, lo, m', hlo, rfl, rfl⟩ := h
    have hhilt : hi.toNat < 4294967296 := hi.toNat_lt
    have hlolt : lo.toNat < 4294967296 := lo.toNat_lt
    have hn : (UInt64.ofNat (hi.toNat * UInt32.size + lo.toNat)).toNat =
        hi.toNat * 4294967296 + lo.toNat := UInt64.toNat_ofNat_of_lt' (by
          unfold UInt32.size UInt64.size
          omega)
    -- the two words are the quotient and the rest by 2 ^ 32
    have hhigh : (hi.toNat * 4294967296 + lo.toNat) / 256 ^ 4 = hi.toNat := by omega
    have hlow : (hi.toNat * 4294967296 + lo.toNat) % 256 ^ 4 = lo.toNat := by omega
    rw [hn, hhigh, ← bigEndianBytes_mod 4 (hi.toNat * 4294967296 + lo.toNat), hlow]
    exact ⟨m, hhi, hlo⟩
  · intro h
    obtain ⟨m, hhi, hlo⟩ := h
    have hn : n.toNat < 18446744073709551616 := n.toNat_lt
    have hhigh : (UInt32.ofNat (n.toNat / 256 ^ 4)).toNat = n.toNat / 256 ^ 4 :=
      UInt32.toNat_ofNat_of_lt' (by
        unfold UInt32.size
        omega)
    have hlow : (UInt32.ofNat (n.toNat % 256 ^ 4)).toNat = n.toNat % 256 ^ 4 :=
      UInt32.toNat_ofNat_of_lt' (by
        unfold UInt32.size
        omega)
    refine ⟨UInt32.ofNat (n.toNat / 256 ^ 4), m, by rwa [hhigh], UInt32.ofNat (n.toNat % 256 ^ 4),
      c', by rwa [hlow, bigEndianBytes_mod], ?_, rfl⟩
    have hsum : n.toNat / 256 ^ 4 * UInt32.size + n.toNat % 256 ^ 4 = n.toNat := by
      unfold UInt32.size
      omega
    rw [hhigh, hlow, hsum, UInt64.ofNat_toNat]

theorem int64_eq_ok {n : Int64} {c c' : Cursor} :
    int64 c = .ok n c' ↔ c.After (bigEndianBytes 8 n.toUInt64.toNat) c' := by
  unfold int64
  simp only [bind_eq_ok, uint64_eq_ok, pure_eq_ok]
  constructor
  · intro h
    obtain ⟨m, c₁, hm, rfl, rfl⟩ := h
    rwa [UInt64.toUInt64_toInt64]
  · intro h
    exact ⟨n.toUInt64, c', h, n.toInt64_toUInt64, rfl⟩

/-- The number that stands for a flag. -/
def flag (b : Bool) : Int32 := if b then 1 else 0

theorem bool_eq_ok {b : Bool} {c c' : Cursor} :
    bool c = .ok b c' ↔ int32 c = .ok (flag b) c' := by
  unfold bool
  rw [bind_eq_ok]
  constructor
  · intro h
    obtain ⟨n, m, hn, h⟩ := h
    split at h
    · next hzero =>
      obtain ⟨rfl, rfl⟩ := pure_eq_ok.mp h
      rw [hn, hzero]
      rfl
    · split at h
      · next hone =>
        obtain ⟨rfl, rfl⟩ := pure_eq_ok.mp h
        rw [hn, hone]
        rfl
      · exact (not_throw_eq_ok h).elim
  · intro h
    refine ⟨flag b, c', h, ?_⟩
    cases b <;> rfl

/-! ## Lengths and lists -/

theorem bytes_eq_ok {kind : String} {max : Nat} {bs : Bytes} {c c' : Cursor} :
    bytes kind max c = .ok bs c' ↔
      (bs.length ≤ max ∧ bs.length < UInt32.size) ∧
        c.After (bigEndianBytes 4 bs.length ++ (bs ++ zeros bs.length)) c' := by
  unfold bytes
  rw [bind_eq_ok, Cursor.after_append]
  constructor
  · intro h
    obtain ⟨n, m, hn, h⟩ := h
    split at h
    · exact (not_throw_eq_ok h).elim
    · next hmax =>
      obtain ⟨hlen, hbs⟩ := fixed_eq_ok.mp h
      refine ⟨⟨by omega, by rw [hlen]; exact n.toNat_lt⟩, m, ?_, hbs⟩
      rw [hlen]
      exact uint32_eq_ok.mp hn
  · intro h
    obtain ⟨⟨hmax, hlt⟩, m, hn, hbs⟩ := h
    have hlen : (UInt32.ofNat bs.length).toNat = bs.length := UInt32.toNat_ofNat_of_lt' hlt
    refine ⟨UInt32.ofNat bs.length, m, uint32_eq_ok.mpr (by rwa [hlen]), ?_⟩
    rw [hlen, if_neg (by omega)]
    exact fixed_eq_ok.mpr ⟨rfl, hbs⟩

theorem times_eq_ok {r : Reader α} {write : α → Bytes} {Fits : α → Prop}
    (hr : ∀ a c c', r c = .ok a c' ↔ Fits a ∧ c.After (write a) c') {n : Nat} {as : List α}
    {c c' : Cursor} :
    times r n c = .ok as c' ↔
      as.length = n ∧ (∀ a ∈ as, Fits a) ∧ c.After (as.flatMap write) c' := by
  induction n generalizing as c c' with
  | zero =>
    unfold times
    rw [pure_eq_ok]
    constructor
    · intro h
      obtain ⟨rfl, rfl⟩ := h
      exact ⟨rfl, List.forall_mem_nil _, Cursor.after_nil.mpr rfl⟩
    · intro h
      obtain ⟨hlen, -, hc⟩ := h
      obtain rfl := List.length_eq_zero_iff.mp hlen
      exact ⟨rfl, Cursor.after_nil.mp hc⟩
  | succ n ih =>
    unfold times
    simp only [bind_eq_ok, pure_eq_ok, hr, ih]
    constructor
    · intro h
      obtain ⟨a, m, ⟨ha, hm⟩, rest, m', ⟨hlen, hrest, hm'⟩, rfl, rfl⟩ := h
      refine ⟨congrArg (· + 1) hlen, List.forall_mem_cons.mpr ⟨ha, hrest⟩, ?_⟩
      rw [List.flatMap_cons, Cursor.after_append]
      exact ⟨m, hm, hm'⟩
    · intro h
      obtain ⟨hlen, hfits, hc⟩ := h
      obtain ⟨a, rest, rfl⟩ := List.exists_cons_of_length_eq_add_one hlen
      obtain ⟨ha, hrest⟩ := List.forall_mem_cons.mp hfits
      rw [List.flatMap_cons, Cursor.after_append] at hc
      obtain ⟨m, hm, hm'⟩ := hc
      exact ⟨a, m, ⟨ha, hm⟩, rest, c', ⟨Nat.succ.inj hlen, hrest, hm'⟩, rfl, rfl⟩

theorem array_eq_ok {r : Reader α} {write : α → Bytes} {Fits : α → Prop}
    (hr : ∀ a c c', r c = .ok a c' ↔ Fits a ∧ c.After (write a) c') {kind : String} {max : Nat}
    {as : List α} {c c' : Cursor} :
    array kind max r c = .ok as c' ↔
      (as.length ≤ max ∧ as.length < UInt32.size ∧ ∀ a ∈ as, Fits a) ∧
        c.After (bigEndianBytes 4 as.length ++ as.flatMap write) c' := by
  unfold array
  rw [bind_eq_ok, Cursor.after_append]
  constructor
  · intro h
    obtain ⟨n, m, hn, h⟩ := h
    split at h
    · exact (not_throw_eq_ok h).elim
    · next hmax =>
      obtain ⟨hlen, hfits, has⟩ := (times_eq_ok hr).mp h
      refine ⟨⟨by omega, by rw [hlen]; exact n.toNat_lt, hfits⟩, m, ?_, has⟩
      rw [hlen]
      exact uint32_eq_ok.mp hn
  · intro h
    obtain ⟨⟨hmax, hlt, hfits⟩, m, hn, has⟩ := h
    have hlen : (UInt32.ofNat as.length).toNat = as.length := UInt32.toNat_ofNat_of_lt' hlt
    refine ⟨UInt32.ofNat as.length, m, uint32_eq_ok.mpr (by rwa [hlen]), ?_⟩
    rw [hlen, if_neg (by omega)]
    exact (times_eq_ok hr).mpr ⟨rfl, hfits, has⟩

theorem emptyExt_eq_ok {kind : String} {u : Unit} {c c' : Cursor} :
    emptyExt kind c = .ok u c' ↔ c.After (bigEndianBytes 4 0) c' := by
  unfold emptyExt
  rw [bind_eq_ok]
  constructor
  · intro h
    obtain ⟨n, m, hn, h⟩ := h
    split at h
    · next hzero =>
      obtain ⟨-, rfl⟩ := pure_eq_ok.mp h
      rw [hzero] at hn
      exact int32_zero_eq_ok.mp hn
    · exact (not_throw_eq_ok h).elim
  · intro h
    exact ⟨0, c', int32_zero_eq_ok.mpr h, rfl⟩

/-! ## Whole records -/

theorem finish_eq_ok {u : Unit} {c c' : Cursor} :
    finish c = .ok u c' ↔ c.rest = [] ∧ c = c' := by
  have hget : finish c = (if c.rest.length = 0 then pure ()
      else throw (.trailingBytes c.rest.length) : Reader Unit) c := rfl
  rw [hget]
  constructor
  · intro h
    split at h
    · next hzero => exact ⟨List.length_eq_zero_iff.mp hzero, (pure_eq_ok.mp h).2⟩
    · exact (not_throw_eq_ok h).elim
  · intro h
    obtain ⟨hrest, rfl⟩ := h
    rw [hrest]
    rfl

theorem whole_eq_ok {r : Reader α} {a : α} {c c' : Cursor} :
    whole r c = .ok a c' ↔ r c = .ok a c' ∧ c'.rest = [] := by
  unfold whole
  simp only [bind_eq_ok, finish_eq_ok, pure_eq_ok]
  constructor
  · intro h
    obtain ⟨a', m, hr, u, m', ⟨hrest, rfl⟩, rfl, rfl⟩ := h
    exact ⟨hr, hrest⟩
  · intro h
    exact ⟨a, c', h.1, (), c', ⟨h.2, rfl⟩, rfl, rfl⟩

theorem decode_eq_ok {r : Reader α} {a : α} {bs : Bytes} :
    r.decode bs = .ok a ↔ ∃ c, r (Cursor.ofBytes bs) = .ok a c ∧ c.rest = [] := by
  simp only [← whole_eq_ok]
  unfold decode
  cases r.whole (Cursor.ofBytes bs) with
  | ok a' c => simp
  | error e c => simp

end Reader

end LedgerSearch.Wire
