import Mathlib
import LedgerSearch.Proofs.Wire.Cursor
import LedgerSearch.Wire.Codec

/-
  Lawful codecs: reading takes exactly the bytes that writing gives, for the values that fit, and
  nothing else is read. Each way of making a codec keeps this, so that the laws of a record follow
  the way the record is made. Decoding with a lawful codec is one to one (`Lawful.bijective`).
-/

namespace LedgerSearch.Wire.Codec

variable {α β : Type}

/-- A value is read off a cursor exactly if it fits and its bytes stand at the front. -/
def Lawful (c : Codec α) : Prop :=
  ∀ a cur cur', c.read cur = .ok a cur' ↔ c.Fits a ∧ cur.After (c.write a) cur'

/-- Where every value fits, it is enough that the reader takes the bytes that are written. -/
theorem lawful_of_fits {c : Codec α} (hfits : ∀ a, c.Fits a)
    (h : ∀ a cur cur', c.read cur = .ok a cur' ↔ cur.After (c.write a) cur') : c.Lawful :=
  fun a cur cur' => (h a cur cur').trans (and_iff_right (hfits a)).symm

section Scalars

theorem lawful_uint32 : Codec.uint32.Lawful :=
  lawful_of_fits (fun _ => trivial) fun _ _ _ => Reader.uint32_eq_ok

theorem lawful_int32 : Codec.int32.Lawful :=
  lawful_of_fits (fun _ => trivial) fun _ _ _ => Reader.int32_eq_ok

theorem lawful_uint64 : Codec.uint64.Lawful :=
  lawful_of_fits (fun _ => trivial) fun _ _ _ => Reader.uint64_eq_ok

theorem lawful_int64 : Codec.int64.Lawful :=
  lawful_of_fits (fun _ => trivial) fun _ _ _ => Reader.int64_eq_ok

theorem lawful_block (n : Nat) : (Codec.block n).Lawful := by
  refine lawful_of_fits (fun _ => trivial) fun b cur cur' => ?_
  have hwrite : (Codec.block n).write b = b.bytes ++ Reader.zeros n := by
    show b.bytes ++ Reader.zeros b.bytes.length = _
    rw [b.length_bytes]
  rw [hwrite]
  exact Reader.block_eq_ok

theorem lawful_hash : Codec.hash.Lawful := lawful_block 32

theorem lawful_bytes (kind : String) (max : Nat) : (Codec.bytes kind max).Lawful :=
  fun _ _ _ => Reader.bytes_eq_ok

theorem lawful_emptyExt (kind : String) : (Codec.emptyExt kind).Lawful :=
  lawful_of_fits (fun _ => trivial) fun _ _ _ => Reader.emptyExt_eq_ok

end Scalars

section Combinators

variable {c : Codec α} {d : Codec β}

theorem lawful_option (hc : c.Lawful) : (Codec.option c).Lawful := by
  intro o cur cur'
  show Reader.option c.read cur = .ok o cur' ↔ _
  unfold Reader.option
  rw [Reader.bind_eq_ok]
  constructor
  · intro h
    obtain ⟨b, m, hb, h⟩ := h
    rw [Reader.bool_eq_ok, Reader.int32_eq_ok] at hb
    cases b with
    | false =>
      obtain ⟨rfl, rfl⟩ := Reader.pure_eq_ok.mp h
      exact ⟨nofun, hb⟩
    | true =>
      obtain ⟨a, m', ha, h⟩ := Reader.bind_eq_ok.mp h
      obtain ⟨rfl, rfl⟩ := Reader.pure_eq_ok.mp h
      obtain ⟨hfits, hm⟩ := (hc a m m').mp ha
      refine ⟨fun a' ha' => ?_, Cursor.after_append.mpr ⟨m, hb, hm⟩⟩
      rwa [← Option.some.inj ha']
  · intro h
    obtain ⟨hfits, ho⟩ := h
    cases o with
    | none => exact ⟨false, cur', Reader.bool_eq_ok.mpr (Reader.int32_eq_ok.mpr ho), rfl⟩
    | some a =>
      obtain ⟨m, hb, hm⟩ := Cursor.after_append.mp ho
      refine ⟨true, m, Reader.bool_eq_ok.mpr (Reader.int32_eq_ok.mpr hb), ?_⟩
      exact Reader.bind_eq_ok.mpr ⟨a, cur', (hc a m cur').mpr ⟨hfits a rfl, hm⟩, rfl⟩

theorem lawful_array (kind : String) (max : Nat) (hc : c.Lawful) :
    (Codec.array kind max c).Lawful :=
  fun _ _ _ => Reader.array_eq_ok hc

theorem lawful_pair (hc : c.Lawful) (hd : d.Lawful) : (c.pair d).Lawful := by
  intro p cur cur'
  obtain ⟨a, b⟩ := p
  show (c.read >>= fun a => d.read >>= fun b => pure (a, b)) cur = .ok (a, b) cur' ↔
    (c.Fits a ∧ d.Fits b) ∧ cur.After (c.write a ++ d.write b) cur'
  simp only [Reader.bind_eq_ok, Reader.pure_eq_ok, hc _ _ _, hd _ _ _, Cursor.after_append]
  constructor
  · intro h
    obtain ⟨a', m, ⟨ha, hm⟩, b', m', ⟨hb, hm'⟩, heq, rfl⟩ := h
    obtain ⟨rfl, rfl⟩ := Prod.mk.inj heq
    exact ⟨⟨ha, hb⟩, m, hm, hm'⟩
  · intro h
    obtain ⟨⟨ha, hb⟩, m, hm, hm'⟩ := h
    exact ⟨a, m, ⟨ha, hm⟩, b, cur', ⟨hb, hm'⟩, rfl, rfl⟩

theorem lawful_before {d : Codec Unit} (hc : c.Lawful) (hd : d.Lawful) (hfits : d.Fits ()) :
    (c.before d).Lawful := by
  intro a cur cur'
  show (c.read >>= fun a => d.read >>= fun _ => pure a) cur = .ok a cur' ↔
    c.Fits a ∧ cur.After (c.write a ++ d.write ()) cur'
  simp only [Reader.bind_eq_ok, Reader.pure_eq_ok, hc _ _ _, hd _ _ _, Cursor.after_append]
  constructor
  · intro h
    obtain ⟨a', m, ⟨ha, hm⟩, u, m', ⟨-, hm'⟩, rfl, rfl⟩ := h
    exact ⟨ha, m, hm, hm'⟩
  · intro h
    obtain ⟨ha, m, hm, hm'⟩ := h
    exact ⟨a, m, ⟨ha, hm⟩, (), cur', ⟨hfits, hm'⟩, rfl, rfl⟩

/-- A record that ends in an empty place for extensions. -/
theorem lawful_beforeExt (kind : String) (hc : c.Lawful) :
    (c.before (Codec.emptyExt kind)).Lawful :=
  lawful_before hc (lawful_emptyExt kind) trivial

theorem write_arm {build : α → β} {view : β → Option α} {a : α} {b : β} (h : view b = some a) :
    (c.arm build view).write b = c.write a := by
  simp only [Codec.arm, h]

theorem lawful_arm {build : α → β} {view : β → Option α} (hc : c.Lawful)
    (hview : ∀ a b, view b = some a ↔ b = build a) : (c.arm build view).Lawful := by
  intro b cur cur'
  show (c.read >>= fun a => pure (build a)) cur = .ok b cur' ↔ _
  simp only [Reader.bind_eq_ok, Reader.pure_eq_ok, hc _ _ _]
  constructor
  · intro h
    obtain ⟨a, m, ⟨ha, hm⟩, hb, rfl⟩ := h
    have hsome := (hview a b).mpr hb.symm
    refine ⟨⟨a, hsome, ha⟩, ?_⟩
    rw [write_arm hsome]
    exact hm
  · intro h
    obtain ⟨⟨a, hsome, ha⟩, hm⟩ := h
    rw [write_arm hsome] at hm
    exact ⟨a, cur', ⟨ha, hm⟩, ((hview a b).mp hsome).symm, rfl⟩

theorem lawful_imap {build : α → β} {view : β → α} (hc : c.Lawful)
    (hbuild : ∀ a, view (build a) = a) (hview : ∀ b, build (view b) = b) :
    (c.imap build view).Lawful := by
  intro b cur cur'
  show (c.read >>= fun a => pure (build a)) cur = .ok b cur' ↔
    c.Fits (view b) ∧ cur.After (c.write (view b)) cur'
  simp only [Reader.bind_eq_ok, Reader.pure_eq_ok, hc _ _ _]
  constructor
  · intro h
    obtain ⟨a, m, ⟨ha, hm⟩, rfl, rfl⟩ := h
    rw [hbuild]
    exact ⟨ha, hm⟩
  · intro h
    exact ⟨view b, cur', h, hview b, rfl⟩

theorem lawful_only (b : β) : (only b).Lawful := by
  intro b' cur cur'
  show (pure b : Reader β) cur = .ok b' cur' ↔ b' = b ∧ cur.After [] cur'
  rw [Reader.pure_eq_ok, Cursor.after_nil, eq_comm (a := b)]

theorem lawful_refuse (e : DecodeError) : (refuse e : Codec β).Lawful := by
  intro b cur cur'
  constructor
  · intro h
    exact (Reader.not_throw_eq_ok h).elim
  · intro h
    exact h.1.elim

end Combinators

/-! ## Unions -/

/-- A lawful codec of values whose number is `t`. -/
structure LawfulArm (tag : β → Int32) (t : Int32) (c : Codec β) : Prop where
  lawful : c.Lawful
  tag_eq : ∀ b, c.Fits b → tag b = t

section Unions

variable {tag : β → Int32} {t : Int32}

theorem lawfulArm_arm {c : Codec α} {build : α → β} {view : β → Option α} (hc : c.Lawful)
    (hview : ∀ a b, view b = some a ↔ b = build a)
    (htag : ∀ a, (tag (build a)).toInt = t.toInt) : LawfulArm tag t (c.arm build view) where
  lawful := lawful_arm hc hview
  tag_eq b h := by
    obtain ⟨a, hsome, -⟩ := h
    rw [(hview a b).mp hsome]
    exact Int32.toInt_inj.mp (htag a)

theorem lawfulArm_only {b : β} (htag : (tag b).toInt = t.toInt) : LawfulArm tag t (only b) where
  lawful := lawful_only b
  tag_eq b' h := by
    have hb : b' = b := h
    rw [hb]
    exact Int32.toInt_inj.mp htag

theorem lawfulArm_refuse (e : DecodeError) : LawfulArm tag t (refuse e) where
  lawful := lawful_refuse e
  tag_eq _ h := h.elim

theorem lawfulArm_unknown (kind : String) (n : Int32) : LawfulArm tag t (unknown kind n) :=
  lawfulArm_refuse _

/-- Where all values have one number, any codec may stand under it. -/
theorem lawfulArm_of_tag {c : Codec β} (hc : c.Lawful) (htag : ∀ b, (tag b).toInt = t.toInt) :
    LawfulArm tag t c where
  lawful := hc
  tag_eq b _ := Int32.toInt_inj.mp (htag b)

theorem lawful_tagged {arms : Int32 → Codec β} (h : ∀ t, LawfulArm tag t (arms t)) :
    (tagged tag arms).Lawful := by
  intro b cur cur'
  show (Reader.int32 >>= fun t => (arms t).read) cur = .ok b cur' ↔
    (arms (tag b)).Fits b ∧
      cur.After (bigEndianBytes 4 (tag b).toUInt32.toNat ++ (arms (tag b)).write b) cur'
  simp only [Reader.bind_eq_ok, Reader.int32_eq_ok, Cursor.after_append, (h _).lawful _ _ _]
  constructor
  · intro hread
    obtain ⟨t, m, hm, hfits, hb⟩ := hread
    obtain rfl := (h t).tag_eq b hfits
    exact ⟨hfits, m, hm, hb⟩
  · intro hwritten
    obtain ⟨hfits, m, hm, hb⟩ := hwritten
    exact ⟨tag b, m, hm, hfits, hb⟩

end Unions

/-! ## Which values fit -/

section Fits

variable {c : Codec α} {P : α → Prop}

theorem fits_bytes {kind : String} {max : Nat} (hmax : max < UInt32.size) {bs : Bytes} :
    (Codec.bytes kind max).Fits bs ↔ bs.length ≤ max :=
  and_iff_left_of_imp fun h => Nat.lt_of_le_of_lt h hmax

theorem fits_option (hP : ∀ a, c.Fits a ↔ P a) {o : Option α} :
    (Codec.option c).Fits o ↔ ∀ a ∈ o, P a :=
  forall_congr' fun a => imp_congr Iff.rfl (hP a)

theorem fits_array {kind : String} {max : Nat} (hmax : max < UInt32.size)
    (hP : ∀ a, c.Fits a ↔ P a) {as : List α} :
    (Codec.array kind max c).Fits as ↔ as.length ≤ max ∧ ∀ a ∈ as, P a := by
  refine and_congr_right fun hle => ?_
  rw [and_iff_right (Nat.lt_of_le_of_lt hle hmax)]
  exact forall₂_congr fun a _ => hP a

theorem fits_unbounded {kind : String} (hP : ∀ a, c.Fits a ↔ P a) {as : List α} :
    (Codec.array kind unbounded c).Fits as ↔ as.length < UInt32.size ∧ ∀ a ∈ as, P a := by
  rw [fits_array (by decide) hP]
  refine and_congr_left fun _ => ?_
  unfold unbounded UInt32.size
  omega

/-- A value of an arm fits if what it is made of does. -/
theorem fits_some {a : α} : (∃ a', some a = some a' ∧ P a') ↔ P a := by
  simp

theorem not_fits_arm {build : α → β} {view : β → Option α} {b : β} (h : view b = none) :
    ¬(c.arm build view).Fits b := by
  intro hfits
  obtain ⟨a, hsome, -⟩ := hfits
  rw [h] at hsome
  exact nomatch hsome

theorem fits_tagged {tag : β → Int32} {arms : Int32 → Codec β} {b : β} :
    (tagged tag arms).Fits b ↔ (arms (tag b)).Fits b := Iff.rfl

end Fits

/-! ## Whole records -/

theorem Lawful.decode_eq_ok {c : Codec α} (hc : c.Lawful) {bs : Bytes} {a : α} :
    c.decode bs = .ok a ↔ c.Fits a ∧ bs = c.write a := by
  unfold decode
  rw [Reader.decode_eq_ok]
  constructor
  · intro h
    obtain ⟨cur, hread, hrest⟩ := h
    obtain ⟨hfits, hbs, -⟩ := (hc _ _ _).mp hread
    rw [hrest, List.append_nil] at hbs
    exact ⟨hfits, hbs⟩
  · intro h
    obtain ⟨hfits, rfl⟩ := h
    refine ⟨⟨[], (c.write a).length⟩, (hc _ _ _).mpr ⟨hfits, ?_, ?_⟩, rfl⟩
    · exact (List.append_nil _).symm
    · exact (Nat.zero_add _).symm

/-- Decoding is one to one between the byte strings it accepts and the values `W` holds of. -/
structure Bijective (c : Codec α) (W : α → Prop) : Prop where
  wellFormed : ∀ bs a, c.decode bs = .ok a → W a
  injective : ∀ bs bs' a, c.decode bs = .ok a → c.decode bs' = .ok a → bs = bs'
  exists_bytes : ∀ a, W a → ∃ bs, c.decode bs = .ok a

theorem Lawful.bijective {c : Codec α} (hc : c.Lawful) {W : α → Prop} (hW : ∀ a, c.Fits a ↔ W a) :
    c.Bijective W where
  wellFormed bs a h := (hW a).mp (hc.decode_eq_ok.mp h).1
  injective bs bs' a h h' := by
    rw [(hc.decode_eq_ok.mp h).2, (hc.decode_eq_ok.mp h').2]
  exists_bytes a h := ⟨c.write a, hc.decode_eq_ok.mpr ⟨(hW a).mpr h, rfl⟩⟩

end LedgerSearch.Wire.Codec
