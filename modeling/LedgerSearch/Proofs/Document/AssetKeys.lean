import Mathlib
import LedgerSearch.Memory.Sample
import LedgerSearch.Proofs.Record.PrintedKeys
import LedgerSearch.Proofs.Serialize.LedgerDemands

/-
  Assets in documents. The word that stands for an asset in a document is read from the back: an
  issuer of 56 symbols, a hyphen, and the code. So it names one valid asset only
  (`Asset.key_eq_iff`). The documents of an allow-trust and of the change of trust that it answers
  show the same asset, though one knows it by its code alone.
-/

namespace LedgerSearch

/-! ## Codes -/

namespace Text.Utf8

/-- ASCII bytes as characters. -/
def ascii (bs : Bytes) : List Char := bs.map fun b => Char.ofNat b.toNat

theorem decodeFrom_ascii {bs : Bytes} (h : ∀ b ∈ bs, b.toNat < 128) :
    decodeFrom .between bs = ascii bs := by
  induction bs with
  | nil => rfl
  | cons b rest ih =>
    have hb : b.toNat < 0x80 := h b List.mem_cons_self
    rw [decodeFrom, step, start, if_pos hb]
    exact congrArg _ (ih fun b hb => h b (List.mem_cons_of_mem _ hb))

theorem ascii_injective {as bs : Bytes} (ha : ∀ b ∈ as, b.toNat < 128)
    (hb : ∀ b ∈ bs, b.toNat < 128) (h : ascii as = ascii bs) : as = bs := by
  have back (bs : Bytes) (hbs : ∀ b ∈ bs, b.toNat < 128) :
      (ascii bs).map (fun c => UInt8.ofNat c.toNat) = bs := by
    unfold ascii
    rw [List.map_map]
    refine (List.map_congr_left fun b hmem => ?_).trans (List.map_id bs)
    have hlt := hbs b hmem
    show UInt8.ofNat (Char.ofNat b.toNat).toNat = b
    rw [Char.toNat_ofNat, if_pos (Or.inl (by omega)), UInt8.ofNat_toNat]
  rw [← back as ha, h, back bs hb]

end Text.Utf8

/-- A digit or a letter of ASCII. -/
def IsAlphanumeric (b : UInt8) : Prop :=
  (48 ≤ b.toNat ∧ b.toNat ≤ 57) ∨ (65 ≤ b.toNat ∧ b.toNat ≤ 90) ∨ (97 ≤ b.toNat ∧ b.toNat ≤ 122)

/-- A code of at least `least` digits and letters, filled up with zeros. -/
structure Filled (least : ℕ) (bs code : Bytes) (zeros : ℕ) : Prop where
  bytes_eq : bs = code ++ List.replicate zeros 0
  least_le : least ≤ code.length
  alphanumeric : ∀ b ∈ code, IsAlphanumeric b

namespace Filled

variable {least zeros : ℕ} {bs code : Bytes}

theorem lt (h : Filled least bs code zeros) : ∀ b ∈ code, b.toNat < 128 := by
  intro b hb
  rcases h.alphanumeric b hb with hb | hb | hb <;> omega

theorem takeWhile_eq (h : Filled least bs code zeros) : bs.takeWhile (· ≠ 0) = code := by
  have hne : ∀ b ∈ code, decide (b ≠ 0) = true := by
    intro b hb
    rw [decide_eq_true_eq]
    rintro rfl
    rcases h.alphanumeric 0 hb with h0 | h0 | h0 <;> exact absurd h0.1 (by decide)
  rw [h.bytes_eq, List.takeWhile_append_of_pos hne]
  cases zeros with
  | zero => exact List.append_nil code
  | succ n => exact List.append_nil code

theorem length_eq (h : Filled least bs code zeros) : bs.length = code.length + zeros := by
  rw [h.bytes_eq, List.length_append, List.length_replicate]

end Filled

namespace AssetCode

/-- How many digits and letters a code has at least: a long one has too many for a short one. -/
def leastLength : AssetCode → ℕ
  | .alphanum4 _ => 1
  | .alphanum12 _ => 5

/-- A code in use: one to four digits and letters, or five to twelve, and zeros after them. -/
def Valid (c : AssetCode) : Prop := ∃ code zeros, Filled c.leastLength c.raw code zeros

theorem lengths (c : AssetCode) :
    c.leastLength = 1 ∧ c.raw.length = 4 ∨ c.leastLength = 5 ∧ c.raw.length = 12 := by
  cases c with
  | alphanum4 raw => exact .inl ⟨rfl, raw.length_bytes⟩
  | alphanum12 raw => exact .inr ⟨rfl, raw.length_bytes⟩

theorem raw_injective : Function.Injective raw := by
  intro c c' h
  have hlength := congrArg List.length h
  cases c with
  | alphanum4 code =>
    cases c' with
    | alphanum4 code' =>
      exact congrArg _ (Block.eq_of_bytes_eq h)
    | alphanum12 code' =>
      rw [raw, raw, code.length_bytes, code'.length_bytes] at hlength
      exact absurd hlength (by decide)
  | alphanum12 code =>
    cases c' with
    | alphanum4 code' =>
      rw [raw, raw, code.length_bytes, code'.length_bytes] at hlength
      exact absurd hlength (by decide)
    | alphanum12 code' =>
      exact congrArg _ (Block.eq_of_bytes_eq h)

theorem toList_text {c : AssetCode} {least zeros : ℕ} {code : Bytes}
    (h : Filled least c.raw code zeros) : c.text.toList = Text.Utf8.ascii code := by
  unfold text Text.Utf8.decodeLossy
  rw [String.toList_ofList, h.takeWhile_eq, Text.Utf8.decodeFrom_ascii h.lt]

/-- The text of a code in use tells its digits and letters, and their number whether it is a short
    code or a long one. -/
theorem text_injective {c c' : AssetCode} (hc : c.Valid) (hc' : c'.Valid)
    (h : c.text = c'.text) : c = c' := by
  obtain ⟨code, zeros, hf⟩ := hc
  obtain ⟨code', zeros', hf'⟩ := hc'
  obtain rfl : code = code' := by
    refine Text.Utf8.ascii_injective hf.lt hf'.lt ?_
    rw [← toList_text hf, h, toList_text hf']
  have hzeros : zeros = zeros' := by
    have := hf.length_eq
    have := hf'.length_eq
    have := hf.least_le
    have := hf'.least_le
    have := c.lengths
    have := c'.lengths
    omega
  apply raw_injective
  rw [hf.bytes_eq, hf'.bytes_eq, hzeros]

end AssetCode

/-! ## Keys -/

namespace Asset

/-- The native asset, or one with a code in use. -/
def Valid : Asset → Prop
  | .native => True
  | .credit code _ => code.Valid

theorem toList_key (code : AssetCode) (issuer : AccountId) :
    (Asset.credit code issuer).key.toList = code.text.toList ++ '-' :: issuer.text.toList := by
  unfold key
  rw [String.toList_append, String.toList_append, List.append_assoc]
  rfl

theorem key_ne_native (code : AssetCode) (issuer : AccountId) :
    (Asset.credit code issuer).key ≠ Asset.native.key := by
  intro h
  have hnative : Asset.native.key.toList.length = 6 := by decide
  rw [← h, toList_key, List.length_append, List.length_cons, issuer.length_text] at hnative
  omega

theorem key_eq_iff {a b : Asset} (ha : a.Valid) (hb : b.Valid) : a.key = b.key ↔ a = b := by
  refine ⟨fun h => ?_, fun h => h ▸ rfl⟩
  cases a with
  | native =>
    cases b with
    | native => rfl
    | credit code issuer => exact absurd h.symm (key_ne_native code issuer)
  | credit code issuer =>
    cases b with
    | native => exact absurd h (key_ne_native code issuer)
    | credit code' issuer' =>
      have hlist := congrArg String.toList h
      rw [toList_key, toList_key] at hlist
      obtain ⟨hcode, htail⟩ := List.append_inj' hlist
        (by rw [List.length_cons, List.length_cons, issuer.length_text, issuer'.length_text])
      have hissuer := AccountId.text_injective (String.toList_inj.mp (List.cons.inj htail).2)
      rw [AssetCode.text_injective ha hb (String.toList_inj.mp hcode), hissuer]

end Asset

/-! ## Trust -/

namespace Json

/-- The values of all fields of that name. -/
def valuesOf (name : String) (fields : List (String × Json)) : List Json :=
  (fields.filter (·.1 = name)).map (·.2)

theorem valuesOf_append (name : String) (fields fields' : List (String × Json)) :
    valuesOf name (fields ++ fields') = valuesOf name fields ++ valuesOf name fields' := by
  unfold valuesOf
  rw [List.filter_append, List.map_append]

theorem valuesOf_eq_nil {name : String} {fields : List (String × Json)}
    (h : ∀ f ∈ fields, f.1 ≠ name) : valuesOf name fields = [] := by
  unfold valuesOf
  rw [List.filter_eq_nil_iff.mpr fun f hf => by simpa using h f hf, List.map_nil]

/-- The fields that tell of trust. -/
def trustNames : List String := ["trustor", "trustee", "asset"]

/-- None of the fields tells of trust. -/
def Silent (fields : List (String × Json)) : Prop := ∀ f ∈ fields, f.1 ∉ trustNames

theorem silent_nil : Silent [] := fun _ hf => nomatch hf

theorem silent_cons {name : String} {j : Json} {fields : List (String × Json)}
    (hname : name ∉ trustNames) (h : Silent fields) : Silent ((name, j) :: fields) := by
  intro f hf
  rcases List.mem_cons.mp hf with rfl | hf
  · exact hname
  · exact h f hf

theorem Silent.append {fields fields' : List (String × Json)} (h : Silent fields)
    (h' : Silent fields') : Silent (fields ++ fields') := by
  intro f hf
  rcases List.mem_append.mp hf with hf | hf
  · exact h f hf
  · exact h' f hf

theorem silent_field? {name : String} (hname : name ∉ trustNames) (j : Option Json) :
    Silent (field? name j) := by
  cases j with
  | none => exact silent_nil
  | some j => exact silent_cons hname silent_nil

theorem silent_effectFields (e : OfferEffect) : Silent (effectFields e) := by
  cases e <;> simp [Silent, trustNames, effectFields]

theorem silent_lastFields (p : SimplePayment) : Silent (lastFields p) := by
  simp [Silent, trustNames, lastFields]

/-- What the result adds to a document says nothing of trust. -/
theorem silent_outcomeFields (o : OperationOutcome) : Silent (outcomeFields o) := by
  unfold outcomeFields
  repeat' apply Silent.append
  · exact silent_cons (by decide) (silent_field? (by decide) _)
  · exact silent_field? (by decide) _
  · exact silent_field? (by decide) _
  · cases o.effect with
    | none => exact silent_nil
    | some e => exact silent_effectFields e
  · cases o.last with
    | none => exact silent_nil
    | some p => exact silent_lastFields p
  · exact silent_field? (by decide) _
  · exact silent_field? (by decide) _
  · exact silent_field? (by decide) _

end Json

namespace OperationDoc

/-- The fields that the documents of all operations begin with. -/
def commonFields (doc : OperationDoc) : List (String × Json) := [
  ("tx_id", .hash doc.txId),
  ("tx_index", .nat doc.txOrder.toNat),
  ("seq", .uint32 doc.seq),
  ("close_time", .time doc.closeTime),
  ("tx_source_account", .account doc.txSource)] ++
  Json.field? "memo" doc.memo.toJson? ++ [
  ("paging_token", doc.token.toJson),
  ("index", .nat doc.order.toNat),
  ("type", .string doc.kind.name),
  ("source_account", .account doc.source)]

theorem asObject?_toJson (doc : OperationDoc) : doc.toJson.asObject? =
    some (doc.commonFields ++ Json.bodyFields doc.source doc.body ++
      Json.outcomeFields doc.outcome) := rfl

theorem silent_commonFields (doc : OperationDoc) : Json.Silent doc.commonFields := by
  unfold commonFields
  refine (Json.Silent.append ?_ (Json.silent_field? (by decide) _)).append ?_
  · simp [Json.Silent, Json.trustNames]
  · simp [Json.Silent, Json.trustNames]

/-- What a document tells of trust stands among the fields of its kind. -/
theorem valuesOf_toJson {name : String} (h : name ∈ Json.trustNames) (doc : OperationDoc) :
    doc.toJson.asObject?.map (Json.valuesOf name) =
      some (Json.valuesOf name (Json.bodyFields doc.source doc.body)) := by
  have silent {fields : List (String × Json)} (hs : Json.Silent fields) :
      Json.valuesOf name fields = [] :=
    Json.valuesOf_eq_nil fun f hf he => hs f hf (he ▸ h)
  rw [asObject?_toJson, Option.map_some, Json.valuesOf_append, Json.valuesOf_append,
    silent doc.silent_commonFields, silent (Json.silent_outcomeFields _), List.nil_append,
    List.append_nil]

/-- The document says who trusts whom and with which asset, each of them once. -/
structure Trusts (doc : OperationDoc) (trustor trustee : AccountId) (asset : Asset) : Prop where
  trustor : doc.toJson.asObject?.map (Json.valuesOf "trustor") = some [.account trustor]
  trustee : doc.toJson.asObject?.map (Json.valuesOf "trustee") = some [.account trustee]
  asset : doc.toJson.asObject?.map (Json.valuesOf "asset") = some [.asset asset]

theorem trusts_of_allowTrust {doc : OperationDoc} {trustor : AccountId} {code : AssetCode}
    {authorize : UInt32} (h : doc.body = .allowTrust trustor code authorize) :
    doc.Trusts trustor doc.source (.credit code doc.source) := by
  constructor
  all_goals
    rw [valuesOf_toJson (by decide), h]
    rfl

theorem trusts_of_changeTrust {doc : OperationDoc} {code : AssetCode} {issuer : AccountId}
    {limit : Int64} (h : doc.body = .changeTrust (.credit code issuer) limit) :
    doc.Trusts doc.source issuer (.credit code issuer) := by
  constructor
  all_goals
    rw [valuesOf_toJson (by decide), h]
    rfl

end OperationDoc

/-- The account that an operation acts for: its own source, or that of its transaction. -/
def Operation.actor (op : Operation) (tx : TransactionDoc) : AccountId :=
  (op.source.map (·.account)).getD tx.account

theorem OperationDoc.exists_ofOperation (tx : TransactionDoc) (op : Operation)
    (r : Option OperationResult) {position : ℕ} (h : position < 255) :
    ∃ doc, ofOperation tx op r position = .ok doc ∧ doc.source = op.actor tx ∧
      doc.body = op.body := by
  have hmeets := meets_orderOfPosition "operation_order" (show position < 256 by omega)
  obtain ⟨order, horder⟩ := hmeets.exists_ok fun d hd => by
    obtain rfl := List.mem_singleton.mp hd
    show position + 1 ≤ 255
    omega
  unfold ofOperation
  rw [horder]
  exact ⟨_, rfl, rfl, rfl⟩

theorem Json.get?_key_asset (a : Asset) : (asset a).get? "key" = some (.string a.key) := by
  cases a <;> rfl

/-- An allow-trust, and the change of trust of the account it names, in the asset of that code and
    issuer, have documents that tell the same: who trusts, who is trusted, and the asset, as it is
    shown everywhere. Its key stands for this asset alone: the keys of two assets, native or with a
    code in use, are equal exactly if the assets are. -/
theorem trust_told_alike :
    (∀ (code : AssetCode) (issuer trustor : AccountId) (allow change : Operation)
      (authorize : UInt32) (limit : Int64) (tx tx' : TransactionDoc)
      (r r' : Option OperationResult) (p p' : ℕ),
      allow.body = .allowTrust trustor code authorize → allow.actor tx = issuer →
      change.body = .changeTrust (.credit code issuer) limit → change.actor tx' = trustor →
      p < 255 → p' < 255 →
        ∃ allowed changed : OperationDoc, OperationDoc.ofOperation tx allow r p = .ok allowed ∧
          OperationDoc.ofOperation tx' change r' p' = .ok changed ∧
          allowed.Trusts trustor issuer (.credit code issuer) ∧
          changed.Trusts trustor issuer (.credit code issuer)) ∧
    ∀ a b : Asset, a.Valid → b.Valid →
      ((Json.asset a).get? "key" = (Json.asset b).get? "key" ↔ a = b) := by
  constructor
  · intro code issuer trustor allow change authorize limit tx tx' r r' p p' hallow hissuer hchange
      htrustor hp hp'
    obtain ⟨allowed, hallowed, hsource, hbody⟩ := OperationDoc.exists_ofOperation tx allow r hp
    obtain ⟨changed, hchanged, hsource', hbody'⟩ :=
      OperationDoc.exists_ofOperation tx' change r' hp'
    have hallows := OperationDoc.trusts_of_allowTrust (hbody.trans hallow)
    have hchanges := OperationDoc.trusts_of_changeTrust (hbody'.trans hchange)
    rw [hsource, hissuer] at hallows
    rw [hsource', htrustor] at hchanges
    exact ⟨allowed, changed, hallowed, hchanged, hallows, hchanges⟩
  · intro a b ha hb
    rw [Json.get?_key_asset, Json.get?_key_asset, Option.some.injEq, Json.string.injEq]
    exact Asset.key_eq_iff ha hb

/-- A code of three letters. -/
def usd : AssetCode := .alphanum4 (Block.ofBytes 4 [85, 83, 68])

/-- A code of five letters, which starts as the other does. -/
def usdol : AssetCode := .alphanum12 (Block.ofBytes 12 [85, 83, 68, 79, 76])

theorem valid_usd : usd.Valid := ⟨[85, 83, 68], 1, rfl, by decide, by simp [IsAlphanumeric]⟩

theorem valid_usdol : usdol.Valid :=
  ⟨[85, 83, 68, 79, 76], 7, rfl, by decide, by simp [IsAlphanumeric]⟩

open Memory.Sample in
/-- Alice allows Bob her dollars, in a transaction of her own; Bob trusts them in another. -/
theorem trust_told_alike_usd :
    (∃ allowed changed : OperationDoc,
      OperationDoc.ofOperation (.ofRow (transactionRow 7 1) 1 ⟨0, Nat.zero_le _⟩)
        ⟨none, .allowTrust ⟨bob⟩ usd 1⟩ none 0 = .ok allowed ∧
      OperationDoc.ofOperation (.ofRow (transactionRow 8 1) 1 ⟨0, Nat.zero_le _⟩)
        ⟨some ⟨bob, some 3⟩, .changeTrust (.credit usd ⟨alice⟩) 50⟩ none 2 = .ok changed ∧
      allowed.Trusts ⟨bob⟩ ⟨alice⟩ (.credit usd ⟨alice⟩) ∧
      changed.Trusts ⟨bob⟩ ⟨alice⟩ (.credit usd ⟨alice⟩)) ∧
    usd.Valid ∧ usdol.Valid ∧
    (Json.asset (.credit usd ⟨alice⟩)).get? "key" ≠
      (Json.asset (.credit usdol ⟨alice⟩)).get? "key" := by
  refine ⟨trust_told_alike.1 usd ⟨alice⟩ ⟨bob⟩ _ _ 1 50 _ _ none none 0 2 rfl rfl rfl rfl
    (by decide) (by decide), valid_usd, valid_usdol, fun h => ?_⟩
  have hsame := (trust_told_alike.2 (.credit usd ⟨alice⟩) (.credit usdol ⟨alice⟩) valid_usd
    valid_usdol).mp h
  exact absurd (Asset.credit.inj hsame).1 (by decide)

end LedgerSearch
