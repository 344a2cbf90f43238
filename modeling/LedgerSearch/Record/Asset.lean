import LedgerSearch.Number.Binary64
import LedgerSearch.Record.Account
import LedgerSearch.Text.Utf8

/-
  Assets and prices.
-/

namespace LedgerSearch

open Wire

/-- The code of an asset, of up to four or up to twelve bytes, filled up with zeros. -/
inductive AssetCode where
  | alphanum4 (code : Block 4)
  | alphanum12 (code : Block 12)
deriving DecidableEq

namespace AssetCode

/-- The bytes of the code, with the zeros that pad it. -/
def raw : AssetCode → Bytes
  | .alphanum4 code => code.bytes
  | .alphanum12 code => code.bytes

/-- The code up to its first zero byte. -/
def text (c : AssetCode) : String := Text.Utf8.decodeLossy (c.raw.takeWhile (· ≠ 0))

/-- The name of the kind of a code, by its width. -/
def typeName : AssetCode → String
  | .alphanum4 _ => "credit_alphanum4"
  | .alphanum12 _ => "credit_alphanum12"

/-- The number of the kind in the record. -/
def tag : AssetCode → Int32
  | .alphanum4 _ => 1
  | .alphanum12 _ => 2

/-- The short form. -/
def arm4 : Codec AssetCode :=
  (Codec.block 4).arm .alphanum4 fun | .alphanum4 code => some code | _ => none

/-- The long form. -/
def arm12 : Codec AssetCode :=
  (Codec.block 12).arm .alphanum12 fun | .alphanum12 code => some code | _ => none

/-- A code by itself; the native asset has none. -/
def codec : Codec AssetCode :=
  Codec.tagged tag fun t =>
    match t.toInt with
    | 1 => arm4
    | 2 => arm12
    | _ => .unknown "AssetCode" t

end AssetCode

/-- The native asset, or a code together with the account that issues it. -/
inductive Asset where
  | native
  | credit (code : AssetCode) (issuer : AccountId)
deriving DecidableEq

namespace Asset

/-- The code as text; the native asset goes by its name. -/
def code : Asset → String
  | .native => "native"
  | .credit code _ => code.text

/-- The account that issues the asset; the native one has no issuer. -/
def issuer? : Asset → Option AccountId
  | .native => none
  | .credit _ issuer => some issuer

/-- The name of the kind of the asset. -/
def typeName : Asset → String
  | .native => "native"
  | .credit code _ => code.typeName

/-- `code-issuer`, or `native`: one word for the asset. -/
def key : Asset → String
  | .native => "native"
  | .credit code issuer => code.text ++ "-" ++ issuer.text

/-- The number of the kind in the record, where the native asset comes first. -/
def tag : Asset → Int32
  | .native => 0
  | .credit code _ => code.tag

/-- An issued asset: its code, then the account. -/
def creditArm (code : Codec AssetCode) : Codec Asset :=
  (code.pair AccountId.codec).arm (fun (code, issuer) => .credit code issuer) fun
    | .credit code issuer => some (code, issuer)
    | .native => none

/-- An asset of one of its three kinds. -/
def codec : Codec Asset :=
  Codec.tagged tag fun t =>
    match t.toInt with
    | 0 => .only .native
    | 1 => creditArm AssetCode.arm4
    | 2 => creditArm AssetCode.arm12
    | _ => .unknown "AssetType" t

end Asset

/-- A price as a ratio. -/
structure Price where
  n : Int32
  d : Int32
deriving DecidableEq

namespace Price

/-- The ratio as the nearest number; zero over a zero denominator. -/
def toBinary64 (p : Price) : Number.Binary64 :=
  if p.d = 0 then .zero
  else .ofRatio (xor (decide (p.n < 0)) (decide (p.d < 0))) p.n.toInt.natAbs p.d.toInt.natAbs

/-- The numerator, then the denominator. -/
def codec : Codec Price :=
  (Codec.int32.pair Codec.int32).imap (fun (n, d) => ⟨n, d⟩) fun p => (p.n, p.d)

end Price

end LedgerSearch
