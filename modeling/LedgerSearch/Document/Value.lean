import LedgerSearch.CloseTime
import LedgerSearch.Json.Basic
import LedgerSearch.Record.Asset
import LedgerSearch.Record.Transaction
import LedgerSearch.Text.Base64
import LedgerSearch.Text.Hex

/-
  Values inside documents: amounts with seven decimals, assets, prices, memos and times.
-/

namespace LedgerSearch

/-- `n` · 10 ^ -7 with exactly seven decimals; a sign only where the number is negative. -/
def sevenDecimals (n : Int) : String :=
  let ds := CloseTime.padded 8 n.natAbs
  let whole := ds.length - 7
  let body := ds.take whole ++ '.' :: ds.drop whole
  String.ofList (if n < 0 then '-' :: body else body)

/-- The text of an amount, counted in units of 10 ^ -7. -/
def amountText (n : Int64) : String := sevenDecimals n.toInt

/-- The integer nearest to `num / den`, a half going away from zero. -/
def roundHalfAway (num den : Int) : Int :=
  let n := (2 * num.natAbs + den.natAbs) / (2 * den.natAbs)
  if (num < 0) = (den < 0) then n else -(n : Int)

/-- The price `sold / bought` with seven decimals; `0.0` where nothing was bought. -/
def tradePrice (sold bought : Int64) : String :=
  if bought = 0 then "0.0"
  else sevenDecimals (roundHalfAway (sold.toInt * 10000000) bought.toInt)

namespace Json

/-- An amount is shown in whole units with seven decimals. -/
def amount (n : Int64) : Json := .string (amountText n)

/-- A time is shown as its calendar date. -/
def time (t : CloseTime) : Json := .string t.text

/-- A hash is shown in hexadecimal. -/
def hash (h : Hash) : Json := .string (Text.Hex.encode h.bytes)

/-- An account is shown by its address. -/
def account (a : AccountId) : Json := .string a.text

/-- An asset by its parts and by the key that holds them all; the native asset has no issuer. -/
def asset (a : Asset) : Json :=
  .object <| [("type", .string a.typeName), ("code", .string a.code)] ++
    (match a.issuer? with
      | some issuer => [("issuer", account issuer)]
      | none => []) ++
    [("key", .string a.key)]

/-- A price as its two numbers. -/
def ratio (p : Price) : Json := .object [("n", int32 p.n), ("d", int32 p.d)]

/-- A price as one number. -/
def quotient (p : Price) : Json := float p.toBinary64

/-- A field, where there is a value for it. -/
def field? (name : String) (j : Option Json) : List (String × Json) :=
  match j with
  | some j => [(name, j)]
  | none => []

end Json

/-- The type and text of a memo, if there is one. -/
def Memo.toJson? (m : Memo) : Option Json :=
  let doc (type value : String) : Option Json :=
    some (.object [("type", .string type), ("value", .string value)])
  match m with
  | .none => Option.none
  | .text bytes => doc "text" (Text.Utf8.decodeLossy bytes)
  | .id n => doc "id" (toString n.toNat)
  | .hash h => doc "hash" (Text.Base64.encode h.bytes)
  | .returnHash h => doc "return" (Text.Base64.encode h.bytes)

end LedgerSearch
