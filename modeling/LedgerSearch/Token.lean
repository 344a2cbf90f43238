import LedgerSearch.Failure
import LedgerSearch.Json.Parser
import LedgerSearch.Text.Numeral

/-
  Paging tokens: the place of a document in ledger history, packed into one 64-bit number that is
  the document's id and sort key. A field is zero where the place has no such part.
-/

namespace LedgerSearch

/-- Where a document stands in the history: the ledger, then ever finer places inside it. -/
structure Token where
  ledger : UInt32 := 0
  transaction : UInt8 := 0
  operation : UInt8 := 0
  group : UInt8 := 0
  index : UInt8 := 0
deriving DecidableEq

/-- The kinds of effect an operation or transaction can have; each numbers its own effects. -/
inductive EffectGroup where
  | fee
  | offer
  | balance
  | trade
  | signer
deriving DecidableEq

/-- The groups in the order their documents follow each other in. -/
def EffectGroup.number : EffectGroup → UInt8
  | .fee => 1
  | .offer => 2
  | .balance => 3
  | .trade => 4
  | .signer => 5

namespace Token

/-- The ledger's own document stands before all that happened in it. -/
def ofLedger (seq : UInt32) : Token := { ledger := seq }

/-- The transaction's own document stands before those of its operations. -/
def ofTransaction (seq : UInt32) (order : UInt8) : Token := { ledger := seq, transaction := order }

/-- The operation's own document stands before those of its effects. -/
def ofOperation (seq : UInt32) (tx op : UInt8) : Token :=
  { ledger := seq, transaction := tx, operation := op }

/-- A token with a group alone, to be merged onto a place. -/
def ofGroup (g : EffectGroup) : Token := { group := g.number }

/-- A token with an effect index alone, to be merged onto a place. -/
def ofIndex (i : UInt8) : Token := { index := i }

/-- The fields side by side, the ledger highest. -/
def pack (t : Token) : UInt64 :=
  UInt64.ofNat ((((t.ledger.toNat * 256 + t.transaction.toNat) * 256 + t.operation.toNat) * 256 +
    t.group.toNat) * 256 + t.index.toNat)

/-- The fields of a packed token, cut at their widths. -/
def unpack (v : UInt64) : Token where
  ledger := UInt32.ofNat (v.toNat / 0x100000000)
  transaction := UInt8.ofNat (v.toNat / 0x1000000)
  operation := UInt8.ofNat (v.toNat / 0x10000)
  group := UInt8.ofNat (v.toNat / 0x100)
  index := UInt8.ofNat v.toNat

/-- `own` where it is not zero, `base` where it is. -/
def pick {n : Type} [DecidableEq n] [OfNat n 0] (own base : n) : n :=
  if own = 0 then base else own

/-- Each field of `t` that is not zero, over the fields of `base`. -/
def merge (t base : Token) : Token where
  ledger := pick t.ledger base.ledger
  transaction := pick t.transaction base.transaction
  operation := pick t.operation base.operation
  group := pick t.group base.group
  index := pick t.index base.index

/-- The order of the fields, ledger first. -/
def compare (s t : Token) : Ordering :=
  (Ord.compare s.ledger t.ledger).then <| (Ord.compare s.transaction t.transaction).then <|
    (Ord.compare s.operation t.operation).then <| (Ord.compare s.group t.group).then <|
      Ord.compare s.index t.index

/-- The packed token as a decimal numeral: the id of its document. -/
def text (t : Token) : String := toString t.pack.toNat

/-- A token is read from the decimal text of its packed value. -/
def parse (s : String) : Except Text.Numeral.Fault Token :=
  (Text.Numeral.parse UInt64.size s).map fun n => unpack (UInt64.ofNat n)

/-- As text: a packed token may pass the whole numbers a reader of JSON keeps exactly. -/
def toJson (t : Token) : Json := .string t.text

/-- A token from the text of a JSON string that holds its numeral. -/
def ofJsonText? (s : String) : Option Token := do
  let j ← Json.parse? s
  (parse (← j.asString?)).toOption

end Token

/-- The one-based order of a zero-based position, if it fits its field; positions are 64-bit. -/
def orderOfPosition (field : String) (position : Nat) : Outcome UInt8 := do
  let order ← checkedAdd UInt64.size position 1
  if order < 256 then pure (UInt8.ofNat order) else failWith (.orderingOverflow field order)

/-- The effect index after `last`, up to 255. -/
def nextEffectIndex (last : UInt8) : Outcome UInt8 :=
  if last = 255 then failWith (.orderingOverflow "effect_index" 256) else pure (last + 1)

end LedgerSearch
