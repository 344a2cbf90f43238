/-
  The seven indexes documents are written to.
-/

namespace LedgerSearch

/-- The seven indexes, one for each kind of document. -/
inductive IndexName where
  | ledger
  | transaction
  | operation
  | balance
  | trade
  | offer
  | signerHistory
deriving DecidableEq

namespace IndexName

/-- The indexes in the order they are made, counted and listed in. -/
def all : List IndexName :=
  [.ledger, .transaction, .operation, .balance, .trade, .offer, .signerHistory]

/-- The name of the index in requests. -/
def text : IndexName → String
  | .ledger => "ledger"
  | .transaction => "tx"
  | .operation => "op"
  | .balance => "balance"
  | .trade => "trade"
  | .offer => "offer"
  | .signerHistory => "signer_history"

/-- The name under which reports list the index. -/
def label : IndexName → String
  | .transaction => "transaction"
  | .operation => "operation"
  | n => n.text

/-- The name with what the deployment puts in front of all its indexes. -/
def qualified (deployment : String) (n : IndexName) : String := deployment ++ n.text

end IndexName

end LedgerSearch
