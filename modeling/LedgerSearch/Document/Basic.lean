import LedgerSearch.Document.Balance
import LedgerSearch.Document.Ledger
import LedgerSearch.Document.Offer
import LedgerSearch.Document.Signer
import LedgerSearch.Document.Trade
import LedgerSearch.IndexName

/-
  The documents of a ledger, of seven kinds, each for an index of its own.
-/

namespace LedgerSearch

/-- A document of any of the indexes. -/
inductive Document where
  | ledger (d : LedgerDoc)
  | transaction (d : TransactionDoc)
  | operation (d : OperationDoc)
  | balance (d : BalanceDoc)
  | trade (d : TradeDoc)
  | offer (d : OfferEvent)
  | signer (d : SignerDoc)
deriving DecidableEq

namespace Document

/-- The kind of a document settles its index. -/
def index : Document → IndexName
  | .ledger _ => .ledger
  | .transaction _ => .transaction
  | .operation _ => .operation
  | .balance _ => .balance
  | .trade _ => .trade
  | .offer _ => .offer
  | .signer _ => .signerHistory

/-- The place of the document in history; its numeral is the document's id. -/
def token : Document → Token
  | .ledger d => d.token
  | .transaction d => d.token
  | .operation d => d.token
  | .balance d => d.token
  | .trade d => d.token
  | .offer d => d.token
  | .signer d => d.token

def toJson : Document → Json
  | .ledger d => d.toJson
  | .transaction d => d.toJson
  | .operation d => d.toJson
  | .balance d => d.toJson
  | .trade d => d.toJson
  | .offer d => d.toJson
  | .signer d => d.toJson

end Document

end LedgerSearch
