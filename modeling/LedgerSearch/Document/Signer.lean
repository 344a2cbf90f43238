import LedgerSearch.Document.Operation

/-
  Signer history: a signer added, weighed anew or removed by an operation.
-/

namespace LedgerSearch

/-- A signer that an operation set, also one of weight zero, which removes it. -/
structure SignerDoc where
  token : Token
  account : AccountId
  signer : Signer
  seq : UInt32
  txOrder : UInt8
  opOrder : UInt8
  closeTime : CloseTime
deriving DecidableEq

namespace SignerDoc

/-- The account is the operation's source, not its transaction's. -/
def ofSigner (op : OperationDoc) (signer : Signer) : SignerDoc where
  token := ((Token.ofIndex 1).merge (.ofGroup .signer)).merge op.token
  account := op.source
  signer
  seq := op.seq
  txOrder := op.txOrder
  opOrder := op.order
  closeTime := op.closeTime

/-- The change an operation makes to the signers of its source, if it makes one. -/
def ofOperation? (op : OperationDoc) : Option SignerDoc :=
  match op.body with
  | .setOptions o => o.signer.map (ofSigner op)
  | _ => none

def toJson (d : SignerDoc) : Json :=
  .object [
    ("paging_token", d.token.toJson),
    ("account_id", .account d.account),
    ("signer", .string d.signer.key.text),
    ("type", .string d.signer.key.typeName),
    ("weight", .uint32 d.signer.weight),
    ("seq", .uint32 d.seq),
    ("tx_index", .nat d.txOrder.toNat),
    ("op_index", .nat d.opOrder.toNat),
    ("created_at", .time d.closeTime)]

end SignerDoc

end LedgerSearch
