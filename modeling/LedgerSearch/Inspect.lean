import LedgerSearch.Document.Value
import LedgerSearch.LedgerClose

/-
  Records in full as JSON, for people to look at: accounts in their printed form, bytes in
  hexadecimal digits, 64-bit numbers as decimal texts.
-/

namespace LedgerSearch.Inspect

open Wire

/-- Bytes are shown in lower-case hexadecimal. -/
def hex (bs : Bytes) : Json := .string (Text.Hex.encode bs)

/-- A hash is shown as its 32 bytes. -/
def hash (h : Hash) : Json := hex h.bytes

/-- A 64-bit number is shown as text: a number of JSON may lose its last digits. -/
def signed (n : Int64) : Json := .string (toString n.toInt)

/-- The same of a number without sign. -/
def unsigned (n : UInt64) : Json := .string (toString n.toNat)

/-- What there is, or nothing. -/
def optional {α : Type} (render : α → Json) (a : Option α) : Json :=
  match a with
  | some a => render a
  | none => .null

/-- An account is shown by its address. -/
def account (a : AccountId) : Json := .string a.text

/-- The account behind an address, and the number muxed into it if there is one. -/
def muxed (m : MuxedAccount) : Json :=
  .object [("account", account m.account), ("id", optional unsigned m.id)]

/-- How wide the code of an issued asset is. -/
def codeKind : AssetCode → String
  | .alphanum4 _ => "alphanum4"
  | .alphanum12 _ => "alphanum12"

/-- The code with the zero bytes that pad it, and as text without them. -/
def assetCode (c : AssetCode) : Json :=
  .object [("kind", .string (codeKind c)), ("raw", hex c.raw), ("code", .string c.text)]

/-- The native asset has neither bytes of a code nor an issuer. -/
def asset (a : Asset) : Json :=
  match a with
  | .native =>
    .object [("kind", .string "native"), ("raw", .null), ("code", .string a.code), ("issuer", .null)]
  | .credit code issuer =>
    .object [("kind", .string (codeKind code)), ("raw", hex code.raw), ("code", .string a.code),
      ("issuer", account issuer)]

/-- A price as the fraction of the record and as the number its documents show. -/
def price (p : Price) : Json :=
  .object [("n", .int32 p.n), ("d", .int32 p.d), ("f64", .string (Json.quotient p).text)]

/-- A memo by its kind, its bytes uninterpreted. -/
def memo : Memo → Json
  | .none => .object [("kind", .string "none")]
  | .text bs => .object [("kind", .string "text"), ("value", hex bs)]
  | .id n => .object [("kind", .string "id"), ("value", unsigned n)]
  | .hash h => .object [("kind", .string "hash"), ("value", hash h)]
  | .returnHash h => .object [("kind", .string "return"), ("value", hash h)]

/-- The bounds of the time in which a transaction may be applied. -/
def timeBounds (b : TimeBounds) : Json := .object [("min", unsigned b.min), ("max", unsigned b.max)]

/-- What may sign, by its kind and its address. -/
def signerKeyFields (k : SignerKey) : List (String × Json) :=
  [("type", .string k.typeName), ("key", .string k.text)]

/-- What may sign, with its weight. -/
def signer (s : Signer) : Json := .object (signerKeyFields s.key ++ [("weight", .uint32 s.weight)])

/-- A signature and the last four bytes of the key it is said to be by. -/
def signature (s : Signature) : Json :=
  .object [("hint", hex s.hint.bytes), ("signature", hex s.signature)]

/-- What the network agreed on for the ledger, with the signature of the node that proposed it. -/
def closeValue (v : CloseValue) : Json :=
  .object [("tx_set_hash", hash v.txSetHash), ("close_time", unsigned v.closeTime),
    ("upgrades", .array (v.upgrades.map hex)),
    ("signature", optional (fun (node, s) => .object [("node", account node), ("signature", hex s)])
      v.signature)]

/-- All that a ledger header holds, in the order of the record. -/
def header (h : LedgerHeader) : Json :=
  let (a, b, c, d) := h.skipList
  .object [("ledger_version", .uint32 h.version), ("previous_ledger_hash", hash h.previousHash),
    ("scp_value", closeValue h.value), ("tx_set_result_hash", hash h.resultHash),
    ("bucket_list_hash", hash h.bucketHash), ("ledger_seq", .uint32 h.seq),
    ("total_coins", signed h.totalCoins), ("fee_pool", signed h.feePool),
    ("inflation_seq", .uint32 h.inflationSeq), ("id_pool", unsigned h.idPool),
    ("base_fee", .uint32 h.baseFee), ("base_reserve", .uint32 h.baseReserve),
    ("max_tx_set_size", .uint32 h.maxTxSetSize),
    ("skip_list", .array ([a, b, c, d].map hash)), ("flags", optional .uint32 h.flags)]

/-- A header under the hash it was recorded with. -/
def historyEntry (e : HistoryEntry) : Json :=
  .object [("hash", hash e.hash), ("header", header e.header)]

/-- The terms of an offer; the amount is named by the operation it stands in. -/
def offerTerms (amount : String) (t : OfferTerms) : List (String × Json) :=
  [("selling", asset t.selling), ("buying", asset t.buying), (amount, signed t.amount),
    ("price", price t.price)]

/-- A path payment fixes one of its two amounts and bounds the other; the names tell which. -/
def pathPayment (sent received : String) (p : PathPayment) : List (String × Json) :=
  [("send_asset", asset p.sendAsset), (sent, signed p.sendAmount),
    ("destination", muxed p.destination), ("dest_asset", asset p.receiveAsset),
    (received, signed p.receiveAmount), ("path", .array (p.path.map asset))]

/-- The fields of an operation, in the order of the record. -/
def bodyFields : OperationBody → List (String × Json)
  | .createAccount destination balance =>
    [("destination", account destination), ("starting_balance", signed balance)]
  | .payment destination a amount =>
    [("destination", muxed destination), ("asset", asset a), ("amount", signed amount)]
  | .pathPaymentStrictReceive p => pathPayment "send_max" "dest_amount" p
  | .pathPaymentStrictSend p => pathPayment "send_amount" "dest_min" p
  | .manageSellOffer t id => offerTerms "amount" t ++ [("offer_id", signed id)]
  | .manageBuyOffer t id => offerTerms "buy_amount" t ++ [("offer_id", signed id)]
  | .createPassiveSellOffer t => offerTerms "amount" t
  | .setOptions o =>
    [("inflation_dest", optional account o.inflationDest),
      ("clear_flags", optional .uint32 o.clearFlags), ("set_flags", optional .uint32 o.setFlags),
      ("master_weight", optional .uint32 o.masterWeight),
      ("low_threshold", optional .uint32 o.lowThreshold),
      ("med_threshold", optional .uint32 o.medThreshold),
      ("high_threshold", optional .uint32 o.highThreshold),
      ("home_domain", optional hex o.homeDomain), ("signer", optional signer o.signer)]
  | .changeTrust line limit => [("line", asset line), ("limit", signed limit)]
  | .allowTrust trustor code authorize =>
    [("trustor", account trustor), ("asset", assetCode code), ("authorize", .uint32 authorize)]
  | .accountMerge destination => [("destination", muxed destination)]
  | .inflation => []
  | .manageData name value => [("name", hex name), ("value", optional hex value)]
  | .bumpSequence bumpTo => [("bump_to", signed bumpTo)]

/-- An operation by its kind, and whether that kind can take offers of the book. -/
def operationBody (b : OperationBody) : Json :=
  .object [("type", .string b.kind.name), ("claims_offers", .bool b.kind.crossesOffers),
    ("fields", .object (bodyFields b))]

/-- An operation with its own source account, if it names one. -/
def operation (o : Operation) : Json :=
  .object [("source", optional muxed o.source), ("body", operationBody o.body)]

/-- All that a transaction holds, in the order of the record. -/
def transaction (t : Transaction) : Json :=
  .object [("source", muxed t.source), ("fee", .uint32 t.fee), ("seq_num", signed t.seqNum),
    ("time_bounds", optional timeBounds t.timeBounds), ("memo", memo t.memo),
    ("operations", .array (t.operations.map operation))]

/-- An envelope in each of its three forms, with what the later steps read of it. -/
def envelope (e : Envelope) : Json :=
  let info := .object [("source_account", account e.source), ("fee_account", account e.feeAccount),
    ("max_fee", signed e.maxFee), ("operations", .nat e.operations.length),
    ("is_fee_bump", .bool e.isFeeBump)]
  let signatures (ss : List Signature) : Json := .array (ss.map signature)
  let plain (kind : String) (t : Transaction) : Json :=
    .object [("kind", .string kind), ("tx", transaction t), ("signatures", signatures e.signatures),
      ("info", info)]
  match e.payload with
  | .legacy t => plain "tx_v0" t
  | .plain t => plain "tx" t
  | .feeBump b =>
    .object [("kind", .string "fee_bump"), ("fee_source", muxed b.feeSource), ("fee", signed b.fee),
      ("tx", transaction b.inner), ("inner_signatures", signatures b.innerSignatures),
      ("signatures", signatures e.signatures), ("info", info)]

/-- An offer taken from the book: what its seller gave and got. -/
def claimAtom (c : ClaimAtom) : Json :=
  .object [("seller", account c.seller), ("offer_id", signed c.offerId),
    ("asset_sold", asset c.soldAsset), ("amount_sold", signed c.soldAmount),
    ("asset_bought", asset c.boughtAsset), ("amount_bought", signed c.boughtAmount)]

/-- An offer as it stands in the book. -/
def offerEntry (e : OfferEntry) : Json :=
  .object ([("seller", account e.seller), ("offer_id", signed e.offerId)] ++
    offerTerms "amount" e.terms ++ [("flags", .uint32 e.flags)])

/-- The offers a path payment took and the payment at its end. -/
def pathPayload : PathPaymentResult → Json
  | .success offers last =>
    .object [("offers", .array (offers.map claimAtom)),
      ("last", .object [("destination", account last.destination), ("asset", asset last.asset),
        ("amount", signed last.amount)])]
  | .noIssuer a => .object [("no_issuer", asset a)]
  | .failure _ => .null

/-- The offers a new offer took and what became of itself. -/
def offerPayload : ManageOfferResult → Json
  | .success claimed effect =>
    let (name, offer) := match effect with
      | .created o => ("created", offerEntry o)
      | .updated o => ("updated", offerEntry o)
      | .deleted => ("deleted", .null)
    .object [("offers", .array (claimed.map claimAtom)), ("effect", .string name), ("offer", offer)]
  | .failure _ => .null

/-- One winner of the inflation. -/
def payout (p : Payout) : Json :=
  .object [("destination", account p.destination), ("amount", signed p.amount)]

/-- The payload of the kinds that have one. -/
def kindPayload : KindResult → Json
  | .pathPaymentStrictReceive r | .pathPaymentStrictSend r => pathPayload r
  | .manageSellOffer r | .createPassiveSellOffer r | .manageBuyOffer r => offerPayload r
  | .accountMerge (.success balance) => .object [("balance", signed balance)]
  | .inflation (.success payouts) => .array (payouts.map payout)
  | _ => .null

/-- The result of an operation of a known kind. -/
def kindResult (r : KindResult) : Json :=
  .object [("type", .string r.kind.name), ("code", .int32 r.code),
    ("claimed", .nat r.claimed.length), ("payload", kindPayload r)]

/-- The result of an operation, the kind's own part where the operation was tried at all. -/
def operationResult (r : OperationResult) : Json :=
  .object [("code", .int32 r.code), ("success", .bool r.isSuccess),
    ("inner", optional kindResult r.inner?)]

/-- The result of the transaction inside a fee bump. -/
def innerPair (p : InnerResultPair) : Json :=
  let result := match p.result with
    | .success _ => .string "success"
    | .failed _ => .string "failed"
    | .other code => .int32 code
  .object [("hash", hash p.hash), ("fee_charged", signed p.feeCharged), ("result", result)]

/-- The result of a transaction, its operations' results those that count for it. -/
def transactionResult (r : TransactionResult) : Json :=
  let inner := match r.verdict with
    | .feeBumpSuccess p | .feeBumpFailed p => innerPair p
    | _ => .null
  .object [("fee_charged", signed r.feeCharged), ("code", .int32 r.code),
    ("success", .bool r.isSuccess), ("inner", inner),
    ("results", .array (r.operationResults.map operationResult))]

/-- A result under the hash of its transaction. -/
def resultPair (p : ResultPair) : Json :=
  .object [("hash", hash p.hash), ("result", transactionResult p.result)]

/-- What open offers have promised of a balance. -/
def liabilities (l : Liabilities) : Json :=
  .object [("buying", signed l.buying), ("selling", signed l.selling)]

def accountEntry (e : AccountEntry) : Json :=
  .object [("account", account e.account), ("balance", signed e.balance),
    ("seq_num", signed e.seqNum), ("num_sub_entries", .uint32 e.numSubEntries),
    ("inflation_dest", optional account e.inflationDest), ("flags", .uint32 e.flags),
    ("home_domain", hex e.homeDomain), ("thresholds", hex e.thresholds.bytes),
    ("signers", .array (e.signers.map signer)), ("liabilities", optional liabilities e.liabilities)]

def trustLine (t : TrustLine) : Json :=
  .object [("account", account t.account), ("asset", asset t.asset), ("balance", signed t.balance),
    ("limit", signed t.limit), ("flags", .uint32 t.flags),
    ("liabilities", optional liabilities t.liabilities)]

/-- A name and a value kept by an account. -/
def dataEntry (d : DataEntry) : Json :=
  .object [("account", account d.account), ("name", hex d.name), ("value", hex d.value)]

/-- An entry of the ledger, by its kind, with when it was last modified. -/
def ledgerEntry (e : LedgerEntry) : Json :=
  let (type, data) := match e.data with
    | .account a => ("account", accountEntry a)
    | .trustLine t => ("trustline", trustLine t)
    | .offer o => ("offer", offerEntry o)
    | .data d => ("data", dataEntry d)
  .object [("modified", .uint32 e.lastModified), ("type", .string type), ("data", data),
    ("sponsor", optional account e.sponsor)]

/-- What a removed entry is named by. -/
def ledgerKey : LedgerKey → Json
  | .account a => .object [("type", .string "account"), ("account", account a)]
  | .trustLine a b =>
    .object [("type", .string "trustline"), ("account", account a), ("asset", asset b)]
  | .offer a id =>
    .object [("type", .string "offer"), ("seller", account a), ("offer_id", signed id)]
  | .data a name => .object [("type", .string "data"), ("account", account a), ("name", hex name)]

/-- A change tells the whole entry, but for a removal, which tells the key. -/
def change : EntryChange → Json
  | .created e => .object [("change", .string "created"), ("entry", ledgerEntry e)]
  | .updated e => .object [("change", .string "updated"), ("entry", ledgerEntry e)]
  | .removed k => .object [("change", .string "removed"), ("key", ledgerKey k)]
  | .state e => .object [("change", .string "state"), ("entry", ledgerEntry e)]

/-- Changes in the order they were made. -/
def changes (cs : List EntryChange) : Json := .array (cs.map change)

/-- The changes of a transaction: those before its operations, those of each operation, those
    after. -/
def transactionMeta (m : TransactionMeta) : Json :=
  let build (v : Nat) (first last : Json) (operations : List (List EntryChange)) : Json :=
    .object [("v", .nat v), ("before", first), ("after", last),
      ("operations", .array (operations.map changes))]
  match m with
  | .v0 operations => build 0 .null .null operations
  | .v1 first operations => build 1 (changes first) .null operations
  | .v2 first operations last => build 2 (changes first) (changes last) operations

/-- What became of a transaction: its result, the changes of its fee and its own changes. -/
def applied (a : Applied) : Json :=
  .object [("result", resultPair a.result), ("fee_processing", changes a.feeChanges),
    ("tx_apply_processing", transactionMeta a.changes)]

/-- A row of the transaction table; whether it succeeded is shown where asked for. -/
def transactionRow (r : TransactionRow) (withSuccess : Bool) : Json :=
  .object ([("hash", hash r.hash), ("seq", .uint32 r.seq), ("index", .uint32 r.index),
    ("envelope", envelope r.envelope), ("result", transactionResult r.result),
    ("meta", transactionMeta r.changes)] ++
    if withSuccess then [("success", .bool r.isSuccess)] else [])

/-- A row of the fee table. -/
def feeRow (r : FeeRow) : Json :=
  .object [("hash", hash r.hash), ("seq", .uint32 r.seq), ("index", .uint32 r.index),
    ("changes", changes r.changes)]

/-- A row of the header table. -/
def ledgerRow (r : LedgerRow) : Json :=
  .object [("hash", hash r.hash), ("sequence", .uint32 r.seq),
    ("close_time", .string (Json.time r.closeTime).text), ("header", header r.header)]

/-- A number or hash, by the name of its type. -/
def element (of : String) : Reader Json :=
  match of with
  | "u32" => return .string (toString (← Reader.uint32).toNat)
  | "i32" => return .string (toString (← Reader.int32).toInt)
  | "u64" => return unsigned (← Reader.uint64)
  | "i64" => return signed (← Reader.int64)
  | _ => return hash (← Reader.block 32)

/-- A record, by the name of its type in the format. -/
def record (type : String) : Reader Json :=
  match type with
  | "Hash" => return hash (← Reader.block 32)
  | "AccountId" => return account (← AccountId.codec.read)
  | "MuxedAccount" => return muxed (← MuxedAccount.codec.read)
  | "Asset" => return asset (← Asset.codec.read)
  | "AssetCode" => return assetCode (← AssetCode.codec.read)
  | "Price" => return price (← Price.codec.read)
  | "Memo" => return memo (← Memo.codec.read)
  | "TimeBounds" => return timeBounds (← TimeBounds.codec.read)
  | "SignerKey" => return .object (signerKeyFields (← SignerKey.codec.read))
  | "Signer" => return signer (← Signer.codec.read)
  | "DecoratedSignature" => return signature (← Signature.codec.read)
  | "StellarValue" => return closeValue (← CloseValue.codec.read)
  | "LedgerHeader" => return header (← LedgerHeader.codec.read)
  | "LedgerHeaderHistoryEntry" => return historyEntry (← HistoryEntry.codec.read)
  | "OperationBody" => return operationBody (← OperationBody.codec.read)
  | "Operation" => return operation (← Operation.codec.read)
  | "Transaction" => return transaction (← Transaction.codec.read)
  | "TransactionEnvelope" => return envelope (← Envelope.codec.read)
  | "ClaimOfferAtom" => return claimAtom (← ClaimAtom.codec.read)
  | "OfferEntry" => return offerEntry (← OfferEntry.codec.read)
  | "InflationPayout" => return payout (← Payout.codec.read)
  | "OperationResultTr" => return kindResult (← KindResult.codec.read)
  | "OperationResult" => return operationResult (← OperationResult.codec.read)
  | "InnerTransactionResultPair" => return innerPair (← InnerResultPair.codec.read)
  | "TransactionResult" => return transactionResult (← TransactionResult.codec.read)
  | "TransactionResultPair" => return resultPair (← ResultPair.codec.read)
  | "Liabilities" => return liabilities (← Liabilities.read)
  | "AccountEntry" => return accountEntry (← AccountEntry.read)
  | "TrustLineEntry" => return trustLine (← TrustLine.read)
  | "DataEntry" => return dataEntry (← DataEntry.read)
  | "LedgerEntry" => return ledgerEntry (← LedgerEntry.read)
  | "LedgerKey" => return ledgerKey (← LedgerKey.read)
  | "LedgerEntryChange" => return change (← EntryChange.read)
  | "LedgerEntryChanges" => return changes (← EntryChange.readAll)
  | "OperationMeta" => return changes (← EntryChange.readAll)
  | "TransactionMeta" => return transactionMeta (← TransactionMeta.read)
  | "TransactionResultMeta" => return applied (← Applied.read)
  | of => element of

end LedgerSearch.Inspect
