import LedgerSearch.IndexName
import LedgerSearch.Json.Basic

/-
  What an index is created with: how the fields of its documents are stored. Amounts are numbers
  scaled by their seven decimals; ids, hashes and accounts are matched whole.
-/

namespace LedgerSearch.Search

/-- How the values of a field are indexed. -/
inductive FieldKind where
  | keyword
  | amount
  | long
  | double
  | bool
  | date
  | asset
  | memo

namespace FieldKind

/-- A field with nothing to say but its type. -/
def typed (name : String) : Json := .object [("type", .string name)]

/-- A field that has fields of its own, each matched whole. -/
def keywords (names : List String) : Json :=
  .object [("properties", .object (names.map fun n => (n, typed "keyword")))]

/-- The mapping of a field; amounts are scaled by their seven decimals. -/
def toJson : FieldKind → Json
  | .keyword => typed "keyword"
  | .amount => .object [("type", .string "scaled_float"), ("scaling_factor", .nat 10000000)]
  | .long => typed "long"
  | .double => typed "double"
  | .bool => typed "boolean"
  | .date => typed "date"
  | .asset => keywords ["type", "code", "issuer", "key"]
  | .memo => keywords ["type", "value"]

end FieldKind

/-- The mapped fields of an index besides the paging token. -/
def ownFields : IndexName → List (String × FieldKind)
  | .ledger => [
    ("hash", .keyword), ("prev_hash", .keyword), ("bucket_list_hash", .keyword), ("seq", .long),
    ("close_time", .date), ("version", .long), ("total_coins", .amount), ("fee_pool", .amount),
    ("base_fee", .long), ("base_reserve", .long), ("max_tx_set_size", .long),
    ("successful_transaction_count", .long), ("failed_transaction_count", .long),
    ("operation_count", .long)]
  | .transaction => [
    ("id", .keyword), ("seq", .long), ("index", .long), ("close_time", .date),
    ("account", .keyword), ("account_sequence", .long), ("fee_account", .keyword),
    ("fee_bump", .bool), ("max_fee", .long), ("fee_charged", .long), ("operation_count", .long),
    ("successful", .bool), ("result_code", .long), ("memo", .memo)]
  | .operation => [
    ("tx_id", .keyword), ("tx_index", .long), ("seq", .long), ("close_time", .date),
    ("tx_source_account", .keyword), ("index", .long), ("type", .keyword),
    ("source_account", .keyword), ("destination_account_id", .keyword), ("amount", .amount),
    ("asset", .asset), ("source_asset", .asset), ("selling_asset", .asset),
    ("buying_asset", .asset), ("path", .asset), ("price", .double), ("succeeded", .bool),
    ("result_code", .long), ("inner_result_code", .long)]
  | .balance => [
    ("account_id", .keyword), ("balance", .amount), ("diff", .amount), ("asset", .asset),
    ("source", .keyword), ("created_at", .date)]
  | .trade => [
    ("offer_id", .long), ("seller_id", .keyword), ("buyer_id", .keyword),
    ("sold_amount", .amount), ("sold_asset", .asset), ("bought_amount", .amount),
    ("bought_asset", .asset), ("price", .double), ("created_at", .date)]
  | .offer => [
    ("seq", .long), ("type", .keyword), ("action", .keyword), ("seller_id", .keyword),
    ("offer_id", .long), ("selling", .asset), ("buying", .asset), ("amount", .amount),
    ("price", .double), ("created_at", .date)]
  | .signerHistory => [
    ("account_id", .keyword), ("signer", .keyword), ("type", .keyword), ("weight", .long),
    ("seq", .long), ("tx_index", .long), ("op_index", .long), ("created_at", .date)]

/-- All mapped fields of an index. -/
def fields (n : IndexName) : List (String × FieldKind) := ("paging_token", .long) :: ownFields n

/-- Settings and field mappings of an index. -/
def mapping (n : IndexName) : Json :=
  .object [
    ("settings", .object [("number_of_shards", .nat 1)]),
    ("mappings", .object [
      ("dynamic", .bool true),
      ("properties", .object ((fields n).map fun (name, kind) => (name, kind.toJson)))])]

end LedgerSearch.Search
