import LedgerSearch.Settings.Basic
import LedgerSearch.Settings.Path
import LedgerSearch.Settings.Toml

/-
  Settings from their layers: the defaults, over them a file, over that the environment. A variable
  names a section and a field, in any case.
-/

namespace LedgerSearch.Settings

/-- What the name of a variable starts with, in lower case. -/
def variableMark : String := "ledger_indexer__"

/-- A JSON value as a value of settings. -/
def Value.ofJson : Json → Value
  | .null => .absent
  | .bool b => .bool b
  | .number (.int n) => .int n
  | .number (.float x) => .real (.finite x)
  | .string s => .text s
  | .array _ => .list []
  | .object fields => .table (ofFields fields)
where
  ofFields : List (String × Json) → List (String × Value)
    | [] => []
    | (name, j) :: rest => (name, Value.ofJson j) :: ofFields rest

/-- A text without a sign, read as a number with a fraction or an exponent. -/
def decimal? (negative : Bool) (cs : List Char) : Option Real := do
  let isMark (c : Char) : Bool := c == 'e' || c == 'E'
  let mantissa := cs.takeWhile (!isMark ·)
  let whole := mantissa.takeWhile (· != '.')
  let decimals := (mantissa.dropWhile (· != '.')).drop 1
  let isNumeral (ds : List Char) : Bool := ds.all Json.isDigit
  let power : Int ← match cs.dropWhile (!isMark ·) with
    | [] => some 0
    | _ :: rest =>
      let (sign, ds) : Int × List Char := match rest with
        | '-' :: ds => (-1, ds)
        | '+' :: ds => (1, ds)
        | ds => (1, ds)
      if ds.isEmpty || !isNumeral ds then none else some (sign * (Text.Hex.number 10 ds : Int))
  if (whole ++ decimals).isEmpty || !isNumeral whole || !isNumeral decimals then none
  else
    let significand := Text.Hex.number 10 (whole ++ decimals)
    some (Toml.realOf negative significand (power - decimals.length))

/-- A number as a text spells it. -/
def real? (text : String) : Option Real :=
  let (negative, cs) := match text.toList with
    | '-' :: rest => (true, rest)
    | '+' :: rest => (false, rest)
    | cs => (false, cs)
  let word := lowered (String.ofList cs)
  if word = "inf" ∨ word = "infinity" then some (.infinite negative)
  else if word = "nan" then some .nan
  else decimal? negative cs

/-- A whole number of 64 bits as a text spells it. -/
def integer? (text : String) : Option Int :=
  let (negative, cs) := match text.toList with
    | '-' :: rest => (true, rest)
    | '+' :: rest => (false, rest)
    | cs => (false, cs)
  if cs.isEmpty || !cs.all Json.isDigit then none
  else
    let n : Int := Text.Hex.number 10 cs
    let m := if negative then -n else n
    if Int64.minValue.toInt ≤ m ∧ m ≤ Int64.maxValue.toInt then some m else none

/-- What the text of a variable stands for. -/
def variableValue (text : String) : Value :=
  if lowered text = "true" then .bool true
  else if lowered text = "false" then .bool false
  else match integer? text with
    | some n => .int n
    | none =>
      match real? text with
      | some x => .real x
      | none => .text text

/-- The path a variable sets, if it is one of this program. -/
def variablePath? (name : String) : Option Path :=
  let key := (lowered name).toList
  let mark := variableMark.toList
  if key.take mark.length = mark then
    some (pathOf (".".intercalate ((String.ofList (key.drop mark.length)).splitOn "__")))
  else none

/-- Puts a file over a value. Its names may be paths themselves. -/
def withFile (v : Value) (fields : List (String × Value)) : Outcome Value :=
  fields.foldlM (fun v (name, new) => putAt new (pathOf (lowered name)) v) v

/-- Puts the environment over a value. -/
def withVariables (v : Value) (environment : List (String × String)) : Outcome Value :=
  environment.foldlM (fun v (name, text) =>
    match variablePath? name with
    | some path => putAt (variableValue text) path v
    | none => .ok v) v

/-- The fields of a section. -/
structure Section where
  fields : List (String × Value)

namespace Section

/-- The section of that name. A list holds its fields in the order of `names`; what it has beyond
    them counts for nothing. -/
def of? (v : Value) (name : String) (names : List String) : Option Section :=
  match v.fields.lookup name with
  | some (.table fields) => some ⟨fields⟩
  | some (.list items) => if names.length ≤ items.length then some ⟨names.zip items⟩ else none
  | _ => none

/-- A field that is not there is absent, whatever its type. -/
def value (s : Section) (name : String) : Value := (s.fields.lookup name).getD .absent

/-- A number below `size`, in any form that reads as one. -/
def nat? (s : Section) (name : String) (size : Nat) : Option Nat := (s.value name).asNat? size

/-- Text, in any form that reads as text. -/
def text? (s : Section) (name : String) : Option String := (s.value name).asText?

end Section

/-- The section on the database; a wrong type anywhere refuses the whole. -/
def database? (v : Value) : Option DatabaseSettings := do
  let s ← Section.of? v "database" ["url", "max_connections", "acquire_timeout_secs"]
  some {
    url := ← s.text? "url"
    maxConnections := ← s.nat? "max_connections" UInt32.size
    acquireTimeoutSecs := ← s.nat? "acquire_timeout_secs" UInt64.size }

/-- The section on the search engine. -/
def search? (v : Value) : Option SearchSettings := do
  let s ← Section.of? v "elastic"
    ["url", "username", "password", "index_prefix", "request_timeout_secs"]
  some {
    url := ← s.text? "url"
    username := ← (s.value "username").asOptionalText?
    password := ← (s.value "password").asOptionalText?
    deployment := ← s.text? "index_prefix"
    requestTimeoutSecs := ← s.nat? "request_timeout_secs" UInt64.size }

/-- The section on the work itself. -/
def indexer? (v : Value) : Option IndexerSettings := do
  let s ← Section.of? v "indexer"
    ["workers", "bulk_retries", "retry_backoff_ms", "scan_window", "backfill_batch", "export_batch",
      "poll_interval_ms", "network_passphrase"]
  some {
    workers := ← s.nat? "workers" UInt64.size
    bulkRetries := ← s.nat? "bulk_retries" UInt32.size
    retryBackoffMs := ← s.nat? "retry_backoff_ms" UInt64.size
    scanWindow := ← s.nat? "scan_window" UInt32.size
    backfillBatch := ← s.nat? "backfill_batch" UInt32.size
    exportBatch := ← s.nat? "export_batch" UInt32.size
    pollIntervalMs := ← s.nat? "poll_interval_ms" UInt64.size
    networkPassphrase := ← s.text? "network_passphrase" }

/-- The section on what the program tells of itself. -/
def monitoring? (v : Value) : Option MonitoringSettings := do
  let s ← Section.of? v "monitoring" ["metrics_port", "log_level", "structured_logging"]
  some {
    metricsPort := ← s.nat? "metrics_port" UInt16.size
    logLevel := ← s.text? "log_level"
    structuredLogging := ← (s.value "structured_logging").asBool? }

/-- The settings a table holds; fields of other names count for nothing. -/
def ofValue? (v : Value) : Option Settings := do
  some {
    database := ← database? v
    search := ← search? v
    indexer := ← indexer? v
    monitoring := ← monitoring? v }

/-- The defaults as a file would write them, for the sources of settings to lie upon. -/
def defaultValue : Value := .ofJson (toJson {})

/-- A file that settings are read from. -/
inductive Source where
  | none
  | missing
  | file (text : String)

/-- The table of a file; without a file it is empty. -/
def Source.fields : Source → Except Error (List (String × Value))
  | .none => .ok []
  | .missing => .error (.configuration "configuration file not found")
  | .file text =>
    match Toml.parse? text with
    | Option.some fields => .ok fields
    | Option.none => .error (.configuration "configuration file cannot be read")

/-- The settings a value holds, checked. -/
def ofValue (v : Value) : Except Error Settings :=
  match ofValue? v with
  | none => .error (.configuration "a setting has a value of the wrong type")
  | some s => do
    s.check
    pure s

/-- The settings of a file and an environment, checked. -/
def load (file : Source) (environment : List (String × String)) : Outcome Settings := do
  let fields ← file.fields.mapError .error
  let v ← withFile defaultValue fields
  let v ← withVariables v environment
  (ofValue v).mapError .error

end LedgerSearch.Settings
