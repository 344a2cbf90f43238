/-
  What can go wrong, as causes, and the sentence each cause is reported with.
-/

namespace LedgerSearch

/-- Why bytes are not a record. -/
inductive DecodeError where
  /-- The input ends at `offset`, `needed` bytes too early. -/
  | unexpectedEnd (offset needed : Nat)
  /-- A union of this kind has no arm of that number. -/
  | unknownDiscriminant (kind : String) (value : Int32)
  | lengthExceeded (kind : String) (length max : Nat)
  | nonZeroPadding (offset : Nat)
  | trailingBytes (count : Nat)
  | base64 (reason : String)
  | invalid (reason : String)
deriving DecidableEq

/-- The text of a decoding error, with the place or the number it is about. -/
def DecodeError.message : DecodeError → String
  | .unexpectedEnd offset needed =>
    s!"unexpected end of input at byte {offset}: needed {needed} more bytes"
  | .unknownDiscriminant kind value => s!"unknown {kind} discriminant {value.toInt}"
  | .lengthExceeded kind length max => s!"{kind} length {length} exceeds maximum {max}"
  | .nonZeroPadding offset => s!"non-zero padding at byte {offset}"
  | .trailingBytes count => s!"{count} trailing bytes after record"
  | .base64 reason => s!"invalid base64: {reason}"
  | .invalid reason => s!"invalid record: {reason}"

/-- The name of the kind of fault. -/
def DecodeError.kind : DecodeError → String
  | .unexpectedEnd _ _ => "Decode.UnexpectedEof"
  | .unknownDiscriminant _ _ => "Decode.UnknownDiscriminant"
  | .lengthExceeded _ _ _ => "Decode.LengthExceeded"
  | .nonZeroPadding _ => "Decode.NonZeroPadding"
  | .trailingBytes _ => "Decode.TrailingBytes"
  | .base64 _ => "Decode.Base64"
  | .invalid _ => "Decode.Invalid"

/-- Why the source database gave no usable answer. -/
inductive SourceError where
  | database (text : String)
  | malformedRow (table key reason : String)
deriving DecidableEq

/-- The text of an error of the database of closed ledgers. -/
def SourceError.message : SourceError → String
  | .database text => s!"Database error: {text}"
  | .malformedRow table key reason => s!"Row {table}/{key} is malformed: {reason}"

/-- Why the document index gave no usable answer. -/
inductive IndexError where
  | transport (text : String)
  | status (code : Nat) (body : String)
  | bulkRejected (failed total : Nat) (reason : String)
  | response (text : String)
deriving DecidableEq

/-- The text of an error of the index. -/
def IndexError.message : IndexError → String
  | .transport text => s!"Transport error: {text}"
  | .status code body => s!"Index responded {code}: {body}"
  | .bulkRejected failed total reason =>
    s!"Bulk request rejected {failed} of {total} documents: {reason}"
  | .response text => s!"Unexpected response: {text}"

/-- What can go wrong in a call, by the part of the program it comes from. -/
inductive Error where
  | decode (e : DecodeError)
  | source (e : SourceError)
  | index (e : IndexError)
  | serialization (text : String)
  | configuration (text : String)
  /-- A position in ledger history does not fit its field of a paging token. -/
  | orderingOverflow (field : String) (value : Nat)
  | io (text : String)
  | other (text : String)
deriving DecidableEq

/-- The text that is shown for an error. -/
def Error.message : Error → String
  | .decode e => s!"Decode error: {e.message}"
  | .source e => s!"Source database error: {e.message}"
  | .index e => s!"Index error: {e.message}"
  | .serialization text => s!"Serialization error: {text}"
  | .configuration text => s!"Configuration error: {text}"
  | .orderingOverflow field value =>
    s!"Ordering key overflow: {field} = {value} does not fit in 8 bits"
  | .io text => s!"I/O error: {text}"
  | .other text => text

/-- The name of the kind of error. -/
def Error.kind : Error → String
  | .decode e => e.kind
  | .source (.database _) => "Source.Database"
  | .source (.malformedRow _ _ _) => "Source.MalformedRow"
  | .index (.transport _) => "Index.Transport"
  | .index (.status _ _) => "Index.Status"
  | .index (.bulkRejected _ _ _) => "Index.BulkRejected"
  | .index (.response _) => "Index.Response"
  | .serialization _ => "Serialization"
  | .configuration _ => "Configuration"
  | .orderingOverflow _ _ => "OrderingOverflow"
  | .io _ => "Io"
  | .other _ => "Other"

/-- Whether sending the whole request again may help. -/
def Error.isTransient : Error → Bool
  | .index _ => true
  | _ => false

/-- A sum or difference that does not fit its word, or a list that does not fit memory. -/
inductive Overflow where
  | add
  | subtract
  | capacity
deriving DecidableEq

/-- The text the arithmetic stops with. -/
def Overflow.message : Overflow → String
  | .add => "attempt to add with overflow"
  | .subtract => "attempt to subtract with overflow"
  | .capacity => "capacity overflow"

/-- Why a computation stopped: with an error to report, or because arithmetic left its range. -/
inductive Failure where
  | error (e : Error)
  | overflow (o : Overflow)
deriving DecidableEq

/-- An error is told by its own text, an overflow by that of the arithmetic. -/
def Failure.message : Failure → String
  | .error e => e.message
  | .overflow o => o.message

/-- The result of a computation that may stop. -/
abbrev Outcome := Except Failure

/-- Stops with an error, as against an overflow. -/
def failWith {α : Type} (e : Error) : Outcome α := .error (.error e)

/-- The sum, if it is below `size`. -/
def checkedAdd (size a b : Nat) : Outcome Nat :=
  if a + b < size then .ok (a + b) else .error (.overflow .add)

/-- The difference, if it is not negative. -/
def checkedSub (a b : Nat) : Outcome Nat :=
  if b ≤ a then .ok (a - b) else .error (.overflow .subtract)

/-- The difference of two signed 64-bit numbers, if it is one. -/
def checkedSubInt64 (a b : Int64) : Outcome Int64 :=
  let d := a.toInt - b.toInt
  if Int64.minValue.toInt ≤ d ∧ d ≤ Int64.maxValue.toInt then .ok (Int64.ofInt d)
  else .error (.overflow .subtract)

end LedgerSearch
