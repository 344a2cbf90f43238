import LedgerSearch.Document.Basic

/-
  The body of a bulk request: for each document a line that says where it goes and a line that
  holds it.
-/

namespace LedgerSearch

/-- One document on its way to an index; without an id the index chooses one. -/
structure BulkEntry where
  index : String
  id : Option String
  source : Json

/-- The documents of one request, in order. -/
abbrev BulkBody := List BulkEntry

namespace BulkEntry

/-- The document in the deployment's own copy of its index, under the text of its token. -/
def ofDocument (deployment : String) (d : Document) : BulkEntry :=
  ⟨d.index.qualified deployment, some d.token.text, d.toJson⟩

/-- What is to be done with the document, its fields in the order of their names. -/
def action (e : BulkEntry) : Json :=
  .object [("index", .object (Json.field? "_id" (e.id.map .string) ++ [("_index", .string e.index)]))]

/-- What is to be done, then what is to be stored. -/
def lines (e : BulkEntry) : List String := [e.action.text, e.source.text]

/-- The two lines of the entry, each ended by a line feed. -/
def chars (e : BulkEntry) : List Char :=
  e.action.chars ++ '\n' :: (e.source.chars ++ ['\n'])

end BulkEntry

namespace BulkBody

/-- The documents in the order they were written in. -/
def ofDocuments (deployment : String) (ds : List Document) : BulkBody :=
  ds.map (.ofDocument deployment)

/-- The lines of the request: two for each entry. -/
def lines (b : BulkBody) : List String := b.flatMap BulkEntry.lines

/-- The characters of the request, the entries one behind the other. -/
def chars (b : BulkBody) : List Char := b.flatMap BulkEntry.chars

/-- The text of the request. -/
def text (b : BulkBody) : String := String.ofList (chars b)

/-- Length of the text in bytes. -/
def size (b : BulkBody) : Nat := (chars b).foldl (fun n c => n + c.utf8Size) 0

end BulkBody

/-- A body that is being written, with a count of its documents. -/
structure BulkSink where
  deployment : String
  text : String
  documents : Nat

namespace BulkSink

/-- Nothing written yet. -/
def fresh (deployment : String) : BulkSink := ⟨deployment, "", 0⟩

/-- Two lines more, and one more document. -/
def push (s : BulkSink) (d : Document) : BulkSink :=
  let e := BulkEntry.ofDocument s.deployment d
  { s with
    text := s.text ++ e.action.text ++ "\n" ++ e.source.text ++ "\n"
    documents := s.documents + 1 }

/-- The documents one behind the other. -/
def pushAll (s : BulkSink) (ds : List Document) : BulkSink := ds.foldl push s

end BulkSink

end LedgerSearch
