import Mathlib
import LedgerSearch.Bulk
import LedgerSearch.Proofs.Bulk.JsonText
import LedgerSearch.Proofs.Token.Number

/-
  The action lines of a bulk body, and the ids read back from their text.
-/

namespace LedgerSearch

namespace BulkEntry

/-- The id an action line names, read as a number. -/
def actionId? (line : String) : Option UInt64 := do
  let action ← Json.parse? line
  let id ← (← action.at? ["index", "_id"]).asString?
  (Text.Numeral.parse UInt64.size id).toOption.map UInt64.ofNat

theorem value?_action (fuel depth : Nat) (index id : String) (source : Json) :
    Json.value? (fuel + 6) (depth + 2) (BulkEntry.mk index (some id) source).action.chars =
      some ((BulkEntry.mk index (some id) source).action, []) := by
  have hindex : Json.fields? (fuel + 2) depth
      (Json.stringChars "_index" ++ ':' :: (Json.stringChars index ++ ['\x7d', '\x7d'])) =
      some ([("_index", .string index)], ['\x7d']) :=
    Json.fields?_last (Json.value?_string fuel depth index _)
  have hid : Json.fields? (fuel + 3) depth
      (Json.stringChars "_id" ++ ':' :: (Json.stringChars id ++ ',' :: _)) =
      some ([("_id", .string id), ("_index", .string index)], ['\x7d']) :=
    Json.fields?_more (Json.value?_string (fuel + 1) depth id (',' :: _)) hindex
  have hall : Json.fields? (fuel + 5) (depth + 1)
      (Json.stringChars "index" ++ ':' :: '\x7b' :: (Json.stringChars "_id" ++ _)) =
      some ([("index", _)], []) :=
    Json.fields?_last (Json.value?_object hid)
  have hcs : (BulkEntry.mk index (some id) source).action.chars =
      '\x7b' :: (Json.stringChars "index" ++ ':' :: '\x7b' :: (Json.stringChars "_id" ++ ':' ::
        (Json.stringChars id ++ ',' :: (Json.stringChars "_index" ++ ':' ::
          (Json.stringChars index ++ ['\x7d', '\x7d']))))) := by
    simp [action, Json.field?, Json.chars, Json.fieldsChars]
  rw [hcs]
  exact Json.value?_object hall

/-- The action line of a document is read back. -/
theorem parse?_action (deployment : String) (d : Document) :
    Json.parse? (ofDocument deployment d).action.text =
      some (ofDocument deployment d).action := by
  have hlen : 2 ≤ (ofDocument deployment d).action.chars.length := by
    simp [action, Json.chars]
  obtain ⟨n, hn⟩ : ∃ n, 2 * (ofDocument deployment d).action.chars.length + 2 = n + 6 :=
    ⟨_, (Nat.sub_add_cancel (by omega)).symm⟩
  have hv := value?_action n 125 (d.index.qualified deployment) d.token.text d.toJson
  simp only [Json.parse?, Json.text, String.toList_ofList, hn]
  rw [Json.maxDepth, ofDocument, hv]
  rfl

theorem actionId?_ofDocument (deployment : String) (d : Document) :
    actionId? (ofDocument deployment d).action.text = some d.token.pack := by
  have hid : (ofDocument deployment d).action.at? ["index", "_id"] = some (.string d.token.text) :=
    rfl
  simp [actionId?, parse?_action, hid, Json.asString?, Token.parse_text_pack, Except.toOption]

end BulkEntry

/-! ## Whole bodies -/

/-- The first, third, fifth of a list, and so on. -/
def everyOther {α : Type} : List α → List α
  | a :: _ :: rest => a :: everyOther rest
  | as => as

namespace BulkBody

/-- The lines that say where the documents go; each is followed by one that holds a document. -/
def actionLines (b : BulkBody) : List String := everyOther b.lines

theorem actionLines_eq (b : BulkBody) : b.actionLines = b.map (·.action.text) := by
  induction b with
  | nil => rfl
  | cons e rest ih => exact congrArg (e.action.text :: ·) ih

/-- The ids in a body, read from its action lines. -/
def ids? (b : BulkBody) : Option (List UInt64) := b.actionLines.mapM BulkEntry.actionId?

theorem ids?_ofDocuments (deployment : String) (ds : List Document) :
    (ofDocuments deployment ds).ids? = some (ds.map (·.token.pack)) := by
  rw [ids?, actionLines_eq]
  induction ds with
  | nil => rfl
  | cons d rest ih =>
    rw [ofDocuments, List.map_cons, List.map_cons, List.mapM_cons,
      BulkEntry.actionId?_ofDocument, ← ofDocuments, ih]
    rfl

end BulkBody

end LedgerSearch
