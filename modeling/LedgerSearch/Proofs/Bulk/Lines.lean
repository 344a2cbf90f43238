import Mathlib
import LedgerSearch.Proofs.Bulk.ActionLine
import LedgerSearch.Proofs.Serialize.DocumentCounts
import LedgerSearch.Proofs.Serialize.DocumentIds

/-
  The lines of a bulk body. JSON text holds no control character, so that a body falls into as many
  lines as it is written in, two for each document; and the counts of a ledger are those of the
  actions in its body (`Serialize.ledger_lines`).
-/

namespace LedgerSearch

/-! ## JSON text without control characters -/

/-- No character is a control character. -/
def Printable (cs : List Char) : Prop := ∀ c ∈ cs, 32 ≤ c.toNat

instance : DecidablePred Printable := fun cs =>
  decidable_of_iff (cs.all fun c => 32 ≤ c.toNat) (by simp [Printable])

namespace Printable

variable {c : Char} {cs ds : List Char}

theorem nil : Printable [] := fun _ h => nomatch h

theorem cons (hc : 32 ≤ c.toNat) (h : Printable cs) : Printable (c :: cs) :=
  List.forall_mem_cons.mpr ⟨hc, h⟩

theorem append (h : Printable cs) (h' : Printable ds) : Printable (cs ++ ds) :=
  List.forall_mem_append.mpr ⟨h, h'⟩

theorem take (h : Printable cs) (n : Nat) : Printable (cs.take n) := fun c hc =>
  h c (List.mem_of_mem_take hc)

theorem drop (h : Printable cs) (n : Nat) : Printable (cs.drop n) := fun c hc =>
  h c (List.mem_of_mem_drop hc)

theorem replicate (hc : 32 ≤ c.toNat) (n : Nat) : Printable (List.replicate n c) := fun _ hd =>
  (List.mem_replicate.mp hd).2 ▸ hc

/-- A line feed is a control character. -/
theorem newline_notMem (h : Printable cs) : '\n' ∉ cs := fun hmem => absurd (h _ hmem) (by decide)

theorem toDigits (n : Nat) : Printable (Nat.toDigits 10 n) := by
  intro c hc
  have hdigit := Nat.isDigit_of_mem_toDigits (by decide) (by decide) hc
  simp only [Char.isDigit, Bool.and_eq_true, decide_eq_true_eq] at hdigit
  exact Nat.le_trans (by decide) (UInt32.le_iff_toNat_le.mp hdigit.1)

end Printable

namespace Number.Binary64

open Printable

theorem printable_scientific (x : Binary64) : Printable x.scientific.1 := toDigits _

/-- Digits, a point, signs and the mark of an exponent. -/
theorem printable_text (x : Binary64) : Printable x.text.toList := by
  have hcs := x.printable_scientific
  unfold text
  cases hsci : x.scientific with
  | mk cs e =>
  rw [hsci] at hcs
  dsimp only at hcs ⊢
  rw [String.toList_ofList]
  generalize hbody : (if x.mantissa = 0 then _ else _ : List Char) = body
  have hprintable : Printable body := by
    rw [← hbody]
    split
    · decide
    split
    · refine .append (.append ?_ ?_) (toDigits _)
      · split
        · exact nil
        · exact hcs
        · obtain ⟨hc, hrest⟩ := List.forall_mem_cons.mp hcs
          exact cons hc (cons (by decide) hrest)
      · split <;> decide
    split
    · exact cons (by decide) (cons (by decide) ((replicate (by decide) _).append hcs))
    · have hfront (n k : Nat) : Printable (cs.take n ++ List.replicate k '0') :=
        (hcs.take n).append (replicate (by decide) k)
      have hfraction := hcs.drop (e.toNat + 1)
      split
      · exact (hfront _ _).append (by decide)
      · exact (hfront _ _).append (cons (by decide) hfraction)
  split
  · exact cons (by decide) hprintable
  · exact hprintable

end Number.Binary64

namespace Json

open Printable

theorem printable_hexDigit {n : Nat} (h : n < 16) : 32 ≤ (hexDigit n).toNat := by
  revert n
  decide

/-- Control characters are written in others. -/
theorem printable_escaped (c : Char) : Printable (escaped c) := by
  unfold escaped
  split
  · decide
  split
  · decide
  split
  · next hcontrol =>
    split
    iterate 5 decide
    · have hhigh := printable_hexDigit (n := c.toNat / 16) (by omega)
      have hlow := printable_hexDigit (n := c.toNat % 16) (by omega)
      exact append (by decide : Printable ['\\', 'u', '0', '0']) (cons hhigh (cons hlow nil))
  · next hcontrol => exact cons (Nat.not_lt.mp hcontrol) nil

theorem printable_stringChars (s : String) : Printable (stringChars s) := by
  refine cons (by decide) (.append (fun c hc => ?_) (by decide))
  obtain ⟨d, -, hd⟩ := List.mem_flatMap.mp hc
  exact printable_escaped d c hd

theorem printable_number (n : Json.Number) : Printable n.chars := by
  match n with
  | .int (.ofNat n) =>
    show Printable (toString n).toList
    rw [Nat.toString_eq_repr, Nat.toList_repr]
    exact toDigits n
  | .int (.negSucc n) =>
    show Printable ("-" ++ (n + 1).repr).toList
    rw [String.toList_append, Nat.toList_repr]
    exact append (by decide) (toDigits _)
  | .float x => exact x.printable_text

mutual

/-- JSON text holds no control character. -/
theorem printable_chars : (j : Json) → Printable j.chars
  | .null => by decide
  | .bool true => by decide
  | .bool false => by decide
  | .number n => printable_number n
  | .string s => printable_stringChars s
  | .array items =>
    .cons (by decide) (.append (printable_itemsChars items) (.cons (by decide) .nil))
  | .object fields =>
    .cons (by decide) (.append (printable_fieldsChars fields) (.cons (by decide) .nil))

theorem printable_itemsChars : (items : List Json) → Printable (itemsChars items)
  | [] => .nil
  | [j] => printable_chars j
  | j :: k :: rest =>
    (printable_chars j).append (.cons (by decide) (printable_itemsChars (k :: rest)))

theorem printable_fieldsChars : (fields : List (String × Json)) → Printable (fieldsChars fields)
  | [] => .nil
  | [(name, j)] => (printable_stringChars name).append (.cons (by decide) (printable_chars j))
  | (name, j) :: g :: rest =>
    (printable_stringChars name).append <| .cons (by decide) <|
      (printable_chars j).append (.cons (by decide) (printable_fieldsChars (g :: rest)))

end

end Json

/-! ## Lines of a body -/

namespace BulkBody

variable {b : BulkBody}

/-- The body is its lines, each ended by a line feed. -/
theorem toList_text (b : BulkBody) :
    b.text.toList = b.lines.flatMap fun line => line.toList ++ ['\n'] := by
  rw [text, String.toList_ofList, chars, lines, List.flatMap_assoc]
  refine List.flatMap_congr fun e _ => ?_
  simp [BulkEntry.chars, BulkEntry.lines, Json.text]

theorem newline_notMem_lines {line : String} (h : line ∈ b.lines) : '\n' ∉ line.toList := by
  obtain ⟨e, -, he⟩ := List.mem_flatMap.mp h
  rcases List.mem_pair.mp he with rfl | rfl <;> rw [Json.text, String.toList_ofList]
  · exact (Json.printable_chars _).newline_notMem
  · exact (Json.printable_chars _).newline_notMem

/-- Lines, each ended by a character, are lines with the character between them and an empty one at
    the end. -/
theorem intercalate_concat_nil (c : Char) (lines : List (List Char)) :
    [c].intercalate (lines ++ [[]]) = lines.flatMap (· ++ [c]) := by
  induction lines with
  | nil => rfl
  | cons l rest ih =>
    rw [List.cons_append, List.flatMap_cons, ← ih]
    exact List.intercalate_cons_of_ne_nil (by simp)

/-- Documents behind others make their text behind that of the others. -/
theorem text_ofDocuments_append (deployment : String) (ds ds' : List Document) :
    (ofDocuments deployment (ds ++ ds')).text =
      (ofDocuments deployment ds).text ++ (ofDocuments deployment ds').text := by
  rw [ofDocuments, List.map_append, text, chars, List.flatMap_append, String.ofList_append]
  rfl

/-- Cut at the line feeds, the body falls into its lines, with nothing behind the last one. -/
theorem splitOn_text (b : BulkBody) :
    b.text.toList.splitOn '\n' = b.lines.map String.toList ++ [[]] := by
  rw [toList_text, ← List.flatMap_map (f := String.toList) (g := (· ++ ['\n'])),
    ← intercalate_concat_nil]
  refine List.splitOn_intercalate '\n' (fun l hl => ?_) (by simp)
  rcases List.mem_append.mp hl with hl | hl
  · obtain ⟨line, hline, rfl⟩ := List.mem_map.mp hl
    exact newline_notMem_lines hline
  · rw [List.mem_singleton.mp hl]
    exact List.not_mem_nil

theorem length_lines (b : BulkBody) : b.lines.length = 2 * b.length := by
  induction b with
  | nil => rfl
  | cons e rest ih =>
    show (BulkEntry.lines e ++ lines rest).length = _
    rw [List.length_append, ih, List.length_cons]
    show 2 + 2 * rest.length = _
    omega

/-- Each document has a line for its action and one behind it for itself. -/
theorem getElem?_lines {i : Nat} {e : BulkEntry} (h : b[i]? = some e) :
    b.lines[2 * i]? = some e.action.text ∧ b.lines[2 * i + 1]? = some e.source.text := by
  induction b generalizing i with
  | nil => exact nomatch h
  | cons e' rest ih =>
    cases i with
    | zero =>
      obtain rfl := Option.some.inj h
      exact ⟨rfl, rfl⟩
    | succ i => exact ih h

end BulkBody

/-! ## Actions -/

theorem IndexName.qualified_injective (deployment : String) :
    Function.Injective (IndexName.qualified deployment) := by
  intro m n h
  have htext : m.text = n.text := (String.append_right_inj deployment).mp h
  revert htext
  cases m <;> cases n <;> decide

namespace BulkEntry

/-- The index and the id that an action line names. -/
def target? (line : String) : Option (String × String) := do
  let action ← Json.parse? line
  let index ← (← action.at? ["index", "_index"]).asString?
  let id ← (← action.at? ["index", "_id"]).asString?
  some (index, id)

theorem target?_ofDocument (deployment : String) (d : Document) :
    target? (ofDocument deployment d).action.text =
      some (d.index.qualified deployment, d.token.text) := by
  have hindex : (ofDocument deployment d).action.at? ["index", "_index"] =
      some (.string (d.index.qualified deployment)) := rfl
  have hid : (ofDocument deployment d).action.at? ["index", "_id"] = some (.string d.token.text) :=
    rfl
  simp [target?, parse?_action, hindex, hid, Json.asString?]

end BulkEntry

/-- A document carries its token under its own name. -/
theorem Document.get?_toJson (d : Document) :
    d.toJson.get? "paging_token" = some (.string d.token.text) := by
  cases d with
  | operation d =>
    show (OperationDoc.toJson d).get? "paging_token" = _
    unfold OperationDoc.toJson
    cases d.memo.toJson? <;> rfl
  | ledger d | transaction d | balance d | trade d | offer d | signer d => rfl

/-- The actions that go to an index are counted under it. -/
theorem BulkBody.countP_actionLines (deployment : String) (ds : List Document) (name : IndexName) :
    (ofDocuments deployment ds).actionLines.countP
        (fun line => (BulkEntry.target? line).map (·.1) = some (name.qualified deployment)) =
      (Stats.ofDocuments ds).ofIndex name := by
  have hline (d : Document) :
      (BulkEntry.target? (BulkEntry.ofDocument deployment d).action.text).map (·.1) =
        some (name.qualified deployment) ↔ d.index = name := by
    rw [BulkEntry.target?_ofDocument, Option.map_some, Option.some.injEq]
    exact (IndexName.qualified_injective deployment).eq_iff
  rw [actionLines_eq, ofDocuments, List.map_map, List.countP_map, Stats.ofIndex_ofDocuments]
  refine List.countP_congr fun d _ => ?_
  simp only [Function.comp_apply, decide_eq_true_eq, hline]

/-! ## The body of a ledger -/

namespace BulkSink

theorem push_eq (s : BulkSink) (d : Document) : s.push d =
    ⟨s.deployment, s.text ++ (BulkBody.ofDocuments s.deployment [d]).text, s.documents + 1⟩ := by
  simp [push, BulkBody.ofDocuments, BulkBody.text, BulkBody.chars, BulkEntry.chars, Json.text,
    String.ofList_append, String.ofList_cons, String.append_assoc]

theorem pushAll_eq (s : BulkSink) (ds : List Document) : s.pushAll ds =
    ⟨s.deployment, s.text ++ (BulkBody.ofDocuments s.deployment ds).text,
      s.documents + ds.length⟩ := by
  induction ds generalizing s with
  | nil =>
    show s = ⟨s.deployment, s.text ++ "", s.documents⟩
    rw [String.append_empty]
  | cons d rest ih =>
    show (s.push d).pushAll rest = _
    rw [ih, push_eq, String.append_assoc, ← BulkBody.text_ofDocuments_append,
      List.singleton_append, List.length_cons, Nat.add_assoc, Nat.add_comm 1]

/-- The documents pushed into a fresh one make the body of a request. -/
theorem pushAll_fresh (deployment : String) (ds : List Document) :
    (fresh deployment).pushAll ds =
      ⟨deployment, (BulkBody.ofDocuments deployment ds).text, ds.length⟩ := by
  rw [pushAll_eq, fresh, String.empty_append, Nat.zero_add]

end BulkSink

/-- The body of a ledger has two lines for each document that is counted, cut where a line feed
    stands and nowhere else: an action, which names the index of the document and its own token, and
    the document. And the actions for each index are as many as are counted. -/
theorem Serialize.ledger_lines (deployment : String) {row : LedgerRow} {txs : List TransactionRow}
    {fees : List FeeRow} {ds : List Document} {stats : Stats}
    (h : ledger row txs fees = ⟨ds, .ok stats⟩) :
    ∃ lines : List String,
      ((BulkSink.fresh deployment).pushAll ds).text.toList.splitOn '\n' =
        lines.map String.toList ++ [[]] ∧
      (∀ line ∈ lines, '\n' ∉ line.toList) ∧ lines.length = 2 * stats.documents ∧
      ((BulkSink.fresh deployment).pushAll ds).documents = stats.documents ∧
      (∀ i d, ds[i]? = some d → ∃ action, lines[2 * i]? = some action ∧
        lines[2 * i + 1]? = some d.toJson.text ∧
        ∃ id, d.toJson.get? "paging_token" = some (.string id) ∧
          BulkEntry.target? action = some (d.index.qualified deployment, id)) ∧
      ∀ name : IndexName, (everyOther lines).countP (fun line =>
        (BulkEntry.target? line).map (·.1) = some (name.qualified deployment)) =
          stats.ofIndex name := by
  have hstats := Serialize.stats_ledger h
  have hlength : ds.length = stats.documents := by rw [hstats, Stats.documents_ofDocuments]
  rw [BulkSink.pushAll_fresh]
  refine ⟨(BulkBody.ofDocuments deployment ds).lines, BulkBody.splitOn_text _,
    fun line hline => BulkBody.newline_notMem_lines hline, ?_, hlength, fun i d hd => ?_,
    fun name => ?_⟩
  · rw [BulkBody.length_lines, BulkBody.ofDocuments, List.length_map, hlength]
  · have hentry : (BulkBody.ofDocuments deployment ds)[i]? = some (.ofDocument deployment d) := by
      rw [BulkBody.ofDocuments, List.getElem?_map, hd]
      rfl
    obtain ⟨haction, hsource⟩ := BulkBody.getElem?_lines hentry
    exact ⟨_, haction, hsource, _, d.get?_toJson, BulkEntry.target?_ofDocument deployment d⟩
  · rw [hstats]
    exact BulkBody.countP_actionLines deployment ds name

/-- A ledger with two payments, for indexes whose names hold a line feed. -/
theorem Serialize.ledger_lines_twoPayments :
    ∃ (c : LedgerClose) (ds : List Document) (stats : Stats) (lines : List String),
      c ∈ sampleCloses ∧ ledger c.ledger c.transactions c.fees = ⟨ds, .ok stats⟩ ∧
      ((BulkSink.fresh "live\n").pushAll ds).text.toList.splitOn '\n' =
        lines.map String.toList ++ [[]] ∧
      lines.length = 22 := by
  have hfirst : (sampleCloses.head?.map fun c =>
      (ledger c.ledger c.transactions c.fees).outcome.toOption.map (·.documents)) =
      some (some 11) := by
    decide +kernel
  obtain ⟨c, hc, hcount⟩ := Option.map_eq_some_iff.mp hfirst
  obtain ⟨stats, hstats, hdocuments⟩ := Option.map_eq_some_iff.mp hcount
  cases hledger : ledger c.ledger c.transactions c.fees with
  | mk ds o =>
  rw [hledger] at hstats
  cases o with
  | error failure => exact nomatch hstats
  | ok counts =>
    obtain rfl := Option.some.inj hstats
    obtain ⟨lines, hsplit, -, hlength, -⟩ := ledger_lines "live\n" hledger
    exact ⟨c, ds, counts, lines, List.mem_of_mem_head? hc, hledger, hsplit,
      hlength.trans (by rw [hdocuments])⟩

end LedgerSearch
