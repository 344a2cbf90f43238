import Mathlib
import LedgerSearch.Proofs.Delivery.Attempts

/-
  What the reply to a bulk request says of its items. An item acknowledges its document by a status
  of success under the name of its action, and refuses it by any other result, also one with no
  status. An item that names no action is silent. A reply counts and reports the items that refuse,
  and is a success where the errors flag is off and none does. So a silent item, which acknowledges
  no document, passes: the reply accounts for what was not acknowledged exactly where it lists no
  silent item (`Search.BulkReply.accounts_iff`), and a delivery is written by the first reply
  without a refusal (`Writer.written_unless_refused`).
-/

namespace LedgerSearch

open Program

theorem Json.asNat?_eq_some {j : Json} {n : ℕ} : j.asNat? = some n ↔ j = .nat n := by
  constructor
  · intro h
    match j, h with
    | .number (.int (.ofNat m)), h =>
      obtain rfl := Option.some.inj h
      rfl
  · rintro rfl
    rfl

theorem Json.asBool?_eq_some {j : Json} {b : Bool} : j.asBool? = some b ↔ j = .bool b := by
  constructor
  · intro h
    match j, h with
    | .bool _, h => exact congrArg Json.bool (Option.some.inj h)
  · rintro rfl
    rfl

namespace Search.BulkReply

/-! ## Items -/

/-- The items that a reply lists. -/
def listed (j : Json) : List Json := ((j.get? "items").bind Json.asArray?).getD []

/-- An item that says that its document was taken: its first field is an action, whose result has a
    status of success. -/
def Acknowledges (item : Json) : Prop :=
  ∃ action result rest status, item = .object ((action, result) :: rest) ∧
    result.get? "status" = some (.nat status) ∧ 200 ≤ status ∧ status < 300

/-- An item that names no action. -/
def Silent (item : Json) : Prop := ∀ action result rest, item ≠ .object ((action, result) :: rest)

/-- An item that names an action, but does not say that its document was taken. -/
def Refuses (item : Json) : Prop := ¬ Acknowledges item ∧ ¬ Silent item

theorem action?_eq_some {item result : Json} :
    action? item = some result ↔ ∃ action rest, item = .object ((action, result) :: rest) := by
  constructor
  · intro h
    match item, h with
    | .object ((action, _) :: rest), h =>
      obtain rfl := Option.some.inj h
      exact ⟨action, rest, rfl⟩
  · rintro ⟨action, rest, rfl⟩
    rfl

theorem action?_eq_none {item : Json} : action? item = none ↔ Silent item := by
  rw [Option.eq_none_iff_forall_ne_some]
  constructor
  · rintro h action result rest rfl
    exact h result rfl
  · intro h result hresult
    obtain ⟨action, rest, hitem⟩ := action?_eq_some.mp hresult
    exact h action result rest hitem

/-- A result without a status counts as one with status 0. -/
theorem isRejected_eq_false {result : Json} : isRejected result = false ↔
    ∃ status, result.get? "status" = some (.nat status) ∧ 200 ≤ status ∧ status < 300 := by
  have hstatus : isRejected result = false ↔ 200 ≤ status result ∧ status result < 300 := by
    simp [isRejected]
  rw [hstatus, status]
  constructor
  · intro h
    cases hn : (result.get? "status").bind Json.asNat? with
    | none =>
      rw [hn, Option.getD_none] at h
      omega
    | some n =>
      rw [hn, Option.getD_some] at h
      obtain ⟨j, hj, hjn⟩ := Option.bind_eq_some_iff.mp hn
      obtain rfl := Json.asNat?_eq_some.mp hjn
      exact ⟨n, hj, h⟩
  · rintro ⟨n, hn, h⟩
    rw [hn]
    exact h

theorem acknowledges_iff {item : Json} :
    Acknowledges item ↔ ∃ result, action? item = some result ∧ isRejected result = false := by
  simp only [action?_eq_some, isRejected_eq_false]
  constructor
  · rintro ⟨action, result, rest, status, hitem, hstatus⟩
    exact ⟨result, ⟨action, rest, hitem⟩, status, hstatus⟩
  · rintro ⟨result, ⟨action, rest, hitem⟩, status, hstatus⟩
    exact ⟨action, result, rest, status, hitem, hstatus⟩

theorem refuses_iff {item : Json} :
    Refuses item ↔ ∃ result, action? item = some result ∧ isRejected result = true := by
  rw [Refuses, acknowledges_iff, ← action?_eq_none]
  cases action? item <;> simp

instance : DecidablePred Silent := fun item =>
  decidable_of_iff ((action? item).isNone = true) (Option.isNone_iff_eq_none.trans action?_eq_none)

instance : DecidablePred Acknowledges := fun item =>
  decidable_of_iff ((action? item).any (fun result => !isRejected result) = true) (by
    rw [acknowledges_iff, Option.any_eq_true]
    simp only [Bool.not_eq_true'])

instance : DecidablePred Refuses := fun item =>
  inferInstanceAs (Decidable (¬ Acknowledges item ∧ ¬ Silent item))

theorem Silent.not_acknowledges {item : Json} (h : Silent item) : ¬ Acknowledges item :=
  fun ⟨action, result, rest, _, hitem, _⟩ => h action result rest hitem

theorem not_refuses_iff {item : Json} : ¬ Refuses item ↔ Acknowledges item ∨ Silent item := by
  rw [Refuses, not_and_or, not_not, not_not]

/-- An item that does not acknowledge its document refuses it or is silent. -/
theorem countP_not_acknowledges (items : List Json) :
    items.countP (¬ Acknowledges ·) = items.countP (Refuses ·) + items.countP (Silent ·) := by
  induction items with
  | nil => rfl
  | cons item items ih =>
    rw [List.countP_cons, List.countP_cons, List.countP_cons, ih]
    by_cases hsilent : Silent item
    · simp [Refuses, hsilent, hsilent.not_acknowledges, Nat.add_assoc]
    · by_cases hack : Acknowledges item
      · simp [Refuses, hsilent, hack]
      · simp [Refuses, hsilent, hack, Nat.add_right_comm]

/-! ## Replies -/

/-- What an item says of its document, nothing if it is silent. -/
def resultOf (item : Json) : Json := (action? item).getD .null

/-- How an item is reported that does not acknowledge its document. -/
def complaint (item : Json) : String := reason (resultOf item)

/-- The rejected results are those of the items that refuse, in order. -/
theorem filter_isRejected (items : List Json) :
    (items.filterMap action?).filter isRejected = (items.filter (Refuses ·)).map resultOf := by
  induction items with
  | nil => rfl
  | cons item items ih =>
    cases hitem : action? item with
    | none =>
      have hno : ¬ Refuses item := fun h => h.2 (action?_eq_none.mp hitem)
      rw [List.filterMap_cons_none hitem, ih, List.filter_cons_of_neg (by simpa using hno)]
    | some result =>
      have hresult : resultOf item = result := by rw [resultOf, hitem, Option.getD_some]
      rw [List.filterMap_cons_some hitem]
      cases hrejected : isRejected result with
      | true =>
        have hyes : Refuses item := refuses_iff.mpr ⟨result, hitem, hrejected⟩
        rw [List.filter_cons_of_pos hrejected, List.filter_cons_of_pos (by simpa using hyes), ih,
          List.map_cons, hresult]
      | false =>
        have hno : ¬ Refuses item := fun h => h.1 (acknowledges_iff.mpr ⟨result, hitem, hrejected⟩)
        rw [List.filter_cons_of_neg (by simp [hrejected]),
          List.filter_cons_of_neg (by simpa using hno), ih]

/-- What a reply comes to by its errors flag and its items. -/
def told (errors : Bool) (items : List Json) : BulkReply where
  errors := errors
  items := items.length
  failed := items.countP (Refuses ·)
  firstError := (items.find? (Refuses ·)).map complaint

theorem ofJson_of_flag {j : Json} {errors : Bool} (h : j.get? "errors" = some (.bool errors)) :
    ofJson j = .ok (told errors (listed j)) := by
  have hfailed : (((listed j).filterMap action?).filter isRejected).length =
      (listed j).countP (Refuses ·) := by
    rw [filter_isRejected, List.length_map, List.countP_eq_length_filter]
  have hfirst : (((listed j).filterMap action?).filter isRejected).head?.map reason =
      ((listed j).find? (Refuses ·)).map complaint := by
    rw [filter_isRejected, List.head?_map, List.head?_filter, Option.map_map]
    rfl
  rw [told, ← hfailed, ← hfirst, ofJson, h]
  rfl

/-- A reply is read exactly where it has an errors flag. -/
theorem ofJson_eq_ok {j : Json} {r : BulkReply} : ofJson j = .ok r ↔
    j.get? "errors" = some (.bool r.errors) ∧ r = told r.errors (listed j) := by
  constructor
  · intro h
    cases hflag : (j.get? "errors").bind Json.asBool? with
    | none =>
      rw [ofJson, hflag] at h
      exact nomatch h
    | some errors =>
      obtain ⟨flag, hj, hbool⟩ := Option.bind_eq_some_iff.mp hflag
      rw [Json.asBool?_eq_some] at hbool
      rw [hbool] at hj
      obtain rfl := Except.ok.inj ((ofJson_of_flag hj).symm.trans h)
      exact ⟨hj, rfl⟩
  · rintro ⟨hflag, hr⟩
    rw [ofJson_of_flag hflag, ← hr]

/-- A reply that takes the body: the errors flag is off and no listed item refuses its document. -/
def Takes (j : Json) : Prop :=
  j.get? "errors" = some (.bool false) ∧ ∀ item ∈ listed j, Acknowledges item ∨ Silent item

theorem isSuccess_iff {j : Json} {r : BulkReply} (h : ofJson j = .ok r) :
    r.isSuccess = true ↔ Takes j := by
  obtain ⟨hflag, hr⟩ := ofJson_eq_ok.mp h
  have hfailed : r.failed = (listed j).countP (Refuses ·) := congrArg failed hr
  rw [isSuccess, hfailed, Takes, hflag, Bool.and_eq_true, Bool.not_eq_true', decide_eq_true_iff,
    List.countP_eq_zero]
  simp only [decide_eq_true_iff, not_refuses_iff, Option.some.injEq, Json.bool.injEq]

theorem accepted_ofJson {j : Json} : accepted (ofJson j) = true ↔ Takes j := by
  cases h : ofJson j with
  | ok r => exact isSuccess_iff h
  | error e =>
    refine ⟨nofun, fun htakes => ?_⟩
    rw [ofJson_of_flag htakes.1] at h
    exact nomatch h

theorem failed_add_silent {j : Json} {r : BulkReply} (h : ofJson j = .ok r) :
    r.failed + (listed j).countP (Silent ·) = (listed j).countP (¬ Acknowledges ·) := by
  rw [countP_not_acknowledges, (ofJson_eq_ok.mp h).2]
  rfl

theorem Takes.acknowledged_iff {j : Json} (h : Takes j) :
    (∀ item ∈ listed j, Acknowledges item) ↔ ∀ item ∈ listed j, ¬ Silent item :=
  forall₂_congr fun item hitem =>
    ⟨fun hack hsilent => hsilent.not_acknowledges hack, (h.2 item hitem).resolve_right⟩

/-- That a reply accounts for the documents of its items: it counts the ones that are not
    acknowledged, reports the first of them, and is no success unless all are. -/
structure Accounts (j : Json) (r : BulkReply) : Prop where
  failed_eq : r.failed = (listed j).countP (¬ Acknowledges ·)
  firstError_eq : r.firstError = ((listed j).find? (¬ Acknowledges ·)).map complaint
  acknowledged : r.isSuccess = true → r.errors = false ∧ ∀ item ∈ listed j, Acknowledges item

theorem accounts_iff {j : Json} {r : BulkReply} (h : ofJson j = .ok r) :
    Accounts j r ↔ ∀ item ∈ listed j, ¬ Silent item := by
  obtain ⟨hflag, hr⟩ := ofJson_eq_ok.mp h
  have hcount := failed_add_silent h
  constructor
  · intro haccounts
    have hnone : (listed j).countP (Silent ·) = 0 := by
      rw [haccounts.failed_eq] at hcount
      omega
    simpa using List.countP_eq_zero.mp hnone
  · intro hspeak
    have hnone : (listed j).countP (Silent ·) = 0 := List.countP_eq_zero.mpr (by simpa using hspeak)
    refine ⟨by omega, ?_, fun hsuccess => ?_⟩
    · rw [hr]
      refine congrArg (Option.map complaint) (List.find?_congr fun item hitem => ?_)
      exact decide_eq_decide.mpr (and_iff_left (hspeak item hitem))
    · have htakes := (isSuccess_iff h).mp hsuccess
      rw [htakes.1, Option.some.injEq, Json.bool.injEq] at hflag
      exact ⟨hflag.symm, htakes.acknowledged_iff.mpr hspeak⟩

end Search.BulkReply

/-! ## Deliveries -/

theorem Script.firstAccepted_eq_iff {script : Script} {n : ℕ} :
    script.firstAccepted = (n + 1 : ℕ) ↔
      accepted (script n) = true ∧ ∀ i < n, accepted (script i) = false := by
  constructor
  · intro h
    have hbefore : ∀ i < n, accepted (script i) = false := by
      intro i hi
      rw [← Bool.not_eq_true]
      intro hok
      have hle : script.firstAccepted ≤ (i + 1 : ℕ) :=
        iInf_le (fun i : {i // accepted (script i) = true} => ((i.1 + 1 : ℕ) : ℕ∞)) ⟨i, hok⟩
      rw [h, Nat.cast_le] at hle
      omega
    refine ⟨?_, hbefore⟩
    by_contra hno
    have hlt : ((n + 1 : ℕ) : ℕ∞) < script.firstAccepted := by
      refine lt_firstAccepted fun i hi => ?_
      rcases Nat.lt_succ_iff_lt_or_eq.mp hi with hlt | rfl
      · exact hbefore i hlt
      · exact Bool.not_eq_true _ ▸ hno
    exact hlt.ne' h
  · rintro ⟨hn, hbefore⟩
    exact firstAccepted_eq hbefore hn

namespace Writer

open Search.BulkReply

variable {Body σ : Type}

/-- A delivery is written by its first accepted request. -/
theorem path_write_written [Sendable Body] {w : Writer} {body : Body} {documents : ℕ}
    {script : Script} {es : List (Event (Site Body))} {d : Delivery}
    (h : (w.write body documents).Path es (.done d)) (hscript : Follows script es) (k : ℕ) :
    d = .written (k + 1) ↔ Sendable.isEmpty body = false ∧ k < w.tries ∧
      accepted (script k) = true ∧ ∀ i < k, accepted (script i) = false := by
  rw [write] at h
  split at h
  next hempty =>
    obtain ⟨rfl, rfl⟩ := path_done.mp h
    refine iff_of_false (fun hk => ?_) fun hwritten => ?_
    · exact Nat.succ_ne_zero k (Delivery.written.inj hk).symm
    · exact Bool.false_ne_true (hwritten.1.symm.trans hempty)
  next hempty =>
    obtain ⟨refusals, last, hwent⟩ := went_attempts h
    obtain ⟨hrefusals, rfl⟩ := hwent.replies hscript
    rw [(hwent.ends hrefusals).1.eq_written_iff, Script.firstAccepted_eq_iff, Nat.succ_le_iff,
      and_comm, and_iff_right (Bool.eq_false_of_not_eq_true hempty)]

theorem accepted_answer {answer : Except Error Json} :
    accepted (answer >>= ofJson) = true ↔ ∃ j, answer = .ok j ∧ Takes j := by
  cases answer with
  | error e => exact ⟨nofun, fun ⟨j, hj, _⟩ => nomatch hj⟩
  | ok j => exact accepted_ofJson.trans ⟨fun h => ⟨j, rfl, h⟩, fun ⟨_, rfl, h⟩ => h⟩

/-- A reply fails by its errors flag or by an item that refuses its document, counts those items and
    reports the first of them; what it leaves out of the items without an acknowledgement are the
    silent ones, so it accounts for all of them exactly where there is no silent one. A delivery is
    written by the first reply without a failure, and if that is the reply, it acknowledges every
    document exactly where none of its items is silent. -/
theorem written_unless_refused {j : Json} {r : Search.BulkReply} (hr : ofJson j = .ok r) :
    j.get? "errors" = some (.bool r.errors) ∧ r.items = (listed j).length ∧
    r.failed + (listed j).countP (Silent ·) = (listed j).countP (¬ Acknowledges ·) ∧
    r.firstError = ((listed j).find? (Refuses ·)).map complaint ∧
    (r.isSuccess = true ↔ Takes j) ∧
    (Accounts j r ↔ ∀ item ∈ listed j, ¬ Silent item) ∧
    ∀ {Body σ : Type} [Sendable Body] (w : Writer) (body : Body) (documents : ℕ)
      (script : ℕ → Except Error Json) (h : Handler (Site Body) σ) (s : σ),
      Follows (fun i => script i >>= ofJson) ((w.write body documents).trace h s) →
      ∃ d, ((w.write body documents).run h s).1 = .ok d ∧
        (∀ k, d = .written (k + 1) ↔ Sendable.isEmpty body = false ∧ k < w.tries ∧
          (∃ j, script k = .ok j ∧ Takes j) ∧ ∀ i < k, ∀ j, script i = .ok j → ¬ Takes j) ∧
        ∀ k, script k = .ok j → d = .written (k + 1) →
          ((∀ item ∈ listed j, Acknowledges item) ↔ ∀ item ∈ listed j, ¬ Silent item) := by
  obtain ⟨hflag, htold⟩ := ofJson_eq_ok.mp hr
  refine ⟨hflag, congrArg items htold, failed_add_silent hr, congrArg firstError htold,
    isSuccess_iff hr, accounts_iff hr, ?_⟩
  intro Body σ _ w body documents script h s hscript
  obtain ⟨d, hd, hpath⟩ := (neverStops_write w body documents).exists_run h s
  have hwritten : ∀ k, d = .written (k + 1) ↔ Sendable.isEmpty body = false ∧ k < w.tries ∧
      (∃ j, script k = .ok j ∧ Takes j) ∧ ∀ i < k, ∀ j, script i = .ok j → ¬ Takes j := by
    intro k
    rw [path_write_written hpath hscript k]
    simp only [accepted_answer, ← Bool.not_eq_true, not_exists, not_and]
  refine ⟨d, hd, hwritten, fun k hj hk => ?_⟩
  obtain ⟨-, -, ⟨j', hj', htakes⟩, -⟩ := (hwritten k).mp hk
  obtain rfl := Except.ok.inj (hj.symm.trans hj')
  exact htakes.acknowledged_iff

/-- A body of two documents. -/
def twoDocuments : BulkBody := sampleBody ++ sampleBody

/-- A reply to them, of which the first item acknowledges its document and the second is silent. -/
def halfSilent : Json :=
  .object [("errors", .bool false),
    ("items", .array [.object [("index", .object [("status", .nat 201)])], .object []])]

/-- Surroundings in which every bulk request has that reply and any other query fails. -/
def silentSite : Handler (Site BulkBody) Unit
  | .index (.bulk _), s => (ofJson halfSilent, s)
  | r, s => Site.failing r s

theorem written_unless_refused_silent :
    ofJson halfSilent = .ok { items := 2 } ∧
      (listed halfSilent).countP (¬ Acknowledges ·) = 1 ∧ ¬ Accounts halfSilent { items := 2 } ∧
      Follows (fun _ => .ok halfSilent >>= ofJson)
        ((write ⟨3, 100⟩ twoDocuments 2).trace silentSite ()) ∧
      ((write ⟨3, 100⟩ twoDocuments 2).run silentSite ()).1 = .ok (.written 1) ∧
      ¬ ∀ item ∈ listed halfSilent, Acknowledges item := by
  have hscript : Follows (fun _ => .ok halfSilent >>= ofJson)
      ((write ⟨3, 100⟩ twoDocuments 2).trace silentSite ()) := by
    unfold Follows
    cbv
  have htakes : Takes halfSilent := ⟨rfl, by decide⟩
  have hsilent : ¬ ∀ item ∈ listed halfSilent, ¬ Silent item := by decide
  have hr : ofJson halfSilent = .ok { items := 2 } := rfl
  obtain ⟨-, -, hcount, -, -, haccounts, hdelivery⟩ := written_unless_refused hr
  obtain ⟨d, hd, hwritten, hacknowledged⟩ :=
    hdelivery ⟨3, 100⟩ twoDocuments 2 (fun _ => .ok halfSilent) silentSite () hscript
  obtain rfl : d = .written 1 := (hwritten 0).mpr
    ⟨rfl, by decide, ⟨halfSilent, rfl, htakes⟩, fun i hi => (Nat.not_lt_zero i hi).elim⟩
  exact ⟨hr, hcount.symm, fun h => hsilent (haccounts.mp h), hscript, hd,
    fun h => hsilent ((hacknowledged 0 rfl rfl).mp h)⟩

end Writer

end LedgerSearch
