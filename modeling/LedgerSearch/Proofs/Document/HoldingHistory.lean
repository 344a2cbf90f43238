import Mathlib
import LedgerSearch.Memory.Sample
import LedgerSearch.Proofs.Document.BalanceLog

/-
  The balance documents of one holding. What a change log says of a holding is a history of its own
  (`HoldingRecord.ofChanges`), and the documents of the holding are those of its history, each record
  compared with the one before it, whatever else the log holds. Where the history never jumps
  (`HoldingRecord.Follows`), the differences add up to the change from its first balance to its last
  (`BalanceDoc.moves_of_holding`).
-/

namespace LedgerSearch

/-! ## Histories -/

/-- What one record of a change log says of a holding. -/
inductive HoldingRecord where
  | stated (balance : Int64)
  | opened (balance : Int64)
  | updated (balance : Int64)
deriving DecidableEq

namespace HoldingRecord

/-- The balance that a record tells. -/
def balance : HoldingRecord → Int64
  | .stated b | .opened b | .updated b => b

/-- The new balance and the difference that a record tells of, `before` being the balance in the
    record before it. A balance that is stated, or written again, is no move. -/
def move? (before : Option Int64) : HoldingRecord → Option (Int64 × Int)
  | .stated _ => none
  | .opened b => some (b, b.toInt)
  | .updated b =>
    if b = before.getD 0 then none else some (b, b.toInt - (before.getD 0).toInt)

/-- The moves of the records, the first of them behind the balance `before`. -/
def movesAfter (before : Option Int64) (rs : List HoldingRecord) : List (Int64 × Int) :=
  (List.zipWith move? (before :: rs.map fun r => some r.balance) rs).reduceOption

/-- The moves of a history, each record compared with the one right before it. -/
def moves (rs : List HoldingRecord) : List (Int64 × Int) := movesAfter none rs

/-- A record that may come behind `p`: it states the balance in `p` again, or updates it. -/
def Follows (p : HoldingRecord) : HoldingRecord → Prop
  | .stated b => b = p.balance
  | .opened _ => False
  | .updated _ => True

instance (p r : HoldingRecord) : Decidable (p.Follows r) :=
  match r with
  | .stated b => inferInstanceAs (Decidable (b = p.balance))
  | .opened _ => isFalse id
  | .updated _ => isTrue trivial

/-- The balance that a history starts from: what its first record states, or nothing. -/
def initialBalance (rs : List HoldingRecord) : Int :=
  match rs.head? with
  | some (.stated b) => b.toInt
  | _ => 0

/-- The balance in the last record, zero where there is none. -/
def finalBalance (rs : List HoldingRecord) : Int := (rs.getLast?.map (·.balance.toInt)).getD 0

theorem movesAfter_cons (before : Option Int64) (r : HoldingRecord) (rest : List HoldingRecord) :
    movesAfter before (r :: rest) = (r.move? before).toList ++ movesAfter (some r.balance) rest := by
  simp only [movesAfter, List.map_cons, List.zipWith_cons_cons]
  cases r.move? before with
  | none => exact List.reduceOption_cons_of_none _
  | some m => exact List.reduceOption_cons_of_some _ _

theorem finalBalance_cons_cons (p r : HoldingRecord) (rest : List HoldingRecord) :
    finalBalance (p :: r :: rest) = finalBalance (r :: rest) := by
  rw [finalBalance, List.getLast?_cons_cons, finalBalance]

/-- What an update behind a balance adds to the differences, a move or not. -/
theorem sum_move?_updated (before : Option Int64) (b : Int64) :
    (((updated b).move? before).toList.map (·.2)).sum = b.toInt - (before.getD 0).toInt := by
  rw [move?]
  split
  · next heq => simp [heq]
  · simp

/-- From a record on, the moves add up to the change of its balance. -/
theorem sum_movesAfter {p : HoldingRecord} {rs : List HoldingRecord}
    (h : (p :: rs).IsChain Follows) :
    ((movesAfter (some p.balance) rs).map (·.2)).sum =
      finalBalance (p :: rs) - p.balance.toInt := by
  induction rs generalizing p with
  | nil => simp [movesAfter, finalBalance]
  | cons r rest ih =>
    obtain ⟨hr, hrest⟩ := List.isChain_cons_cons.mp h
    rw [movesAfter_cons, List.map_append, List.sum_append, ih hrest, finalBalance_cons_cons]
    cases r with
    | stated b =>
      obtain rfl : b = p.balance := hr
      simp [move?, balance]
    | opened b => exact hr.elim
    | updated b =>
      rw [sum_move?_updated]
      simp only [balance, Option.getD_some]
      omega

/-- The moves of a history that never jumps add up to the change from its first balance to its
    last. -/
theorem sum_moves {rs : List HoldingRecord} (h : rs.IsChain Follows) :
    ((moves rs).map (·.2)).sum = finalBalance rs - initialBalance rs := by
  cases rs with
  | nil => rfl
  | cons r rest =>
    rw [moves, movesAfter_cons, List.map_append, List.sum_append, sum_movesAfter h]
    cases r with
    | stated b => simp [move?, balance, initialBalance]
    | opened b => simp [move?, balance, initialBalance]
    | updated b =>
      rw [sum_move?_updated]
      simp [balance, initialBalance]

end HoldingRecord

/-- The balance of the holding that an entry carries, if it is an entry of the holding. -/
def LedgerEntry.balanceOf? (h : Holding) (e : LedgerEntry) : Option Int64 :=
  e.balance?.bind fun (holding, balance) => if holding = h then some balance else none

namespace HoldingRecord

/-- What a record of a log says of a holding; that an entry is gone says nothing of its balance. -/
def ofChange? (h : Holding) : EntryChange → Option HoldingRecord
  | .state e => (e.balanceOf? h).map .stated
  | .created e => (e.balanceOf? h).map .opened
  | .updated e => (e.balanceOf? h).map .updated
  | .removed _ => none

/-- The history of a holding in a change log. -/
def ofChanges (h : Holding) (changes : List EntryChange) : List HoldingRecord :=
  changes.filterMap (ofChange? h)

theorem ofChanges_cons (h : Holding) (change : EntryChange) (rest : List EntryChange) :
    ofChanges h (change :: rest) = (ofChange? h change).toList ++ ofChanges h rest := by
  unfold ofChanges
  cases hr : ofChange? h change with
  | none => exact List.filterMap_cons_none hr
  | some r => exact List.filterMap_cons_some hr

theorem ofChange?_of_none {h : Holding} {change : EntryChange} (hb : change.balance? = none) :
    ofChange? h change = none := by
  cases change with
  | state e | created e | updated e =>
    simp [ofChange?, LedgerEntry.balanceOf?, show e.balance? = none from hb]
  | removed key => rfl

theorem ofChange?_of_ne {h : Holding} {change : EntryChange} {p : Holding × Int64}
    (hb : change.balance? = some p) (hne : p.1 ≠ h) : ofChange? h change = none := by
  cases change with
  | state e | created e | updated e =>
    simp [ofChange?, LedgerEntry.balanceOf?, show e.balance? = some p from hb, hne]
  | removed key => rfl

end HoldingRecord

/-! ## Documents -/

namespace BalanceDoc

variable {c : Context} {seen : List (Holding × Int64)} {last : UInt8} {rest : List EntryChange}
  {docs : List BalanceDoc}

/-- A record of a holding gives the document of its move, if it is one, and is what later records of
    the holding are compared with. -/
theorem exists_ofChangesAfter {change : EntryChange} {p : Holding × Int64}
    (hb : change.balance? = some p) (hdocs : ofChangesAfter c seen last (change :: rest) = .ok docs) :
    ∃ r own index more, HoldingRecord.ofChange? p.1 change = some r ∧ r.balance = p.2 ∧
      ofChangesAfter c (p :: seen) index rest = .ok more ∧ docs = own ++ more ∧
      (∀ d ∈ own, d.holding = p.1) ∧
      own.map (fun d => (d.balance, d.diff.toInt)) = (r.move? (seen.lookup p.1)).toList := by
  obtain ⟨h, balance⟩ := p
  cases change with
  | removed key => cases hb
  | state e =>
    replace hb : e.balance? = some (h, balance) := hb
    rw [ofChangesAfter, hb] at hdocs
    exact ⟨.stated balance, [], last, docs,
      by simp [HoldingRecord.ofChange?, LedgerEntry.balanceOf?, hb], rfl, hdocs, rfl, by simp, rfl⟩
  | created e =>
    replace hb : e.balance? = some (h, balance) := hb
    rw [ofChangesAfter, hb] at hdocs
    obtain ⟨index, -, hdocs⟩ := Outcome.bind_eq_ok.mp hdocs
    obtain ⟨more, hmore, hdocs⟩ := Outcome.bind_eq_ok.mp hdocs
    obtain rfl := Except.ok.inj hdocs
    exact ⟨.opened balance, [numbered c index h balance balance], index, more,
      by simp [HoldingRecord.ofChange?, LedgerEntry.balanceOf?, hb], rfl, hmore, rfl,
      by simp [numbered], rfl⟩
  | updated e =>
    replace hb : e.balance? = some (h, balance) := hb
    have hrecord : HoldingRecord.ofChange? h (.updated e) = some (.updated balance) := by
      simp [HoldingRecord.ofChange?, LedgerEntry.balanceOf?, hb]
    rw [ofChangesAfter, hb] at hdocs
    obtain ⟨diff, hdiff, hdocs⟩ := Outcome.bind_eq_ok.mp hdocs
    have hd := toInt_of_checkedSubInt64 hdiff
    -- there is no difference exactly where the balance is the one before
    have hzero : diff = 0 ↔ balance = (seen.lookup h).getD 0 := by
      rw [← Int64.toInt_inj, ← Int64.toInt_inj, hd, Int64.toInt_zero]
      omega
    split at hdocs
    · next hnone =>
      refine ⟨.updated balance, [], last, docs, hrecord, rfl, hdocs, rfl, by simp, ?_⟩
      rw [HoldingRecord.move?, if_pos (hzero.mp hnone)]
      rfl
    · next hsome =>
      obtain ⟨index, -, hdocs⟩ := Outcome.bind_eq_ok.mp hdocs
      obtain ⟨more, hmore, hdocs⟩ := Outcome.bind_eq_ok.mp hdocs
      obtain rfl := Except.ok.inj hdocs
      refine ⟨.updated balance, [numbered c index h balance diff], index, more, hrecord, rfl, hmore,
        rfl, by simp [numbered], ?_⟩
      rw [HoldingRecord.move?, if_neg (mt hzero.mpr hsome), ← hd]
      rfl

/-- The documents of a holding in the rest of a log, of which the last balance before is known. -/
theorem moves_of_changesAfter {h : Holding} {changes : List EntryChange}
    (hdocs : ofChangesAfter c seen last changes = .ok docs) :
    (docs.filter (·.holding = h)).map (fun d => (d.balance, d.diff.toInt)) =
      HoldingRecord.movesAfter (seen.lookup h) (HoldingRecord.ofChanges h changes) := by
  induction changes generalizing seen last docs with
  | nil =>
    obtain rfl := Except.ok.inj hdocs
    rfl
  | cons change rest ih =>
    cases hb : change.balance? with
    | none =>
      rw [ofChangesAfter_of_none hb] at hdocs
      rw [ih hdocs, HoldingRecord.ofChanges_cons, HoldingRecord.ofChange?_of_none hb]
      rfl
    | some p =>
      obtain ⟨r, own, index, more, hr, hbalance, hmore, rfl, hown, hmove⟩ :=
        exists_ofChangesAfter hb hdocs
      rw [List.filter_append, List.map_append, ih hmore, List.lookup_cons]
      by_cases hp : p.1 = h
      · subst hp
        have hall : own.filter (·.holding = p.1) = own :=
          List.filter_eq_self.mpr fun d hd => decide_eq_true (hown d hd)
        rw [hall, hmove, HoldingRecord.ofChanges_cons, hr, Option.toList_some, List.singleton_append,
          HoldingRecord.movesAfter_cons, hbalance, beq_self_eq_true]
      · have hnone : own.filter (·.holding = h) = [] :=
          List.filter_eq_nil_iff.mpr fun d hd hh => hp ((hown d hd).symm.trans (of_decide_eq_true hh))
        rw [hnone, HoldingRecord.ofChanges_cons, HoldingRecord.ofChange?_of_ne hb hp,
          beq_false_of_ne (Ne.symm hp)]
        rfl

/-- The documents of a holding are, in order, one for each record that opens it, with its whole
    balance as difference, and one for each update of its balance to another than in the record of
    the holding before it, zero where there is none, with the difference of the two. And where every
    balance that is stated behind the first record is the one before it, and the holding is opened
    by its first record or by none, the differences add up to the last balance less the one that was
    stated first. -/
theorem moves_of_holding {changes : List EntryChange} (hdocs : ofChanges c changes = .ok docs)
    (h : Holding) :
    (docs.filter (·.holding = h)).map (fun d => (d.balance, d.diff.toInt)) =
      HoldingRecord.moves (HoldingRecord.ofChanges h changes) ∧
    ((HoldingRecord.ofChanges h changes).IsChain HoldingRecord.Follows →
      ((docs.filter (·.holding = h)).map (·.diff.toInt)).sum =
        HoldingRecord.finalBalance (HoldingRecord.ofChanges h changes) -
          HoldingRecord.initialBalance (HoldingRecord.ofChanges h changes)) := by
  have hmoves : (docs.filter (·.holding = h)).map (fun d => (d.balance, d.diff.toInt)) =
      HoldingRecord.moves (HoldingRecord.ofChanges h changes) := moves_of_changesAfter hdocs
  refine ⟨hmoves, fun hchain => ?_⟩
  rw [← HoldingRecord.sum_moves hchain, ← hmoves, List.map_map]
  rfl

open Memory.Sample in
/-- Records of two accounts and of a name that one of them holds, and the removal of the other. -/
def interleavedLog : List EntryChange := [
  .state (balanceEntry alice 1000),
  .created (balanceEntry bob 500),
  .updated (balanceEntry alice 900),
  .created ⟨0, .data ⟨⟨alice⟩, [], []⟩, none⟩,
  .removed (.account ⟨bob⟩),
  .state (balanceEntry alice 900),
  .updated (balanceEntry bob 500),
  .updated (balanceEntry alice 1200)]

/-- Between the others, the balance of one account goes down by 100 and up by 300. -/
theorem moves_of_holding_interleaved :
    ∃ (c : Context) (h : Holding) (docs : List BalanceDoc),
      ofChanges c interleavedLog = .ok docs ∧
      (HoldingRecord.ofChanges h interleavedLog).IsChain HoldingRecord.Follows ∧
      (docs.filter (·.holding = h)).map (fun d => (d.balance, d.diff.toInt)) =
        [(900, -100), (1200, 300)] ∧
      ((docs.filter (·.holding = h)).map (·.diff.toInt)).sum = 200 := by
  have hdocs : (ofChanges ⟨{}, .fee, ⟨0, Nat.zero_le _⟩⟩ interleavedLog).isOk = true := by
    decide +kernel
  cases hlog : ofChanges ⟨{}, .fee, ⟨0, Nat.zero_le _⟩⟩ interleavedLog with
  | error failure =>
    rw [hlog] at hdocs
    cases hdocs
  | ok docs =>
    have hrecords : HoldingRecord.ofChanges ⟨⟨Memory.Sample.alice⟩, .native⟩ interleavedLog =
        [.stated 1000, .updated 900, .stated 900, .updated 1200] := by
      decide +kernel
    obtain ⟨hmoves, hsum⟩ := moves_of_holding hlog ⟨⟨Memory.Sample.alice⟩, .native⟩
    rw [hrecords] at hmoves hsum
    refine ⟨_, _, docs, hlog, ?_, hmoves.trans (by decide), (hsum (by decide)).trans (by decide)⟩
    rw [hrecords]
    decide

end BalanceDoc

end LedgerSearch
