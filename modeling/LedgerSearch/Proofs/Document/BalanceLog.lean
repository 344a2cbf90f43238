import Mathlib
import LedgerSearch.Proofs.Serialize.Demands
import LedgerSearch.Proofs.Token.Effect

/-
  What a change log says of balances, apart from documents and tokens: the holdings it opens and the
  differences by which it moves balances. The documents of a log are as many as these
  (`BalanceDoc.length_ofChanges`), and whether it has documents depends on these alone
  (`BalanceDoc.meets_ofChanges`).
-/

namespace LedgerSearch

/-- The balance a record tells of. -/
def EntryChange.balance? : EntryChange → Option (Holding × Int64)
  | .state e => e.balance?
  | .created e => e.balance?
  | .updated e => e.balance?
  | .removed _ => none

/-- What a record says of a holding. -/
inductive BalanceStep where
  | opened
  /-- The balance differs by `d` from the nearest earlier one of the log, or from zero. -/
  | moved (d : Int)
deriving DecidableEq

namespace BalanceStep

/-- Whether there is a document of the step: a balance that was written again without a difference
    has none. -/
def isDocumented : BalanceStep → Bool
  | .opened => true
  | .moved d => d ≠ 0

/-- The difference, if there is one, is a 64-bit number. -/
def InRange : BalanceStep → Prop
  | .opened => True
  | .moved d => Int64.minValue.toInt ≤ d ∧ d ≤ Int64.maxValue.toInt

instance : DecidablePred InRange
  | .opened => isTrue trivial
  | .moved d =>
    inferInstanceAs (Decidable (Int64.minValue.toInt ≤ d ∧ d ≤ Int64.maxValue.toInt))

/-- What the documents of a log demand, after those up to `last`. -/
def demands (last : Nat) : List BalanceStep → List Demand
  | [] => []
  | .opened :: rest => [.place "effect_index" (last + 1)] ++ demands (last + 1) rest
  | .moved d :: rest =>
    [.difference d] ++ if d = 0 then demands last rest
      else [.place "effect_index" (last + 1)] ++ demands (last + 1) rest

theorem difference_mem_demands {last : Nat} {steps : List BalanceStep} {d : Int} :
    .difference d ∈ demands last steps ↔ .moved d ∈ steps := by
  induction steps generalizing last with
  | nil => simp [demands]
  | cons step rest ih =>
    cases step with
    | opened => simp [demands, ih]
    | moved d' =>
      unfold demands
      split <;> simp [ih]

/-- The documents of a log take the places behind `last`, one each. -/
theorem place_mem_demands {last : Nat} {steps : List BalanceStep} {field : String} {k : Nat} :
    .place field k ∈ demands last steps ↔
      .place field k ∈ effectPlaces last (steps.countP isDocumented) := by
  induction steps generalizing last with
  | nil => simp [demands, effectPlaces]
  | cons step rest ih =>
    cases step with
    | opened =>
      have hcount : (opened :: rest).countP isDocumented = rest.countP isDocumented + 1 :=
        List.countP_cons_of_pos rfl
      rw [demands, hcount, effectPlaces_succ, List.mem_append, List.mem_append, ih]
    | moved d =>
      unfold demands
      split
      · next hd =>
        have hcount : (moved d :: rest).countP isDocumented = rest.countP isDocumented :=
          List.countP_cons_of_neg (by simp [isDocumented, hd])
        rw [hcount, List.mem_append, ih]
        simp
      · next hd =>
        have hcount : (moved d :: rest).countP isDocumented = rest.countP isDocumented + 1 :=
          List.countP_cons_of_pos (by simp [isDocumented, hd])
        rw [hcount, effectPlaces_succ, List.mem_append, List.mem_append, List.mem_append, ih]
        simp

end BalanceStep

/-- What a record says of a holding after the balances in `seen`, newest first. -/
def EntryChange.balanceStep? (seen : List (Holding × Int64)) : EntryChange → Option BalanceStep
  | .created e => e.balance?.map fun _ => .opened
  | .updated e => e.balance?.map fun p => .moved (p.2.toInt - ((seen.lookup p.1).getD 0).toInt)
  | .state _ => none
  | .removed _ => none

namespace BalanceDoc

/-- The moves that changes make, each compared with the balances `seen` before it. -/
def stepsAfter (seen : List (Holding × Int64)) : List EntryChange → List BalanceStep
  | [] => []
  | change :: rest =>
    (change.balanceStep? seen).toList ++ stepsAfter (change.balance?.toList ++ seen) rest

/-- What a change log says of holdings, record by record. -/
def steps (changes : List EntryChange) : List BalanceStep := stepsAfter [] changes

/-- How many documents a change log gives, whether there are numbers for all of them or not. -/
def yield (changes : List EntryChange) : Nat := (steps changes).countP (·.isDocumented)

/-- Every difference of the log is a 64-bit number. -/
def InRange (changes : List EntryChange) : Prop := ∀ s ∈ steps changes, s.InRange

instance (changes : List EntryChange) : Decidable (InRange changes) :=
  inferInstanceAs (Decidable (∀ s ∈ steps changes, s.InRange))

section

variable {c : Context} {seen : List (Holding × Int64)} {last : UInt8} {change : EntryChange}
  {rest : List EntryChange}

theorem stepsAfter_of_none (h : change.balance? = none) :
    stepsAfter seen (change :: rest) = stepsAfter seen rest := by
  have hstep : change.balanceStep? seen = none := by
    cases change with
    | created e => exact Option.map_eq_none_iff.mpr h
    | updated e => exact Option.map_eq_none_iff.mpr h
    | state e => rfl
    | removed key => rfl
  rw [stepsAfter, h, hstep]
  rfl

theorem ofChangesAfter_of_none (h : change.balance? = none) :
    ofChangesAfter c seen last (change :: rest) = ofChangesAfter c seen last rest := by
  cases change with
  | created e => rw [ofChangesAfter, show e.balance? = none from h]
  | updated e => rw [ofChangesAfter, show e.balance? = none from h]
  | state e => rw [ofChangesAfter, show e.balance? = none from h]
  | removed key => rw [ofChangesAfter]

theorem balanceStep?_created {e : LedgerEntry} {p : Holding × Int64} (h : e.balance? = some p) :
    (EntryChange.created e).balanceStep? seen = some .opened :=
  Option.map_eq_some_iff.mpr ⟨p, h, rfl⟩

theorem balanceStep?_updated {e : LedgerEntry} {p : Holding × Int64} (h : e.balance? = some p) :
    (EntryChange.updated e).balanceStep? seen =
      some (.moved (p.2.toInt - ((seen.lookup p.1).getD 0).toInt)) :=
  Option.map_eq_some_iff.mpr ⟨p, h, rfl⟩

end

theorem meets_checkedSubInt64 (a b : Int64) :
    Meets (checkedSubInt64 a b) [.difference (a.toInt - b.toInt)] := by
  apply meets_single
  · intro hmet
    exact ⟨_, if_pos hmet⟩
  · intro hunmet
    exact if_neg hunmet

theorem toInt_of_checkedSubInt64 {a b d : Int64} (h : checkedSubInt64 a b = .ok d) :
    d.toInt = a.toInt - b.toInt := by
  unfold checkedSubInt64 at h
  dsimp only at h
  split at h
  · next hrange =>
    obtain rfl := Except.ok.inj h
    exact Int64.toInt_ofInt_of_le hrange.1 (Int.lt_of_le_of_lt hrange.2 (by decide))
  · exact nomatch h

theorem meets_ofChangesAfter {c : Context} {seen : List (Holding × Int64)} {last : UInt8}
    {changes : List EntryChange} :
    Meets (ofChangesAfter c seen last changes)
      (BalanceStep.demands last.toNat (stepsAfter seen changes)) := by
  induction changes generalizing seen last with
  | nil => exact meets_pure []
  | cons change rest ih =>
    cases hb : change.balance? with
    | none =>
      rw [ofChangesAfter_of_none hb, stepsAfter_of_none hb]
      exact ih
    | some p =>
      obtain ⟨h, balance⟩ := p
      -- a document of this record, and then those of the rest
      have hdocument : ∀ diff : Int64,
          Meets (do
            let index ← nextEffectIndex last
            let docs ← ofChangesAfter c ((h, balance) :: seen) index rest
            pure (numbered c index h balance diff :: docs))
          ([.place "effect_index" (last.toNat + 1)] ++
            BalanceStep.demands (last.toNat + 1) (stepsAfter ((h, balance) :: seen) rest)) := by
        intro diff
        refine (meets_nextEffectIndex last).bind fun index hi => ?_
        rw [← nextEffectIndex_eq_ok hi]
        exact ih.map
      rw [stepsAfter, hb]
      cases change with
      | removed key => exact nomatch hb
      | state e =>
        rw [ofChangesAfter, show e.balance? = _ from hb]
        exact ih
      | created e =>
        rw [ofChangesAfter, balanceStep?_created hb, show e.balance? = _ from hb]
        exact hdocument balance
      | updated e =>
        rw [ofChangesAfter, balanceStep?_updated hb, show e.balance? = _ from hb]
        refine (meets_checkedSubInt64 _ _).bind fun diff hdiff => ?_
        have hd := toInt_of_checkedSubInt64 hdiff
        rw [← hd]
        by_cases hzero : diff = 0
        · rw [if_pos hzero, if_pos (by rw [hzero]; rfl)]
          exact ih
        · have hne : diff.toInt ≠ 0 := fun heq => hzero (Int64.toInt_inj.mp heq)
          rw [if_neg hzero, if_neg hne]
          exact hdocument diff

theorem length_ofChangesAfter {c : Context} {seen : List (Holding × Int64)} {last : UInt8}
    {changes : List EntryChange} {docs : List BalanceDoc}
    (hdocs : ofChangesAfter c seen last changes = .ok docs) :
    docs.length = (stepsAfter seen changes).countP (·.isDocumented) := by
  induction changes generalizing seen last docs with
  | nil =>
    obtain rfl := Except.ok.inj hdocs
    rfl
  | cons change rest ih =>
    cases hb : change.balance? with
    | none =>
      rw [ofChangesAfter_of_none hb] at hdocs
      rw [stepsAfter_of_none hb]
      exact ih hdocs
    | some p =>
      obtain ⟨h, balance⟩ := p
      -- a document of this record, one more than those of the rest
      have hdocument : ∀ {diff : Int64} {docs : List BalanceDoc}, (do
            let index ← nextEffectIndex last
            let docs ← ofChangesAfter c ((h, balance) :: seen) index rest
            pure (numbered c index h balance diff :: docs)) = .ok docs →
          docs.length = (stepsAfter ((h, balance) :: seen) rest).countP (·.isDocumented) + 1 := by
        intro diff docs hdocs
        obtain ⟨index, -, hdocs⟩ := Outcome.bind_eq_ok.mp hdocs
        obtain ⟨more, hmore, hdocs⟩ := Outcome.bind_eq_ok.mp hdocs
        obtain rfl := Except.ok.inj hdocs
        rw [List.length_cons, ih hmore]
      rw [stepsAfter, hb]
      cases change with
      | removed key => exact nomatch hb
      | state e =>
        rw [ofChangesAfter, show e.balance? = _ from hb] at hdocs
        exact ih hdocs
      | created e =>
        rw [ofChangesAfter, show e.balance? = _ from hb] at hdocs
        rw [hdocument hdocs, balanceStep?_created hb]
        exact (List.countP_cons_of_pos rfl).symm
      | updated e =>
        rw [ofChangesAfter, show e.balance? = _ from hb] at hdocs
        obtain ⟨diff, hdiff, hdocs⟩ := Outcome.bind_eq_ok.mp hdocs
        rw [balanceStep?_updated hb, ← toInt_of_checkedSubInt64 hdiff]
        split at hdocs
        · next hzero =>
          rw [ih hdocs, hzero]
          exact (List.countP_cons_of_neg (by decide)).symm
        · next hzero =>
          have hne : diff.toInt ≠ 0 := fun heq => hzero (Int64.toInt_inj.mp heq)
          rw [hdocument hdocs]
          exact (List.countP_cons_of_pos (by simp [BalanceStep.isDocumented, hne])).symm

/-- A change log that has documents has `yield` of them. -/
theorem length_ofChanges {c : Context} {changes : List EntryChange} {docs : List BalanceDoc}
    (h : ofChanges c changes = .ok docs) : docs.length = yield changes :=
  length_ofChangesAfter h

/-- A change log has its documents if the places and differences it demands are there. -/
theorem meets_ofChanges (c : Context) (changes : List EntryChange) :
    Meets (ofChanges c changes) (BalanceStep.demands 0 (steps changes)) :=
  meets_ofChangesAfter

theorem unplaced_demands {changes : List EntryChange} :
    Unplaced (BalanceStep.demands 0 (steps changes)) ↔ 255 < yield changes := by
  rw [yield, ← unplaced_effectPlaces]
  unfold Unplaced
  simp only [BalanceStep.place_mem_demands]

end BalanceDoc

end LedgerSearch
