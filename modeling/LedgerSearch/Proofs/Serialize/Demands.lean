import Mathlib
import LedgerSearch.Serialize.Batch

/-
  What a ledger demands of the numbers its documents are made with: a place for each of its parts in
  a field of the token, and 64 bits for each difference of two balances. Serializing a ledger goes
  through its demands in order and stops at the first that is not met (`Meets`).
-/

namespace LedgerSearch

/-- What a ledger asks of the fields its numbers go into. -/
inductive Demand where
  /-- A one-based place, to fit the field of a token. -/
  | place (field : String) (n : Nat)
  /-- A difference of two balances, to fit 64 bits. -/
  | difference (d : Int)
deriving DecidableEq

namespace Demand

/-- The number fits its field. -/
def Met : Demand → Prop
  | .place _ n => n ≤ 255
  | .difference d => Int64.minValue.toInt ≤ d ∧ d ≤ Int64.maxValue.toInt

instance : DecidablePred Met
  | .place _ n => inferInstanceAs (Decidable (n ≤ 255))
  | .difference d =>
    inferInstanceAs (Decidable (Int64.minValue.toInt ≤ d ∧ d ≤ Int64.maxValue.toInt))

/-- How a demand fails that is not met. -/
def failure : Demand → Failure
  | .place field n => .error (.orderingOverflow field n)
  | .difference _ => .overflow .subtract

end Demand

/-- The first of the demands that is not met. -/
def firstUnmet (ds : List Demand) : Option Demand := ds.find? fun d => !decide d.Met

theorem firstUnmet_eq_none {ds : List Demand} : firstUnmet ds = none ↔ ∀ d ∈ ds, d.Met := by
  unfold firstUnmet
  simp

theorem firstUnmet_eq_some {ds : List Demand} {d : Demand} : firstUnmet ds = some d ↔
    ¬ d.Met ∧ ∃ before after, ds = before ++ d :: after ∧ ∀ p ∈ before, p.Met := by
  unfold firstUnmet
  rw [List.find?_eq_some_iff_append]
  simp

theorem firstUnmet_append {ds ds' : List Demand} :
    firstUnmet (ds ++ ds') = (firstUnmet ds).or (firstUnmet ds') :=
  List.find?_append

/-- The computation succeeds if the demands are met, and fails with the first that is not. -/
def Meets {α : Type} (o : Outcome α) (ds : List Demand) : Prop :=
  match firstUnmet ds with
  | none => ∃ a, o = .ok a
  | some d => o = .error d.failure

section

variable {α β : Type}

theorem meets_pure (a : α) : Meets (pure a : Outcome α) [] := ⟨a, rfl⟩

theorem meets_single {o : Outcome α} {d : Demand} (hmet : d.Met → ∃ a, o = .ok a)
    (hunmet : ¬ d.Met → o = .error d.failure) : Meets o [d] := by
  unfold Meets firstUnmet
  by_cases hd : d.Met
  · simpa [hd] using hmet hd
  · simpa [hd] using hunmet hd

theorem Meets.bind {x : Outcome α} {f : α → Outcome β} {ds ds' : List Demand} (hx : Meets x ds)
    (hf : ∀ a, x = .ok a → Meets (f a) ds') : Meets (x >>= f) (ds ++ ds') := by
  unfold Meets at hx ⊢
  rw [firstUnmet_append]
  cases hd : firstUnmet ds with
  | none =>
    rw [hd] at hx
    obtain ⟨a, ha⟩ := hx
    have h := hf a ha
    rw [ha]
    exact h
  | some d =>
    rw [hd] at hx
    rw [hx]
    rfl

/-- What is done with a result in the end asks for nothing more. -/
theorem Meets.map {x : Outcome α} {f : α → β} {ds : List Demand} (hx : Meets x ds) :
    Meets (x >>= fun a => pure (f a)) ds := by
  have h := hx.bind fun a _ => meets_pure (f a)
  rwa [List.append_nil] at h

theorem Meets.met {o : Outcome α} {ds : List Demand} {a : α} (h : Meets o ds) (ha : o = .ok a) :
    ∀ d ∈ ds, d.Met := by
  rw [← firstUnmet_eq_none]
  unfold Meets at h
  cases hd : firstUnmet ds with
  | none => rfl
  | some d =>
    rw [hd, ha] at h
    exact nomatch h

theorem Meets.exists_ok {o : Outcome α} {ds : List Demand} (h : Meets o ds)
    (hmet : ∀ d ∈ ds, d.Met) : ∃ a, o = .ok a := by
  unfold Meets at h
  rwa [firstUnmet_eq_none.mpr hmet] at h

end

/-! ## What is not met -/

/-- Some place does not fit its field. -/
def Unplaced (ds : List Demand) : Prop := ∃ field n, .place field n ∈ ds ∧ 255 < n

theorem unplaced_of_firstUnmet {ds : List Demand} {field : String} {n : Nat}
    (h : firstUnmet ds = some (.place field n)) : Unplaced ds := by
  obtain ⟨hunmet, before, after, rfl, -⟩ := firstUnmet_eq_some.mp h
  exact ⟨field, n, List.mem_append_right _ List.mem_cons_self, Nat.lt_of_not_le hunmet⟩

theorem unplaced_nil : ¬ Unplaced [] := by
  unfold Unplaced
  simp

theorem unplaced_append {ds ds' : List Demand} :
    Unplaced (ds ++ ds') ↔ Unplaced ds ∨ Unplaced ds' := by
  unfold Unplaced
  simp only [List.mem_append, or_and_right, exists_or]

theorem unplaced_place {field : String} {n : Nat} : Unplaced [.place field n] ↔ 255 < n := by
  unfold Unplaced
  simp

/-- What parts demand that are numbered from zero. -/
theorem mem_flatMap_zipIdx {α : Type} {as : List α} {f : Nat → α → List Demand} {d : Demand} :
    d ∈ (as.zipIdx 0).flatMap (fun p => f p.2 p.1) ↔ ∃ i a, as[i]? = some a ∧ d ∈ f i a := by
  rw [List.mem_flatMap]
  constructor
  · intro h
    obtain ⟨⟨a, i⟩, hmem, hd⟩ := h
    exact ⟨i, a, List.mem_zipIdx_iff_getElem?.mp hmem, hd⟩
  · intro h
    obtain ⟨i, a, ha, hd⟩ := h
    exact ⟨(a, i), List.mem_zipIdx_iff_getElem?.mpr ha, hd⟩

theorem unplaced_zipIdx {α : Type} {as : List α} {f : Nat → α → List Demand} :
    Unplaced ((as.zipIdx 0).flatMap fun p => f p.2 p.1) ↔
      ∃ i a, as[i]? = some a ∧ Unplaced (f i a) := by
  unfold Unplaced
  simp only [mem_flatMap_zipIdx]
  constructor
  · intro h
    obtain ⟨field, n, ⟨i, a, ha, hmem⟩, hn⟩ := h
    exact ⟨i, a, ha, field, n, hmem, hn⟩
  · intro h
    obtain ⟨i, a, ha, field, n, hmem, hn⟩ := h
    exact ⟨field, n, ⟨i, a, ha, hmem⟩, hn⟩

/-! ## Documents written on the way -/

namespace Emit

variable {α β : Type}

theorem outcome_bind (x : Emit α) (f : α → Emit β) :
    (x >>= f).outcome = x.outcome >>= fun a => (f a).outcome := by
  obtain ⟨ds, o⟩ := x
  cases o <;> rfl

theorem outcome_pure (a : α) : (pure a : Emit α).outcome = pure a := rfl

theorem outcome_ofOutcome (o : Outcome α) : (ofOutcome o).outcome = o := rfl

theorem outcome_write (d : Document) : (write d).outcome = pure () := rfl

theorem outcome_writeAll (ds : List Document) : (writeAll ds).outcome = pure () := rfl

end Emit

/-! ## Places -/

theorem meets_orderOfPosition (field : String) {position : Nat} (h : position < 256) :
    Meets (orderOfPosition field position) [.place field (position + 1)] := by
  have hadd : checkedAdd UInt64.size position 1 = .ok (position + 1) := by
    unfold checkedAdd UInt64.size
    rw [if_pos (by omega)]
  unfold orderOfPosition
  rw [hadd]
  apply meets_single
  · intro hmet
    have hlt : position + 1 < 256 := Nat.lt_succ_of_le hmet
    exact ⟨UInt8.ofNat (position + 1), if_pos hlt⟩
  · intro hunmet
    have hlt : ¬ position + 1 < 256 := fun hlt => hunmet (Nat.le_of_lt_succ hlt)
    exact if_neg hlt

/-- The places of `n` effects after `last`. -/
def effectPlaces (last n : Nat) : List Demand :=
  (List.range' (last + 1) n).map (.place "effect_index")

theorem effectPlaces_succ (last n : Nat) :
    effectPlaces last (n + 1) = [.place "effect_index" (last + 1)] ++ effectPlaces (last + 1) n :=
  rfl

theorem mem_effectPlaces {last n : Nat} {d : Demand} :
    d ∈ effectPlaces last n ↔ ∃ k, last < k ∧ k ≤ last + n ∧ d = .place "effect_index" k := by
  unfold effectPlaces
  rw [List.mem_map]
  constructor
  · intro h
    obtain ⟨k, hk, rfl⟩ := h
    rw [List.mem_range'_1] at hk
    exact ⟨k, by omega, by omega, rfl⟩
  · intro h
    obtain ⟨k, hlt, hle, rfl⟩ := h
    exact ⟨k, List.mem_range'_1.mpr (by omega), rfl⟩

theorem unplaced_effectPlaces {n : Nat} : Unplaced (effectPlaces 0 n) ↔ 255 < n := by
  unfold Unplaced
  simp only [mem_effectPlaces]
  constructor
  · intro h
    obtain ⟨field, k, ⟨k', hlt, hle, heq⟩, hk⟩ := h
    obtain ⟨rfl, rfl⟩ := Demand.place.inj heq
    omega
  · intro h
    exact ⟨_, n, ⟨n, by omega, by omega, rfl⟩, h⟩

theorem meets_nextEffectIndex (last : UInt8) :
    Meets (nextEffectIndex last) [.place "effect_index" (last.toNat + 1)] := by
  have hlt := last.toNat_lt
  unfold nextEffectIndex
  apply meets_single
  · intro hmet
    have hle : last.toNat + 1 ≤ 255 := hmet
    have hne : last ≠ 255 := by
      intro heq
      rw [heq] at hle
      exact absurd hle (by decide)
    exact ⟨last + 1, if_neg hne⟩
  · intro hunmet
    have hgt : ¬ last.toNat + 1 ≤ 255 := hunmet
    have hmax : last.toNat = 255 := by omega
    have heq : last = 255 := UInt8.toNat_inj.mp hmax
    rw [if_pos heq, hmax]
    rfl

end LedgerSearch
