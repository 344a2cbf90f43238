import Mathlib
import LedgerSearch.Memory.Sample
import LedgerSearch.Proofs.Serialize.LedgerDemands

/-
  The offer events of a transaction. Of all the changes that its operations made, in one row, those
  that create or update an offer entry have an event each, in their order and numbered 1, 2, 3, …
  from one operation to the next (`OfferEvent.told_ofChangesAfter`); there is no event for any other,
  and no events at all where there are more than 255 such changes.
-/

namespace LedgerSearch

/-! ## Changes of offers -/

/-- Whether an entry is an offer. -/
def EntryData.isOffer : EntryData → Bool
  | .offer _ => true
  | .account _ | .trustLine _ | .data _ => false

/-- Whether a change creates or updates an offer entry. -/
def EntryChange.setsOffer : EntryChange → Bool
  | .created e | .updated e => e.data.isOffer
  | .removed _ | .state _ => false

namespace OfferEvent

/-- What an event of that number says of the change it is made for. -/
inductive Tells (c : Context) (number : UInt8) : EntryChange → OfferEvent → Prop
  | created {e : LedgerEntry} {o : OfferEntry} (h : e.data = .offer o) :
    Tells c number (.created e) ⟨{ c.base with index := number }, c.seq, c.closeTime, .create, o⟩
  | updated {e : LedgerEntry} {o : OfferEntry} (h : e.data = .offer o) :
    Tells c number (.updated e) ⟨{ c.base with index := number }, c.seq, c.closeTime, .update, o⟩

/-- The document of an event shows what was done and the offer as it was left: whose it is, its id,
    the assets, the amount, and the price in both forms. -/
structure Shows (event : OfferEvent) (action : OfferAction) (o : OfferEntry) : Prop where
  action : event.toJson.get? "action" = some (.string action.text)
  seller : event.toJson.get? "seller_id" = some (.account o.seller)
  id : event.toJson.get? "offer_id" = some (.int64 o.offerId)
  selling : event.toJson.get? "selling" = some (.asset o.terms.selling)
  buying : event.toJson.get? "buying" = some (.asset o.terms.buying)
  amount : event.toJson.get? "amount" = some (.amount o.terms.amount)
  ratio : event.toJson.get? "price_n_d" = some (.ratio o.terms.price)
  quotient : event.toJson.get? "price" = some (.quotient o.terms.price)

theorem shows_own (event : OfferEvent) : event.Shows event.action event.offer :=
  ⟨rfl, rfl, rfl, rfl, rfl, rfl, rfl, rfl⟩

theorem offer?_of_not_setsOffer {change : EntryChange} (h : change.setsOffer = false) :
    change.offer? = none := by
  cases change with
  | created e | updated e =>
    obtain ⟨modified, data, sponsor⟩ := e
    cases data with
    | offer o => exact absurd h (by simp [EntryChange.setsOffer, EntryData.isOffer])
    | account a | trustLine t | data d => rfl
  | removed k | state e => rfl

theorem exists_offer?_of_setsOffer {change : EntryChange} (h : change.setsOffer = true) :
    ∃ action o, change.offer? = some (action, o) ∧ ∀ (c : Context) (number : UInt8),
      Tells c number change ⟨{ c.base with index := number }, c.seq, c.closeTime, action, o⟩ := by
  cases change with
  | created e =>
    obtain ⟨modified, data, sponsor⟩ := e
    cases data with
    | offer o => exact ⟨.create, o, rfl, fun c number => .created rfl⟩
    | account a | trustLine t | data d => exact absurd h Bool.false_ne_true
  | updated e =>
    obtain ⟨modified, data, sponsor⟩ := e
    cases data with
    | offer o => exact ⟨.update, o, rfl, fun c number => .updated rfl⟩
    | account a | trustLine t | data d => exact absurd h Bool.false_ne_true
  | removed k | state e => exact absurd h Bool.false_ne_true

theorem length_filterMap_offer? (changes : List EntryChange) :
    (changes.filterMap EntryChange.offer?).length =
      (changes.filter EntryChange.setsOffer).length := by
  induction changes with
  | nil => rfl
  | cons change rest ih =>
    cases hsets : change.setsOffer with
    | false =>
      rw [List.filterMap_cons_none (offer?_of_not_setsOffer hsets),
        List.filter_cons_of_neg (by rw [hsets]; exact Bool.false_ne_true), ih]
    | true =>
      obtain ⟨action, o, hoffer, -⟩ := exists_offer?_of_setsOffer hsets
      rw [List.filterMap_cons_some hoffer, List.filter_cons_of_pos hsets, List.length_cons,
        List.length_cons, ih]

/-! ## Events -/

/-- An event for each of the changes, in their order and numbered on from `last`. -/
structure Told (c : Context) (last : ℕ) (changes : List EntryChange) (events : List OfferEvent) :
    Prop where
  length : events.length = changes.length
  tells : ∀ (k : ℕ) (change : EntryChange), changes[k]? = some change →
    ∃ (number : UInt8) (event : OfferEvent), number.toNat = last + k + 1 ∧
      events[k]? = some event ∧ Tells c number change event

theorem told_nil (c : Context) (last : ℕ) : Told c last [] [] :=
  ⟨rfl, fun _ _ h => nomatch h⟩

theorem Told.cons {c : Context} {last : ℕ} {changes : List EntryChange} {events : List OfferEvent}
    {change : EntryChange} {event : OfferEvent} {number : UInt8}
    (h : Told c (last + 1) changes events) (hnumber : number.toNat = last + 1)
    (htells : Tells c number change event) : Told c last (change :: changes) (event :: events) := by
  refine ⟨?_, fun k change' hk => ?_⟩
  · rw [List.length_cons, List.length_cons, h.length]
  cases k with
  | zero =>
    obtain rfl := Option.some.inj hk
    exact ⟨number, event, hnumber, rfl, htells⟩
  | succ k =>
    obtain ⟨number', event', hnumber', hevent, htells'⟩ := h.tells k change' hk
    exact ⟨number', event', by omega, hevent, htells'⟩

/-- The changes of offers are told one by one, on from effect index `last`; the others are passed
    over and take no number. -/
theorem told_ofChangesAfter {c : Context} {last : UInt8} {changes : List EntryChange}
    {events : List OfferEvent} (h : ofChangesAfter c last changes = .ok events) :
    Told c last.toNat (changes.filter EntryChange.setsOffer) events := by
  induction changes generalizing last events with
  | nil =>
    obtain rfl := Except.ok.inj h
    exact told_nil c _
  | cons change rest ih =>
    rw [ofChangesAfter] at h
    cases hsets : change.setsOffer with
    | false =>
      rw [offer?_of_not_setsOffer hsets] at h
      rw [List.filter_cons_of_neg (by rw [hsets]; exact Bool.false_ne_true)]
      exact ih h
    | true =>
      obtain ⟨action, o, hoffer, htells⟩ := exists_offer?_of_setsOffer hsets
      rw [hoffer] at h
      obtain ⟨number, hnext, h⟩ := Outcome.bind_eq_ok.mp h
      obtain ⟨more, hmore, h⟩ := Outcome.bind_eq_ok.mp h
      obtain rfl := Except.ok.inj h
      have hnumber := nextEffectIndex_eq_ok hnext
      have hne : number ≠ 0 := by
        rintro rfl
        rw [UInt8.toNat_zero] at hnumber
        omega
      rw [List.filter_cons_of_pos hsets, Token.merge_index hne]
      exact (hnumber ▸ ih hmore).cons hnumber (htells c number)

theorem effectPlaces_add (last m n : ℕ) :
    effectPlaces last (m + n) = effectPlaces last m ++ effectPlaces (last + m) n := by
  unfold effectPlaces
  rw [← List.map_append, show last + m + 1 = last + 1 + m by omega, List.range'_append_1]

/-- The first effect that has no place is number 256. -/
theorem firstUnmet_effectPlaces {n : ℕ} (h : 255 < n) :
    firstUnmet (effectPlaces 0 n) = some (.place "effect_index" 256) := by
  obtain ⟨k, rfl⟩ : ∃ k, n = 255 + (k + 1) := ⟨n - 256, by omega⟩
  have hplaced : firstUnmet (effectPlaces 0 255) = none := by
    refine firstUnmet_eq_none.mpr fun d hd => ?_
    obtain ⟨i, -, hle, rfl⟩ := mem_effectPlaces.mp hd
    exact hle
  rw [effectPlaces_add, firstUnmet_append, hplaced]
  rfl

theorem exists_ofOperations (c : Context) {operations : List (List EntryChange)}
    (h : (operations.flatten.filter EntryChange.setsOffer).length ≤ 255) :
    ∃ events, ofOperations c operations = .ok events := by
  refine (meets_ofOperations c operations).exists_ok fun d hd => ?_
  rw [length_filterMap_offer?] at hd
  obtain ⟨i, -, hle, rfl⟩ := mem_effectPlaces.mp hd
  show i ≤ 255
  omega

theorem ofOperations_of_many (c : Context) {operations : List (List EntryChange)}
    (h : 255 < (operations.flatten.filter EntryChange.setsOffer).length) :
    ofOperations c operations = .error (.error (.orderingOverflow "effect_index" 256)) := by
  have hmeets := meets_ofOperations c operations
  rw [length_filterMap_offer?] at hmeets
  unfold Meets at hmeets
  rw [firstUnmet_effectPlaces h] at hmeets
  exact hmeets

/-- The events of a transaction tell, one by one and in order, of those changes of its operations
    that create or update an offer entry: which of the two it was, and the entry as it was left,
    which their documents show. They are numbered 1, 2, 3, … over the base of the transaction,
    whatever operation they belong to. Nothing but too many of them can go wrong, and that is more
    than 255. -/
theorem events_of_changes (c : Context) (operations : List (List EntryChange)) :
    (∀ events, ofOperations c operations = .ok events →
      events.length = (operations.flatten.filter EntryChange.setsOffer).length ∧
      ∀ (k : ℕ) (change : EntryChange),
        (operations.flatten.filter EntryChange.setsOffer)[k]? = some change →
          ∃ (number : UInt8) (event : OfferEvent), number.toNat = k + 1 ∧
            events[k]? = some event ∧ Tells c number change event ∧
            event.Shows event.action event.offer) ∧
    ∀ failure, ofOperations c operations = .error failure ↔
      failure = .error (.orderingOverflow "effect_index" 256) ∧
        255 < (operations.flatten.filter EntryChange.setsOffer).length := by
  refine ⟨fun events hevents => ?_, fun failure => ⟨fun hfail => ?_, fun hmany => ?_⟩⟩
  · have htold : Told c 0 _ events := told_ofChangesAfter hevents
    refine ⟨htold.length, fun k change hk => ?_⟩
    obtain ⟨number, event, hnumber, hevent, htells⟩ := htold.tells k change hk
    exact ⟨number, event, by omega, hevent, htells, event.shows_own⟩
  · rcases Nat.lt_or_ge 255 (operations.flatten.filter EntryChange.setsOffer).length with
      hmany | hfew
    · rw [ofOperations_of_many c hmany] at hfail
      exact ⟨(Except.error.inj hfail).symm, hmany⟩
    · obtain ⟨events, hevents⟩ := exists_ofOperations c hfew
      rw [hevents] at hfail
      cases hfail
  · obtain ⟨rfl, hmany⟩ := hmany
    exact ofOperations_of_many c hmany

open Memory.Sample in
/-- An entry of an offer of Alice's. -/
def offerEntry (offerId amount : Int64) : LedgerEntry :=
  ⟨0, .offer ⟨⟨alice⟩, offerId, ⟨.native, .native, amount, ⟨1, 2⟩⟩, 0⟩, none⟩

open Memory.Sample in
/-- What two operations changed: the first made offer 7, the second took from it. -/
def madeAndTaken : List (List EntryChange) := [
  [.state (balanceEntry alice 10), .updated (balanceEntry alice 9), .created (offerEntry 7 100)],
  [.state (offerEntry 7 100), .updated (offerEntry 7 60), .removed (.offer ⟨bob⟩ 3)]]

/-- Of six changes two are told, and the number of the second goes on from the first operation. Of
    256 offers that two operations made none is told. -/
theorem events_of_changes_twoOperations :
    (∃ events, ofOperations ⟨.ofTransaction 5 2, 5, ⟨0, Nat.zero_le _⟩⟩ madeAndTaken = .ok events ∧
      events.map (fun e => (e.token, e.action, e.offer.terms.amount)) =
        [({ Token.ofTransaction 5 2 with index := 1 }, .create, 100),
          ({ Token.ofTransaction 5 2 with index := 2 }, .update, 60)]) ∧
    ofOperations ⟨.ofTransaction 5 2, 5, ⟨0, Nat.zero_le _⟩⟩
        [List.replicate 200 (.created (offerEntry 7 100)),
          List.replicate 56 (.created (offerEntry 8 60))] =
      .error (.error (.orderingOverflow "effect_index" 256)) := by
  refine ⟨?_, ((events_of_changes _ _).2 _).mpr ⟨rfl, by decide +kernel⟩⟩
  obtain ⟨events, hevents⟩ : ∃ events,
      ofOperations ⟨.ofTransaction 5 2, 5, ⟨0, Nat.zero_le _⟩⟩ madeAndTaken = .ok events := ⟨_, rfl⟩
  obtain ⟨hlength, htells⟩ := (events_of_changes _ _).1 events hevents
  obtain ⟨first, _, hfirst, h₀, htold₀, -⟩ := htells 0 (.created (offerEntry 7 100)) rfl
  obtain ⟨second, _, hsecond, h₁, htold₁, -⟩ := htells 1 (.updated (offerEntry 7 60)) rfl
  obtain rfl : first = 1 := UInt8.toNat_inj.mp hfirst
  obtain rfl : second = 2 := UInt8.toNat_inj.mp hsecond
  refine ⟨events, hevents, ?_⟩
  match events, hlength with
  | [a, b], _ =>
    obtain rfl := Option.some.inj h₀
    obtain rfl := Option.some.inj h₁
    cases htold₀ with
    | created he =>
      cases htold₁ with
      | updated he' =>
        obtain rfl := EntryData.offer.inj he
        obtain rfl := EntryData.offer.inj he'
        rfl

end OfferEvent

end LedgerSearch
