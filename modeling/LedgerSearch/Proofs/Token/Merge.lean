import Mathlib
import LedgerSearch.Proofs.Serialize.DocumentOrder

/-
  The algebra of merging. A zero says nothing in every field, so tokens under `merge` are an
  idempotent monoid with the empty token as its unit. Tokens that say nothing in the same field
  (`Apart`) may be merged in either order, and their packed numbers add up. So it makes no
  difference whether a group is merged onto a place before the index of an effect is, or the index
  onto the group (`merge_algebra`).
-/

namespace LedgerSearch.Token

/-! ## One field -/

section

variable {n : Type} [DecidableEq n] [OfNat n 0]

theorem pick_right_zero (own : n) : pick own 0 = own := by
  unfold pick
  split
  · next h => exact h.symm
  · rfl

theorem pick_self (own : n) : pick own own = own := ite_self own

theorem pick_assoc (a b c : n) : pick a (pick b c) = pick (pick a b) c := by
  by_cases ha : a = 0
  · rw [ha, pick_zero, pick_zero]
  · rw [pick_of_ne_zero ha, pick_of_ne_zero ha, pick_of_ne_zero ha]

theorem pick_comm {a b : n} (h : a = 0 ∨ b = 0) : pick a b = pick b a := by
  rcases h with rfl | rfl
  · rw [pick_zero, pick_right_zero]
  · rw [pick_zero, pick_right_zero]

/-- Of two fields that are not both set, the one that is set is their sum. -/
theorem pick_eq_add {value : n → ℕ} (hvalue : value 0 = 0) {a b : n} (h : a = 0 ∨ b = 0) :
    value (pick a b) = value a + value b := by
  rcases h with rfl | rfl
  · rw [pick_zero, hvalue, Nat.zero_add]
  · rw [pick_right_zero, hvalue, Nat.add_zero]

end

/-! ## Whole tokens -/

theorem zero_merge (t : Token) : merge {} t = t := by
  simp only [merge, pick_zero]

theorem merge_zero (t : Token) : t.merge {} = t := by
  simp only [merge, pick_right_zero]

theorem merge_self (t : Token) : t.merge t = t := by
  simp only [merge, pick_self]

theorem merge_assoc (r s t : Token) : r.merge (s.merge t) = (r.merge s).merge t := by
  simp only [merge, pick_assoc]

/-- No field is set in both tokens. -/
structure Apart (s t : Token) : Prop where
  ledger : s.ledger = 0 ∨ t.ledger = 0
  transaction : s.transaction = 0 ∨ t.transaction = 0
  operation : s.operation = 0 ∨ t.operation = 0
  group : s.group = 0 ∨ t.group = 0
  index : s.index = 0 ∨ t.index = 0

variable {s t : Token}

theorem Apart.merge_comm (h : s.Apart t) : s.merge t = t.merge s := by
  unfold merge
  rw [pick_comm h.ledger, pick_comm h.transaction, pick_comm h.operation, pick_comm h.group,
    pick_comm h.index]

/-- Nothing is carried from one field to the next where each field is set in one token only. -/
theorem Apart.number_merge (h : s.Apart t) : (s.merge t).number = s.number + t.number := by
  have word {a b : UInt8} (h : a = 0 ∨ b = 0) : (pick a b).toNat = a.toNat + b.toNat :=
    pick_eq_add UInt8.toNat_zero h
  have seq : (pick s.ledger t.ledger).toNat = s.ledger.toNat + t.ledger.toNat :=
    pick_eq_add UInt32.toNat_zero h.ledger
  unfold merge number
  rw [seq, word h.transaction, word h.operation, word h.group, word h.index]
  omega

theorem Apart.toNat_pack_merge (h : s.Apart t) :
    (s.merge t).pack.toNat = s.pack.toNat + t.pack.toNat := by
  rw [toNat_pack, toNat_pack, toNat_pack, h.number_merge]

/-! ## Effects of a place -/

/-- A token with a group alone. -/
def withGroup (g : UInt8) : Token := { group := g }

theorem number_withGroup (g : UInt8) : (withGroup g).number = 256 * g.toNat := by
  simp only [number, withGroup, UInt8.toNat_zero, UInt32.toNat_zero]
  omega

theorem number_ofIndex (i : UInt8) : (ofIndex i).number = i.toNat := by
  simp only [number, ofIndex, UInt8.toNat_zero, UInt32.toNat_zero]
  omega

theorem IsPlace.apart_withGroup {place : Token} (h : place.IsPlace) (g : UInt8) :
    (withGroup g).Apart place :=
  ⟨.inl rfl, .inl rfl, .inl rfl, .inr h.1, .inl rfl⟩

/-- The index of an effect is the only field that a place with a group leaves open. -/
theorem IsPlace.apart_ofIndex {place : Token} (h : place.IsPlace) (g i : UInt8) :
    (ofIndex i).Apart ((withGroup g).merge place) := by
  refine ⟨.inl rfl, .inl rfl, .inl rfl, .inl rfl, .inr ?_⟩
  show pick 0 place.index = 0
  rw [pick_zero, h.2]

theorem IsPlace.toNat_pack_effect {place : Token} (h : place.IsPlace) (g i : UInt8) :
    ((ofIndex i).merge ((withGroup g).merge place)).pack.toNat =
      place.pack.toNat + 256 * g.toNat + i.toNat := by
  rw [(h.apart_ofIndex g i).toNat_pack_merge, (h.apart_withGroup g).toNat_pack_merge,
    toNat_pack (ofIndex i), toNat_pack (withGroup g), number_ofIndex, number_withGroup]
  omega

/-- Merging is associative and idempotent, with the empty token on either side as if it were not
    there. Tokens of which no field is set in both commute, and merging them adds their packed
    numbers, without a carry out of the word. So the token of an effect is the same in either order
    of merging index, group and place, and its number is that of the place and 256 for each step of
    the group and one for each of the index. -/
theorem merge_algebra :
    (∀ r s t : Token, r.merge (s.merge t) = (r.merge s).merge t) ∧
    (∀ t : Token, t.merge t = t ∧ merge {} t = t ∧ t.merge {} = t) ∧
    (∀ s t : Token, s.Apart t →
      s.merge t = t.merge s ∧ (s.merge t).pack.toNat = s.pack.toNat + t.pack.toNat) ∧
    (∀ (seq : UInt32) (tx op g i : UInt8),
      ∀ place ∈ [ofTransaction seq tx, ofOperation seq tx op],
        (ofIndex i).merge ((withGroup g).merge place) =
            ((ofIndex i).merge (withGroup g)).merge place ∧
          ((ofIndex i).merge ((withGroup g).merge place)).pack.toNat =
            place.pack.toNat + 256 * g.toNat + i.toNat) ∧
    ∀ g : EffectGroup, ofGroup g = withGroup g.number := by
  refine ⟨merge_assoc, fun t => ⟨merge_self t, zero_merge t, merge_zero t⟩,
    fun s t h => ⟨h.merge_comm, h.toNat_pack_merge⟩, fun seq tx op g i place hplace => ?_,
    fun g => rfl⟩
  have hempty : place.IsPlace := by
    obtain rfl | hplace := List.mem_cons.mp hplace
    · exact ⟨rfl, rfl⟩
    · obtain rfl := List.mem_singleton.mp hplace
      exact ⟨rfl, rfl⟩
  exact ⟨merge_assoc _ _ _, hempty.toNat_pack_effect g i⟩

/-- The second balance of an operation, put together from its group and index in advance. -/
theorem merge_algebra_balance :
    (ofOperation 7 1 2).Apart { group := 3, index := 2 } ∧
      ((ofOperation 7 1 2).merge { group := 3, index := 2 }).pack.toNat =
        (ofOperation 7 1 2).pack.toNat + 770 ∧
      ((ofIndex 2).merge ((withGroup 3).merge (ofOperation 7 1 2))).pack.toNat =
        (ofOperation 7 1 2).pack.toNat + 256 * 3 + 2 := by
  have hapart : (ofOperation 7 1 2).Apart { group := 3, index := 2 } :=
    ⟨.inr rfl, .inr rfl, .inr rfl, .inl rfl, .inl rfl⟩
  obtain ⟨-, -, hmerge, heffect, -⟩ := merge_algebra
  exact ⟨hapart, (hmerge _ _ hapart).2,
    (heffect 7 1 2 3 2 _ (List.mem_cons_of_mem _ List.mem_cons_self)).2⟩

end LedgerSearch.Token
