import Mathlib
import LedgerSearch.Proofs.Export.Range

/-
  Runs of integers cut into pieces, and the batches of a range as integer intervals. The pieces tile
  the run (`tiles_pieces`); the batches tile the range exactly where each of them starts at a 32-bit
  sequence, for a start is cut to 32 bits (`rangeBatches_tile_iff`).
-/

namespace LedgerSearch

open GapFiller (lastWindow le_lastWindow lastWindow_of_le lastWindow_add)

/-! ## Pieces of a run -/

/-- The intervals `[p.1, p.2)` are non-empty, hold at most `width` numbers each, follow one another
    without gap or overlap, and cover `[lo, hi)` and nothing else. -/
structure Tiles (width lo hi : ℕ) (ps : List (ℕ × ℕ)) : Prop where
  nonempty : ∀ p ∈ ps, p.1 < p.2
  atMost : ∀ p ∈ ps, p.2 ≤ p.1 + width
  adjacent : ps.IsChain fun p q => p.2 = q.1
  covers : ∀ n, (∃ p ∈ ps, p.1 ≤ n ∧ n < p.2) ↔ lo ≤ n ∧ n < hi

section

variable {step lo hi : ℕ}

theorem tiles_nil {width : ℕ} (h : hi ≤ lo) : Tiles width lo hi [] := by
  refine ⟨nofun, nofun, .nil, fun n => ⟨nofun, fun hn => ?_⟩⟩
  omega

/-- An interval in front of a tiling of what follows it. -/
theorem Tiles.cons {width mid : ℕ} {ps : List (ℕ × ℕ)} (h : Tiles width mid hi ps)
    (hfirst : ∀ p ∈ ps.head?, mid = p.1) (hlt : lo < mid) (hwidth : mid ≤ lo + width)
    (hle : mid ≤ hi) : Tiles width lo hi ((lo, mid) :: ps) := by
  refine ⟨List.forall_mem_cons.mpr ⟨hlt, h.nonempty⟩, List.forall_mem_cons.mpr ⟨hwidth, h.atMost⟩,
    List.isChain_cons.mpr ⟨hfirst, h.adjacent⟩, fun n => ?_⟩
  rw [List.exists_mem_cons_iff, h.covers]
  omega

theorem pieces_of_lt (hlt : lo < hi) : pieces step lo hi =
    (lo, min (lo + max step 1) hi) :: pieces step (min (lo + max step 1) hi) hi := by
  rw [pieces, if_pos hlt]

theorem head?_pieces (hlt : lo < hi) : ∃ mid, (pieces step lo hi).head? = some (lo, mid) := by
  rw [pieces_of_lt hlt]
  exact ⟨_, rfl⟩

theorem pieces_of_le (hle : hi ≤ lo) : pieces step lo hi = [] := by
  rw [pieces, if_neg (Nat.not_lt.mpr hle)]

/-- A run is tiled by its pieces. -/
theorem tiles_pieces : Tiles (max step 1) lo hi (pieces step lo hi) := by
  fun_induction pieces step lo hi with
  | case1 lo hlt mid ih =>
    refine ih.cons ?_ (by omega) (Nat.min_le_left _ _) (Nat.min_le_right _ _)
    intro p hp
    by_cases hmid : mid < hi
    · obtain ⟨stop, hhead⟩ : ∃ stop, (pieces step mid hi).head? = some (mid, stop) :=
        head?_pieces hmid
      rw [hhead] at hp
      obtain rfl := Option.mem_some.mp hp
      rfl
    · rw [pieces_of_le (Nat.not_lt.mp hmid)] at hp
      cases hp
  | case2 lo hge => exact tiles_nil (Nat.not_lt.mp hge)

/-- The last piece starts where the last window of that size does. -/
theorem lastWindow_mem_pieces (hlt : lo < hi) :
    (lastWindow step hi lo, hi) ∈ pieces step lo hi := by
  fun_induction pieces step lo hi with
  | case1 lo _ mid ih =>
    by_cases hlast : hi ≤ lo + max step 1
    · have hmid : mid = hi := Nat.min_eq_right hlast
      rw [lastWindow_of_le hlt hlast, hmid]
      exact List.mem_cons_self
    · have hmid : mid = lo + max step 1 := Nat.min_eq_left (by omega)
      rw [← lastWindow_add (by omega), ← hmid]
      exact List.mem_cons_of_mem _ (ih (by omega))
  | case2 lo hge => exact absurd hlt hge

theorem le_lastWindow_of_mem_pieces {p : ℕ × ℕ} (hp : p ∈ pieces step lo hi) :
    p.1 ≤ lastWindow step hi lo := by
  fun_induction pieces step lo hi with
  | case1 lo _ mid ih =>
    rcases List.mem_cons.mp hp with rfl | hrest
    · exact le_lastWindow step hi lo
    · -- a piece behind the first one leaves that its full width
      have hmid := mem_pieces hrest
      have heq : mid = lo + max step 1 := Nat.min_eq_left (by omega)
      rw [← lastWindow_add (by omega), ← heq]
      exact ih hrest
  | case2 => cases hp

end

/-! ## Batches of a range -/

/-- The integers that a range of sequences names, as an interval. -/
def Selection.span? : Selection → Option (ℕ × ℕ)
  | .range start count => some (start.toNat, start.toNat + count.toNat)
  | .seqs _ => none

/-- The integers that each of the batches of a range names. -/
def batchSpans (start count batch : UInt32) : List (ℕ × ℕ) :=
  (rangeBatches start count batch).filterMap Selection.span?

section

variable {start count batch : UInt32}

theorem toNat_ofNat_piece {p : ℕ × ℕ}
    (hp : p ∈ pieces batch.toNat start.toNat (start.toNat + count.toNat)) :
    (UInt32.ofNat (p.2 - p.1)).toNat = p.2 - p.1 := by
  have hpiece := mem_pieces hp
  have hcount : count.toNat < UInt32.size := count.toNat_lt
  exact UInt32.toNat_ofNat_of_lt' (by omega)

/-- A batch is a piece of the range with its start cut to 32 bits. -/
theorem batchSpans_eq : batchSpans start count batch =
    (pieces batch.toNat start.toNat (start.toNat + count.toNat)).map fun p =>
      (p.1 % UInt32.size, p.1 % UInt32.size + (p.2 - p.1)) := by
  rw [batchSpans, rangeBatches, List.filterMap_map, ← List.filterMap_eq_map]
  refine List.filterMap_congr fun p hp => ?_
  show some ((UInt32.ofNat p.1).toNat, (UInt32.ofNat p.1).toNat + _) = some _
  rw [toNat_ofNat_piece hp]
  rfl

/-- Where all batches start below `2 ^ 32` nothing is cut. -/
theorem batchSpans_of_starts
    (h : ∀ p ∈ pieces batch.toNat start.toNat (start.toNat + count.toNat), p.1 < UInt32.size) :
    batchSpans start count batch =
      pieces batch.toNat start.toNat (start.toNat + count.toNat) := by
  rw [batchSpans_eq]
  conv_rhs => rw [← List.map_id (pieces _ _ _)]
  refine List.map_congr_left fun p hp => ?_
  have hpiece := mem_pieces hp
  rw [Nat.mod_eq_of_lt (h p hp), Nat.add_sub_cancel' (Nat.le_of_lt hpiece.2.1)]
  rfl

theorem starts_iff :
    (∀ p ∈ pieces batch.toNat start.toNat (start.toNat + count.toNat), p.1 < UInt32.size) ↔
      lastWindow batch.toNat (start.toNat + count.toNat) start.toNat < UInt32.size := by
  constructor
  · intro h
    by_cases hcount : count.toNat = 0
    · have hsub : start.toNat + 0 - start.toNat - 1 = 0 := by omega
      rw [lastWindow, hcount, hsub, Nat.zero_div]
      exact start.toNat_lt
    · exact h _ (lastWindow_mem_pieces (by omega))
  · exact fun h p hp => Nat.lt_of_le_of_lt (le_lastWindow_of_mem_pieces hp) h

/-- A batch whose start was cut lies before the range. -/
theorem starts_of_within
    (h : ∀ p ∈ batchSpans start count batch,
      start.toNat ≤ p.1 ∧ p.2 ≤ start.toNat + count.toNat) :
    ∀ p ∈ pieces batch.toNat start.toNat (start.toNat + count.toNat), p.1 < UInt32.size := by
  intro p hp
  by_contra hge
  have hpiece := mem_pieces hp
  have hstart : start.toNat < UInt32.size := start.toNat_lt
  have hcount : count.toNat < UInt32.size := count.toNat_lt
  have hcut : p.1 % UInt32.size = p.1 - UInt32.size := by
    rw [Nat.mod_eq_sub_mod (Nat.not_lt.mp hge), Nat.mod_eq_of_lt (by omega)]
  rw [batchSpans_eq] at h
  have hwithin := (h _ (List.mem_map_of_mem hp)).1
  dsimp only at hwithin
  omega

theorem Tiles.within {width lo hi : ℕ} {ps : List (ℕ × ℕ)} (h : Tiles width lo hi ps) :
    ∀ p ∈ ps, lo ≤ p.1 ∧ p.2 ≤ hi := by
  intro p hp
  have hlt := h.nonempty p hp
  have hfirst := (h.covers p.1).mp ⟨p, hp, Nat.le_refl _, hlt⟩
  have hlast := (h.covers (p.2 - 1)).mp ⟨p, hp, by omega, by omega⟩
  omega

end

/-- The batches of a range `[start, start + count)` are non-empty and hold at most `batch` sequences
    each (a size of zero counts as one), and but for their starts, which are cut to 32 bits, they
    tile the range. They do tile it, and none of them names an integer outside of it, exactly where
    the last batch starts below `2 ^ 32`: a batch that starts further on names sequences that lie
    before the range. -/
theorem rangeBatches_tile_iff (start count batch : UInt32) :
    (∀ s ∈ rangeBatches start count batch, ∃ first n : UInt32, s = .range first n ∧
      0 < n.toNat ∧ n.toNat ≤ max batch.toNat 1) ∧
    (∃ ps, Tiles (max batch.toNat 1) start.toNat (start.toNat + count.toNat) ps ∧
      batchSpans start count batch =
        ps.map fun p => (p.1 % UInt32.size, p.1 % UInt32.size + (p.2 - p.1))) ∧
    (Tiles (max batch.toNat 1) start.toNat (start.toNat + count.toNat)
        (batchSpans start count batch) ↔
      start.toNat + max batch.toNat 1 * ((count.toNat - 1) / max batch.toNat 1) < UInt32.size) ∧
    ((∀ p ∈ batchSpans start count batch,
        start.toNat ≤ p.1 ∧ p.2 ≤ start.toNat + count.toNat) ↔
      start.toNat + max batch.toNat 1 * ((count.toNat - 1) / max batch.toNat 1) < UInt32.size) := by
  have hlast : start.toNat + max batch.toNat 1 * ((count.toNat - 1) / max batch.toNat 1) =
      lastWindow batch.toNat (start.toNat + count.toNat) start.toNat := by
    rw [lastWindow, Nat.add_sub_cancel_left]
  -- the spans are the pieces with their starts cut to 32 bits
  have htiles : (∀ p ∈ pieces batch.toNat start.toNat (start.toNat + count.toNat),
      p.1 < UInt32.size) → Tiles (max batch.toNat 1) start.toNat (start.toNat + count.toNat)
        (batchSpans start count batch) := fun h => batchSpans_of_starts h ▸ tiles_pieces
  rw [hlast, ← starts_iff]
  refine ⟨fun s hs => ?_, ⟨_, tiles_pieces, batchSpans_eq⟩, ⟨fun h => ?_, htiles⟩,
    ⟨starts_of_within, fun h => (htiles h).within⟩⟩
  · obtain ⟨p, hp, rfl⟩ := List.mem_map.mp hs
    have hlt := tiles_pieces.nonempty p hp
    have hle := tiles_pieces.atMost p hp
    refine ⟨_, _, rfl, ?_⟩
    rw [toNat_ofNat_piece hp]
    omega
  · exact starts_of_within h.within

example : rangeBatches 0xFFFFFFFF 3 2 = [.range 0xFFFFFFFF 2, .range 1 1] := by
  cbv

end LedgerSearch
