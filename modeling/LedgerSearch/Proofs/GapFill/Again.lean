import Mathlib
import LedgerSearch.Proofs.Delivery.Endings
import LedgerSearch.Proofs.History.HalfHeld

/-
  A gap fill after a gap fill. It looks at the same sequences, although the bounds of the index may
  have been asked for again, and finds missing only what the first one has found and left
  (`GapFiller.run_again`).
-/

namespace LedgerSearch

open Program

/-! ## An index that says what it holds -/

/-- The ledgers of the ledger documents among the entries. -/
def BulkBody.ledgersIn (deployment : String) (b : BulkBody) : Set UInt32 :=
  {seq | ∃ doc : LedgerDoc, doc.ledger.seq = seq ∧ .ofDocument deployment (.ledger doc) ∈ b}

/-- What the index answers about ledgers is so where it holds `H`. -/
def Event.Tells (H : Set UInt32) : Event (Site BulkBody) → Prop
  | ⟨.index .bounds, .ok none⟩ => H = ∅
  | ⟨.index .bounds, .ok (some (first, last))⟩ => IsLeast H first ∧ IsGreatest H last
  | ⟨.index (.seqsIn lo hi), .ok held⟩ => GapFiller.Held H lo.toNat hi.toNat held
  | _ => True

/-- The exchanges of an index that holds `H`, and then what it has stored as well. -/
def Serves (deployment : String) : Set UInt32 → List Exchange → Prop
  | _, [] => True
  | H, s :: rest =>
    s.Fair ∧ s.event.Tells H ∧ Serves deployment (H ∪ s.stored.ledgersIn deployment) rest

/-- What an index that held `H` holds after the exchanges. -/
def heldAfter (deployment : String) (H : Set UInt32) (steps : List Exchange) : Set UInt32 :=
  H ∪ {seq | ∃ s ∈ steps, seq ∈ s.stored.ledgersIn deployment}

theorem BulkBody.ledgersIn_nil (deployment : String) : ledgersIn deployment [] = ∅ := by
  refine Set.eq_empty_iff_forall_notMem.mpr ?_
  rintro seq ⟨doc, -, hdoc⟩
  exact nomatch hdoc

theorem Exchange.Fair.stored_eq_nil {s : Exchange} (h : s.Fair) (hb : s.event.bulk? = none) :
    s.stored = [] := by
  obtain ⟨⟨r, reply⟩, stored⟩ := s
  cases r with
  | index call =>
    cases call with
    | bulk body => exact nomatch hb
    | _ => exact h
  | _ => exact h

/-- Of a bulk request the index has stored nothing but what it was sent. -/
theorem Exchange.Fair.stored_subset {s : Exchange} (h : s.Fair)
    {b : BulkBody × Except Error Search.BulkReply} (hb : s.event.bulk? = some b) :
    s.stored ⊆ b.1 ∧ (accepted b.2 = true → b.1 ⊆ s.stored) := by
  obtain ⟨⟨r, reply⟩, stored⟩ := s
  cases r with
  | index call =>
    cases call with
    | bulk body =>
      obtain rfl := Option.some.inj hb
      exact h
    | _ => exact nomatch hb
  | _ => exact nomatch hb

namespace Serves

variable {deployment : String} {H : Set UInt32} {steps more : List Exchange}

theorem fair (h : Serves deployment H steps) : ∀ s ∈ steps, s.Fair := by
  induction steps generalizing H with
  | nil => exact fun _ hs => nomatch hs
  | cons s rest ih => exact List.forall_mem_cons.mpr ⟨h.1, ih h.2.2⟩

/-- As long as nothing is sent the index holds what it held. -/
theorem tells (h : Serves deployment H (steps ++ more)) (hb : bulks (steps.map (·.event)) = []) :
    ∀ s ∈ steps, s.event.Tells H := by
  induction steps with
  | nil => exact fun _ hs => nomatch hs
  | cons s rest ih =>
    have hnone := List.filterMap_eq_nil_iff.mp hb
    obtain ⟨hfair, htells, hrest⟩ := h
    rw [hfair.stored_eq_nil (hnone _ List.mem_cons_self), BulkBody.ledgersIn_nil,
      Set.union_empty] at hrest
    refine List.forall_mem_cons.mpr ⟨htells, ih hrest (List.filterMap_eq_nil_iff.mpr ?_)⟩
    exact fun ev hev => hnone ev (List.mem_cons_of_mem _ hev)

/-- Exchanges that are not about what the index holds. -/
theorem of_forall (h : ∀ s ∈ steps, s.Fair ∧ ∀ H, s.event.Tells H) : Serves deployment H steps := by
  induction steps generalizing H with
  | nil => trivial
  | cons s rest ih =>
    obtain ⟨⟨hfair, htells⟩, hrest⟩ := List.forall_mem_cons.mp h
    exact ⟨hfair, htells H, ih hrest⟩

/-- Exchanges in which nothing is sent, and then others. -/
theorem append (hfair : ∀ s ∈ steps, s.Fair) (hb : bulks (steps.map (·.event)) = [])
    (htells : ∀ s ∈ steps, s.event.Tells H) (h : Serves deployment H more) :
    Serves deployment H (steps ++ more) := by
  induction steps with
  | nil => exact h
  | cons s rest ih =>
    have hnone := List.filterMap_eq_nil_iff.mp hb
    obtain ⟨hs, hrest⟩ := List.forall_mem_cons.mp hfair
    obtain ⟨hevent, hevents⟩ := List.forall_mem_cons.mp htells
    refine ⟨hs, hevent, ?_⟩
    rw [hs.stored_eq_nil (hnone _ List.mem_cons_self), BulkBody.ledgersIn_nil, Set.union_empty]
    refine ih hrest (List.filterMap_eq_nil_iff.mpr fun ev hev => ?_) hevents
    exact hnone ev (List.mem_cons_of_mem _ hev)

end Serves

/-- The report tells of a ledger that it was not brought into the index. -/
def GapReport.Leaves (r : GapReport) (seq : UInt32) : Prop :=
  seq ∈ r.missingInSource ∨ seq ∈ r.unindexable ∨ ∃ seqs, .seqs seqs ∈ r.skipped ∧ seq ∈ seqs

theorem GapReport.not_leaves {r : GapReport} (hsource : r.missingInSource = [])
    (hunindexable : r.unindexable = []) (hskipped : r.skipped = []) (seq : UInt32) :
    ¬ r.Leaves seq := by
  rintro (h | h | ⟨seqs, h, -⟩)
  · exact nomatch hsource ▸ h
  · exact nomatch hunindexable ▸ h
  · exact nomatch hskipped ▸ h

namespace GapFiller

variable {H H' : Set UInt32}

/-! ## Scans of it -/

theorem Held.unique {lo hi : Nat} {xs ys : List UInt32} (hx : Held H lo hi xs)
    (hy : Held H lo hi ys) : xs = ys := by
  have hanti : Std.Antisymm fun x y : UInt32 => x < y :=
    ⟨fun _ _ hxy hyx => absurd hyx (UInt32.lt_asymm hxy)⟩
  have hirrefl : Std.Irrefl fun x y : UInt32 => x < y := ⟨UInt32.lt_irrefl⟩
  refine List.Pairwise.eq_of_mem_iff hx.ascending hy.ascending fun x => ?_
  rw [hx.mem, hy.mem]

open Classical in
/-- What is held of a window. -/
noncomputable def heldIn (H : Set UInt32) (lo hi : UInt32) : List UInt32 :=
  (seqsBetween lo.toNat hi.toNat).filter (· ∈ H)

theorem held_heldIn (H : Set UInt32) (lo hi : UInt32) :
    Held H lo.toNat hi.toNat (heldIn H lo hi) := by
  have hsize : hi.toNat ≤ UInt32.size := Nat.le_of_lt hi.toNat_lt
  refine ⟨(pairwise_seqsBetween hsize).filter _, fun x => ?_⟩
  rw [heldIn, List.mem_filter, mem_seqsBetween hsize]
  simp [and_comm]

/-- Surroundings with an index that holds `H`, of which only windows are asked. -/
noncomputable def showing (H : Set UInt32) : Handler (Site BulkBody) Unit
  | .index (.seqsIn lo hi), s => (.ok (heldIn H lo hi), s)
  | r, s => Site.failing r s

theorem answersWindows_showing (H : Set UInt32) :
    AnswersWindows (showing H) (fun _ => True) H := by
  intro s hs lo hi
  refine ⟨heldIn H lo hi, s, rfl, trivial, (held_heldIn H lo hi).ascending, fun x => ?_⟩
  rw [(held_heldIn H lo hi).mem, UInt32.le_iff_toNat_le, UInt32.lt_iff_toNat_lt]

/-- A scan of an index that says what it holds runs as in those surroundings. -/
theorem run_scanFrom {window hi next start : Nat} {es : List (Event (Site BulkBody))}
    {missing : List UInt32} (h : (scanFrom window hi next start).Path es (.done missing))
    (htells : ∀ ev ∈ es, ev.Tells H) :
    (scanFrom window hi next start).run (showing H) () = (.ok missing, ()) := by
  induction hk : hi - start using Nat.strong_induction_on generalizing next start es missing with
  | h k ih =>
  subst hk
  rw [scanFrom] at h ⊢
  by_cases hlt : start < hi
  · rw [if_pos hlt] at h ⊢
    obtain ⟨stop, hstop⟩ : ∃ stop, stop = min (start + max window 1) hi := ⟨_, rfl⟩
    rw [← hstop] at h ⊢
    obtain ⟨es₁, es₂, held, rfl, h₁, h₂⟩ := path_andThen.mp h
    obtain rfl := Site.path_index.mp h₁
    obtain rfl : held = heldIn H (UInt32.ofNat start) (UInt32.ofNat stop) :=
      Held.unique (htells _ (List.mem_append_left _ List.mem_cons_self)) (held_heldIn H _ _)
    obtain ⟨first, after, hfirst⟩ : ∃ first after, missingIn next stop
        (heldIn H (UInt32.ofNat start) (UInt32.ofNat stop)) = (first, after) := ⟨_, _, rfl⟩
    rw [hfirst] at h₂
    obtain ⟨es₃, es₄, more, rfl, h₃, h₄⟩ := path_andThen.mp h₂
    obtain ⟨rfl, rfl⟩ := path_done.mp h₄
    rw [run_andThen_ok (Site.run_index rfl), hfirst]
    exact run_andThen_ok (ih _ (by omega) h₃ (fun ev hev => htells ev (by simp [hev])) rfl)
  · rw [if_neg hlt] at h ⊢
    obtain ⟨-, rfl⟩ := path_done.mp h
    rfl

/-- What a scan of `[lo, hi)` reports where the index holds `H`: all that is missing up to `fin`. -/
structure Scanned (H : Set UInt32) (window : Nat) (lo hi : UInt32) (missing : List UInt32)
    (fin : Nat) : Prop where
  missing : Missing H lo.toNat fin missing
  fin_le : fin ≤ hi.toNat
  closed : ∀ x ∈ H, fin ≤ x.toNat → hi.toNat ≤ x.toNat
  scanEnd : ScanEnd H window hi.toNat lo.toNat fin

theorem path_scan {g : GapFiller} {lo hi : UInt32} {es : List (Event (Site BulkBody))}
    {missing : List UInt32} (h : (g.scan lo hi).Path es (.done missing))
    (htells : ∀ ev ∈ es, ev.Tells H) :
    (hi ≤ lo ∧ missing = []) ∨ ∃ fin, Scanned H g.window.toNat lo hi missing fin := by
  have hrun := run_scanFrom h htells
  by_cases hlt : lo < hi
  · obtain ⟨missing', s, fin, hrun', hmissing, hle, hclosed, hend⟩ :=
      scan_of_lt (answersWindows_showing H) g hlt (s := ()) trivial
    rw [scan, hrun] at hrun'
    obtain rfl : missing = missing' := Except.ok.inj (Prod.mk.inj hrun').1
    exact .inr ⟨fin, hmissing, hle, hclosed, hend⟩
  · rw [scan_of_le g (UInt32.not_lt.mp hlt)] at h
    exact .inl ⟨UInt32.not_lt.mp hlt, (path_done.mp h).2.symm⟩

section

variable {window : Nat} {lo hi : UInt32} {missing missing' : List UInt32} {fin fin' : Nat}

/-- Where ledgers were added that were missing, a scan does not get further than before: the last
    held one of its last window was held or was missing before. -/
theorem Scanned.fin_le_again (h : Scanned H window lo hi missing fin)
    (h' : Scanned H' window lo hi missing' fin') (hsub : H ⊆ H')
    (hadded : ∀ x ∈ H', x ∉ H → x ∈ missing) : fin' ≤ fin := by
  by_cases hlast : ∃ x ∈ H, lastWindow window hi.toNat lo.toNat ≤ x.toNat ∧ x.toNat < hi.toNat
  · obtain ⟨x, hx, hfrom, hlt⟩ := hlast
    obtain ⟨m, hm, -, rfl⟩ := h'.scanEnd.2 x (hsub hx) hfrom hlt
    have hle := h'.fin_le
    by_cases hmH : m ∈ H
    · have := h.closed m hmH
      omega
    · have := (h.missing.mem m).mp (hadded m hm hmH)
      omega
  · have hfin : fin = hi.toNat := h.scanEnd.1 fun x hx hfrom =>
      Nat.not_lt.mp fun hlt => hlast ⟨x, hx, hfrom, hlt⟩
    rw [hfin]
    exact h'.fin_le

theorem Scanned.mem_again (h : Scanned H window lo hi missing fin)
    (h' : Scanned H' window lo hi missing' fin') (hsub : H ⊆ H')
    (hadded : ∀ x ∈ H', x ∉ H → x ∈ missing) {x : UInt32} (hx : x ∈ missing') :
    x ∈ missing ∧ x ∉ H' := by
  obtain ⟨hnot, hlo, hlt⟩ := (h'.missing.mem x).mp hx
  have hle := h.fin_le_again h' hsub hadded
  exact ⟨(h.missing.mem x).mpr ⟨fun hin => hnot (hsub hin), hlo, by omega⟩, hnot⟩

end

/-- A scan after a scan reports what the first one has reported and is still not held. -/
theorem scan_again {g : GapFiller} {lo hi : UInt32} {es es' : List (Event (Site BulkBody))}
    {missing missing' : List UInt32} (h : (g.scan lo hi).Path es (.done missing))
    (htells : ∀ ev ∈ es, ev.Tells H) (h' : (g.scan lo hi).Path es' (.done missing'))
    (htells' : ∀ ev ∈ es', ev.Tells H') (hsub : H ⊆ H')
    (hadded : ∀ x ∈ H', x ∉ H → x ∈ missing) :
    missing'.Sublist missing ∧ ∀ x ∈ missing', x ∉ H' := by
  rcases path_scan h' htells' with ⟨-, rfl⟩ | ⟨fin', hscan'⟩
  · exact ⟨List.nil_sublist _, fun _ hx => nomatch hx⟩
  rcases path_scan h htells with ⟨hle, rfl⟩ | ⟨fin, hscan⟩
  · have hnone : ∀ x ∈ missing', False := by
      intro x hx
      have := (hscan'.missing.mem x).mp hx
      have := hscan'.fin_le
      have := UInt32.le_iff_toNat_le.mp hle
      omega
    rw [List.eq_nil_iff_forall_not_mem.mpr hnone]
    exact ⟨List.nil_sublist _, fun _ hx => nomatch hx⟩
  · have hmem : ∀ x ∈ missing', x ∈ missing ∧ x ∉ H' := fun x hx =>
      hscan.mem_again hscan' hsub hadded hx
    have hanti : Std.Antisymm fun x y : UInt32 => x < y :=
      ⟨fun _ _ hxy hyx => absurd hyx (UInt32.lt_asymm hxy)⟩
    have hnodup : missing'.Nodup := hscan'.missing.ascending.imp fun hlt => UInt32.ne_of_lt hlt
    refine ⟨List.sublist_of_subperm_of_pairwise ?_ hscan'.missing.ascending
      hscan.missing.ascending, fun x hx => (hmem x hx).2⟩
    exact List.subperm_of_subset hnodup fun x hx => (hmem x hx).1

/-! ## Ranges -/

/-- The range that a fill looks at where the index holds `H`. -/
structure Ranges (H : Set UInt32) (start count : Option UInt32) (lo hi : UInt32) : Prop where
  of_start : ∀ s, start = some s → lo = s
  of_count : ∀ n, count = some n → hi = saturatingAdd lo n
  of_first : start = none → IsLeast H lo
  of_last : count = none → ∃ last, IsGreatest H last ∧ hi = saturatingAdd last 1

theorem path_scanRange_some {start count : Option UInt32} {es : List (Event (Site BulkBody))}
    {lo hi : UInt32} (h : (scanRange start count).Path es (.done (some (lo, hi))))
    (htells : ∀ ev ∈ es, ev.Tells H) : Ranges H start count lo hi := by
  unfold scanRange at h
  split at h
  · cases (path_done.mp h).2
    refine ⟨?_, ?_, nofun, nofun⟩ <;> (rintro _ ⟨⟩; rfl)
  · obtain ⟨es₁, es₂, bounds, rfl, h₁, h₂⟩ := path_andThen.mp h
    obtain rfl := Site.path_index.mp h₁
    have hbounds := htells _ (List.mem_append_left _ List.mem_cons_self)
    match bounds, hbounds, h₂ with
    | none, _, h₂ => exact nomatch (path_done.mp h₂).2
    | some (first, last), ⟨hfirst, hlast⟩, h₂ =>
      cases (path_done.mp h₂).2
      refine ⟨?_, ?_, ?_, ?_⟩
      · rintro s rfl
        rfl
      · rintro n rfl
        rfl
      · rintro rfl
        exact hfirst
      · rintro rfl
        exact ⟨last, hlast, rfl⟩

/-- Nothing is looked at where the index is asked for its bounds and has none. -/
theorem path_scanRange_none {start count : Option UInt32} {es : List (Event (Site BulkBody))}
    (h : (scanRange start count).Path es (.done none)) (htells : ∀ ev ∈ es, ev.Tells H) :
    H = ∅ ∧ (start = none ∨ count = none) := by
  unfold scanRange at h
  split at h
  · exact nomatch (path_done.mp h).2
  · next hnot =>
    obtain ⟨es₁, es₂, bounds, rfl, h₁, h₂⟩ := path_andThen.mp h
    obtain rfl := Site.path_index.mp h₁
    have hbounds := htells _ (List.mem_append_left _ List.mem_cons_self)
    match bounds, hbounds, h₂ with
    | some _, _, h₂ => exact nomatch (path_done.mp h₂).2
    | none, hempty, _ =>
      refine ⟨hempty, ?_⟩
      cases start with
      | none => exact .inl rfl
      | some s =>
        cases count with
        | none => exact .inr rfl
        | some n => exact absurd rfl (hnot s n rfl)

/-- Ledgers added in the range do not move it. -/
theorem Ranges.again {start count : Option UInt32} {lo hi lo' hi' : UInt32}
    (h : Ranges H start count lo hi) (h' : Ranges H' start count lo' hi') (hsub : H ⊆ H')
    (hadded : ∀ x ∈ H', x ∉ H → lo ≤ x ∧ x < hi) (hmax : ∀ x ∈ H, x.toNat + 1 < UInt32.size) :
    lo' = lo ∧ hi' = hi := by
  have hlo : lo' = lo := by
    cases hs : start with
    | some s => rw [h.of_start s hs, h'.of_start s hs]
    | none =>
      have hfirst := h.of_first hs
      have hfirst' := h'.of_first hs
      refine UInt32.le_antisymm (hfirst'.2 (hsub hfirst.1)) ?_
      by_cases hin : lo' ∈ H
      · exact hfirst.2 hin
      · exact (hadded lo' hfirst'.1 hin).1
  refine ⟨hlo, ?_⟩
  cases hn : count with
  | some n => rw [h.of_count n hn, h'.of_count n hn, hlo]
  | none =>
    obtain ⟨last, hlast, rfl⟩ := h.of_last hn
    obtain ⟨last', hlast', rfl⟩ := h'.of_last hn
    have hhi := toNat_saturatingAdd_one (hmax last hlast.1)
    have hle : last' ≤ last := by
      by_cases hin : last' ∈ H
      · exact hlast.2 hin
      · have := UInt32.lt_iff_toNat_lt.mp (hadded last' hlast'.1 hin).2
        rw [UInt32.le_iff_toNat_le]
        omega
    rw [UInt32.le_antisymm hle (hlast'.2 (hsub hlast.1))]

/-! ## Fills -/

theorem bulks_scanRange {start count : Option UInt32} {es : List (Event (Site BulkBody))}
    {range : Option (UInt32 × UInt32)} (h : (scanRange start count).Path es (.done range)) :
    bulks es = [] := (path_scanRange h).2

theorem bulks_scan {g : GapFiller} {lo hi : UInt32} {es : List (Event (Site BulkBody))}
    {missing : List UInt32} (h : (g.scan lo hi).Path es (.done missing)) : bulks es = [] :=
  bulks_eq_nil_of_asks asks_scan h

/-- Nothing is sent before the first batch. -/
theorem bulks_filling {g : GapFiller} {start count : Option UInt32} {lo hi : UInt32}
    {missing : List UInt32} {es₁ es₂ : List (Event (Site BulkBody))}
    (hrange : (scanRange start count).Path es₁ (.done (some (lo, hi))))
    (hscan : (g.scan lo hi).Path es₂ (.done missing)) (n : Nat)
    (rest : List (Event (Site BulkBody))) :
    bulks (es₁ ++ (es₂ ++ ([⟨.increment .missingLedgers n, ()⟩] ++ rest))) = bulks rest := by
  rw [bulks_append, bulks_append, bulks_scanRange hrange, bulks_scan hscan]
  rfl

theorem questions_filling (es₁ es₂ : List (Event (Site BulkBody))) (ev : Event (Site BulkBody))
    (rest : List (Event (Site BulkBody))) :
    questions rest ⊆ questions (es₁ ++ (es₂ ++ ([ev] ++ rest))) := by
  rw [← List.append_assoc, ← List.append_assoc, questions_append]
  exact List.subset_append_right _ _

/-- What a fill has looked at of an index that held `H`: nothing where it was empty and asked for
    its bounds, else its range. -/
inductive Looked (H : Set UInt32) (g : GapFiller) (start count : Option UInt32) :
    List UInt32 → Prop
  | empty : H = ∅ → start = none ∨ count = none → Looked H g start count []
  | range {lo hi : UInt32} {missing : List UInt32} {es : List (Event (Site BulkBody))} :
      Ranges H start count lo hi → (g.scan lo hi).Path es (.done missing) →
      (∀ ev ∈ es, ev.Tells H) → Looked H g start count missing

variable {e : Exporter} {g : GapFiller} {start count : Option UInt32}
  {steps steps' : List Exchange} {r r' : GapReport}

theorem looked_of_paths {deployment : String} {lo hi : UInt32} {missing : List UInt32}
    {es₁ es₂ rest : List (Event (Site BulkBody))}
    (hrange : (scanRange start count).Path es₁ (.done (some (lo, hi))))
    (hscan : (g.scan lo hi).Path es₂ (.done missing)) (hserves : Serves deployment H steps)
    (hes : steps.map (·.event) = es₁ ++ (es₂ ++ rest)) : Looked H g start count missing := by
  rw [← List.append_assoc] at hes
  obtain ⟨before, after, rfl, hbefore, -⟩ := List.map_eq_append_iff.mp hes
  have htells : ∀ ev ∈ es₁ ++ es₂, ev.Tells H := by
    rw [← hbefore]
    refine List.forall_mem_map.mpr (hserves.tells ?_)
    rw [hbefore, bulks_append, bulks_scanRange hrange, bulks_scan hscan, List.append_nil]
  exact .range (path_scanRange_some hrange fun ev hev => htells ev (List.mem_append_left _ hev))
    hscan fun ev hev => htells ev (List.mem_append_right _ hev)

theorem looked (h : Ran e g start count (steps.map (·.event)) r)
    (hserves : Serves e.deployment H steps) : Looked H g start count r.missing := by
  obtain ⟨es, hes⟩ : ∃ es, steps.map (·.event) = es := ⟨_, rfl⟩
  rw [hes] at h
  cases h with
  | empty hrange =>
    rw [← List.append_nil steps] at hserves
    have htells := hserves.tells (by rw [hes]; exact bulks_scanRange hrange)
    obtain ⟨hempty, hnot⟩ := path_scanRange_none hrange
      (by rw [← hes]; exact List.forall_mem_map.mpr htells)
    exact .empty hempty hnot
  | scanned hrange hscan _ => exact looked_of_paths hrange hscan hserves hes
  | filled hrange hscan _ _ => exact looked_of_paths hrange hscan hserves hes

/-- What an index has stored of a fill was missing. -/
theorem mem_missing_of_stored (h : Ran e g start count (steps.map (·.event)) r)
    (hserves : Serves e.deployment H steps)
    (hrequested : ∀ (seqs : List UInt32) (rows : List LedgerRow),
      ⟨.ledgersBySeq seqs, .ok rows⟩ ∈ questions (steps.map (·.event)) →
        ∀ row ∈ rows, row.seq ∈ seqs)
    {x : UInt32} (hx : x ∈ heldAfter e.deployment H steps) : x ∈ H ∨ x ∈ r.missing := by
  rcases hx with hx | ⟨s, hs, doc, rfl, hdoc⟩
  · exact .inl hx
  right
  have hfair := hserves.fair s hs
  obtain ⟨b, hb⟩ : ∃ b, s.event.bulk? = some b := by
    refine Option.ne_none_iff_exists'.mp fun hnone => ?_
    rw [hfair.stored_eq_nil hnone] at hdoc
    exact nomatch hdoc
  have hsent := (hfair.stored_subset hb).1 hdoc
  have hbulk : b ∈ bulks (steps.map (·.event)) :=
    List.mem_filterMap.mpr ⟨_, List.mem_map_of_mem hs, hb⟩
  obtain ⟨es, hes⟩ : ∃ es, steps.map (·.event) = es := ⟨_, rfl⟩
  rw [hes] at h hbulk hrequested
  cases h with
  | empty hrange =>
    rw [bulks_scanRange hrange] at hbulk
    exact nomatch hbulk
  | scanned hrange hscan _ =>
    exact nomatch bulks_filling hrange hscan _ [] ▸ hbulk
  | @filled es₁ es₂ rest lo hi missing out hrange hscan _ hall =>
    rw [bulks_filling hrange hscan] at hbulk
    obtain ⟨bs, hbs, rfl⟩ := exists_filledBy hall
    obtain ⟨b', hb', -, hfetched⟩ := hbs.exported.exists_of_sent hbulk hsent
    refine hbs.mem_missing.mpr ⟨b', hb', hbs.fetched_subset (fun seqs rows hq => ?_) hb' ?_⟩
    · exact hrequested seqs rows (questions_filling _ _ _ _ hq)
    · exact hfetched

/-- A missing ledger that the index has not stored is one that the report leaves. -/
theorem leaves_of_not_stored (hdry : g.dryRun = false)
    (h : Ran e g start count (steps.map (·.event)) r) (hserves : Serves e.deployment H steps)
    (hrequested : ∀ (seqs : List UInt32) (rows : List LedgerRow),
      ⟨.ledgersBySeq seqs, .ok rows⟩ ∈ questions (steps.map (·.event)) →
        ∀ row ∈ rows, row.seq ∈ seqs)
    {x : UInt32} (hx : x ∈ r.missing) (hnot : x ∉ heldAfter e.deployment H steps) :
    r.Leaves x := by
  obtain ⟨es, hes⟩ : ∃ es, steps.map (·.event) = es := ⟨_, rfl⟩
  rw [hes] at h hrequested
  cases h with
  | empty => exact nomatch hx
  | scanned _ _ hdone =>
    rw [hdry, or_iff_left Bool.false_ne_true] at hdone
    obtain rfl := hdone
    exact nomatch hx
  | @filled es₁ es₂ rest lo hi missing out hrange hscan _ hall =>
    obtain ⟨bs, hbs, rfl⟩ := exists_filledBy hall
    by_cases hfetched : x ∈ (BatchRun.out bs).fetched
    · obtain ⟨f, hf⟩ := hbs.exported.exists_fate hfetched
      cases f with
      | unindexable => exact .inr (.inl hf)
      | skipped =>
        obtain ⟨s, ds, ⟨rows, txs, fees, hq, -, -, row, hrow, rfl, -⟩, hskipped⟩ := hf
        obtain ⟨b, hb, rfl, -⟩ := BatchRun.mem_skipped.mp hskipped
        rw [hbs.selection_eq hb] at hq hskipped
        refine .inr (.inr ⟨b.seqs, hskipped, hrequested b.seqs rows ?_ row hrow⟩)
        exact questions_filling _ _ _ _ hq
      | written =>
        obtain ⟨s, ds, ⟨rows, txs, fees, -, -, -, row, -, rfl, hser⟩, b, hb, hok, hds⟩ := hf
        obtain ⟨doc, more, rfl, htoken⟩ := hser.head
        refine absurd (.inr ?_) hnot
        have hbulk : b ∈ bulks (steps.map (·.event)) := by
          rw [hes, bulks_filling hrange hscan]
          exact hb
        obtain ⟨ev, hev, hsome⟩ := List.mem_filterMap.mp hbulk
        obtain ⟨s, hs, rfl⟩ := List.mem_map.mp hev
        refine ⟨s, hs, doc, congrArg Token.ledger htoken, ?_⟩
        exact ((hserves.fair s hs).stored_subset hsome).2 hok (hds _ List.mem_cons_self)
    · refine .inl (List.mem_filter.mpr ⟨hx, ?_⟩)
      simpa using hfetched

/-- After a fill that leaves nothing the index holds what was missing as well. -/
theorem mem_heldAfter (hdry : g.dryRun = false) (h : Ran e g start count (steps.map (·.event)) r)
    (hserves : Serves e.deployment H steps)
    (hrequested : ∀ (seqs : List UInt32) (rows : List LedgerRow),
      ⟨.ledgersBySeq seqs, .ok rows⟩ ∈ questions (steps.map (·.event)) →
        ∀ row ∈ rows, row.seq ∈ seqs)
    (hnone : ∀ seq, ¬ r.Leaves seq) {x : UInt32} :
    x ∈ heldAfter e.deployment H steps ↔ x ∈ H ∨ x ∈ r.missing := by
  refine ⟨mem_missing_of_stored h hserves hrequested, ?_⟩
  rintro (hx | hx)
  · exact .inl hx
  · by_contra hnot
    exact hnone x (leaves_of_not_stored hdry h hserves hrequested hx hnot)

/-- Where what was added was missing, a fill looks at the same range again. -/
theorem Looked.again {missing missing' : List UInt32} (h : Looked H g start count missing)
    (h' : Looked H' g start count missing') (hsub : H ⊆ H')
    (hadded : ∀ x ∈ H', x ∉ H → x ∈ missing) (hmax : ∀ x ∈ H, x.toNat + 1 < UInt32.size) :
    missing'.Sublist missing ∧ ∀ x ∈ missing', x ∉ H' := by
  cases h' with
  | empty => exact ⟨List.nil_sublist _, fun _ hx => nomatch hx⟩
  | @range lo' hi' missing' es' hrange' hscan' htells' =>
  cases h with
  | empty hempty hnot =>
    have hnone : ∀ x, x ∉ H' := fun x hx =>
      nomatch hadded x hx (hempty ▸ Set.notMem_empty x)
    rcases hnot with hstart | hcount
    · exact absurd (hrange'.of_first hstart).1 (hnone _)
    · obtain ⟨last, hlast, -⟩ := hrange'.of_last hcount
      exact absurd hlast.1 (hnone _)
  | @range lo hi missing es hrange hscan htells =>
    have hwithin : ∀ x ∈ missing, lo ≤ x ∧ x < hi := by
      intro x hx
      rcases path_scan hscan htells with ⟨-, rfl⟩ | ⟨fin, hscanned⟩
      · exact nomatch hx
      · obtain ⟨-, hlo, hlt⟩ := (hscanned.missing.mem x).mp hx
        have := hscanned.fin_le
        rw [UInt32.le_iff_toNat_le, UInt32.lt_iff_toNat_lt]
        omega
    obtain ⟨rfl, rfl⟩ := hrange.again hrange' hsub
      (fun x hx hnot => hwithin x (hadded x hx hnot)) hmax
    exact scan_again hscan htells hscan' htells' hsub hadded

/-- A fill that is no dry run, and then one with the same arguments: the second reports a part of
    what the first has reported, and only of what that has left. The source may return what it likes
    of the ledgers that it is asked for, and of what it refuses the index may store what it
    likes. -/
theorem run_again (hdry : g.dryRun = false) (hmax : 0xFFFFFFFF ∉ H)
    (hrun : Fleet.Path e (g.run start count) (steps.map (·.event)) (.done r))
    (hserves : Serves e.deployment H steps)
    (hrequested : ∀ (seqs : List UInt32) (rows : List LedgerRow),
      ⟨.ledgersBySeq seqs, .ok rows⟩ ∈ questions (steps.map (·.event)) →
        ∀ row ∈ rows, row.seq ∈ seqs)
    (hagain : Fleet.Path e (g.run start count) (steps'.map (·.event)) (.done r'))
    (hserves' : Serves e.deployment (heldAfter e.deployment H steps) steps') :
    r'.missing.Sublist r.missing ∧ (∀ seq ∈ r'.missing, r.Leaves seq) ∧
      (r.missingInSource = [] → r.unindexable = [] → r.skipped = [] → r'.missing = []) := by
  obtain ⟨H', hH'⟩ : ∃ H', heldAfter e.deployment H steps = H' := ⟨_, rfl⟩
  have hsub : H ⊆ H' := hH' ▸ Set.subset_union_left
  have hadded : ∀ x ∈ H', x ∉ H → x ∈ r.missing := by
    rw [← hH']
    exact fun x hx hnot =>
      (mem_missing_of_stored (ran_iff.mpr hrun) hserves hrequested hx).resolve_left hnot
  have hlast : ∀ x ∈ H, x.toNat + 1 < UInt32.size := by
    intro x hx
    have hne : x.toNat ≠ UInt32.size - 1 := by
      intro heq
      obtain rfl : x = 0xFFFFFFFF := UInt32.toNat_inj.mp heq
      exact hmax hx
    have hlt : x.toNat < UInt32.size := x.toNat_lt
    omega
  have hfirst := looked (ran_iff.mpr hrun) hserves
  have hsecond := looked (ran_iff.mpr hagain) hserves'
  rw [hH'] at hsecond
  have hscans := hfirst.again hsecond hsub hadded hlast
  have hleaves : ∀ seq ∈ r'.missing, r.Leaves seq := fun seq hseq =>
    leaves_of_not_stored hdry (ran_iff.mpr hrun) hserves hrequested (hscans.1.subset hseq)
      (hH' ▸ hscans.2 seq hseq)
  refine ⟨hscans.1, hleaves, fun hsource hunindexable hskipped => ?_⟩
  refine List.eq_nil_iff_forall_not_mem.mpr fun seq hseq => ?_
  exact GapReport.not_leaves hsource hunindexable hskipped seq (hleaves seq hseq)

/-! ## A fill that leaves nothing -/

/-- What a batch asks of which the index takes the documents at once. -/
def writtenEvents (e : Exporter) (seqs : List UInt32) (ledgers : List LedgerRow) (rows : Rows)
    (out : Serialized) : List (Event (Site BulkBody)) :=
  ⟨.history (.ledgersBySeq seqs), .ok ledgers⟩ ::
    (Exporter.serializeEvents ledgers rows.transactions rows.fees out ++
      (Writer.attemptEvents (.ofDocuments e.deployment out.documents) (.ok {}) ++
        [⟨.increment .documentsWritten out.stats.documents, ()⟩]))

theorem path_written (e : Exporter) (seqs : List UInt32) {ledgers : List LedgerRow} {rows : Rows}
    {out : Serialized} (hledgers : ledgers ≠ [])
    (hout : Serialized.ofLedgers rows ledgers = (out, .ok ())) (hdocs : out.documents ≠ []) :
    (e.batch (.seqs seqs)).Path (writtenEvents e seqs ledgers rows out)
      (.done { fetched := ledgers.map (·.seq), stats := out.stats, unindexable := out.unindexable,
               written := true }) := by
  have hbody : Sendable.isEmpty (BulkBody.ofDocuments e.deployment out.documents) = false :=
    Bool.eq_false_iff.mpr (mt (Exporter.isEmpty_ofDocuments _ _).mp hdocs)
  have hattempts : ∀ left, (e.writer.attempts (BulkBody.ofDocuments e.deployment out.documents)
      out.stats.documents 0 left).Path
        (Writer.attemptEvents (.ofDocuments e.deployment out.documents) (.ok {}) ++
          ([⟨.increment .documentsWritten out.stats.documents, ()⟩] ++ [])) (.done (.written 1)) := by
    intro left
    cases left <;> exact path_andThen.mpr ⟨_, _, _, rfl, Writer.exists_path_attempt _ _,
      path_andThen.mpr ⟨_, _, (), rfl, Site.path_increment.mpr rfl, .here _⟩⟩
  have hwrite : (e.deliver out).Path
      (Writer.attemptEvents (.ofDocuments e.deployment out.documents) (.ok {}) ++
        [⟨.increment .documentsWritten out.stats.documents, ()⟩]) (.done (.written 1)) := by
    rw [Exporter.deliver, Writer.write, if_neg (by rw [hbody]; exact Bool.false_ne_true)]
    exact hattempts _
  refine path_andThen.mpr ⟨[_], _, ledgers, rfl, Site.path_history.mpr rfl, ?_⟩
  cases ledgers with
  | nil => exact absurd rfl hledgers
  | cons row rest =>
    refine path_andThen.mpr ⟨_, _, out, rfl, Exporter.exists_path_serialize hout, ?_⟩
    rw [← List.append_nil (Writer.attemptEvents _ _ ++ _)]
    exact path_andThen.mpr ⟨_, [], _, rfl, hwrite, .here _⟩

/-- The source is asked for the ledgers of the batch, and then for their rows. -/
theorem requested_writtenEvents (e : Exporter) {seqs : List UInt32} {ledgers : List LedgerRow}
    (rows : Rows) (out : Serialized) (h : ∀ row ∈ ledgers, row.seq ∈ seqs) (asked : List UInt32)
    (answered : List LedgerRow)
    (hq : ⟨.ledgersBySeq asked, .ok answered⟩ ∈ questions (writtenEvents e seqs ledgers rows out)) :
    ∀ row ∈ answered, row.seq ∈ asked := by
  have hq : (⟨.ledgersBySeq asked, .ok answered⟩ : Σ q : HistoryQuery, Except Error q.Reply) ∈
      [⟨.ledgersBySeq seqs, .ok ledgers⟩,
        ⟨.transactionsOf (ledgers.map (·.seq)), .ok rows.transactions⟩,
        ⟨.feesOf (ledgers.map (·.seq)), .ok rows.fees⟩] := hq
  simp only [List.mem_cons, List.not_mem_nil, or_false] at hq
  rcases hq with hq | hq | hq
  · cases hq
    exact h
  · cases hq
  · cases hq

/-- A batch asks the index for nothing that it holds. -/
theorem tells_writtenEvents (e : Exporter) (seqs : List UInt32) (ledgers : List LedgerRow)
    (rows : Rows) (out : Serialized) :
    ∀ ev ∈ writtenEvents e seqs ledgers rows out, ∀ H, ev.Tells H := by
  simp [writtenEvents, Exporter.serializeEvents, Writer.attemptEvents, Event.Tells]

/-- What a fill asks of an index that holds ledgers 5 and 8, and of those between them `held`. -/
def scanEvents (held : List UInt32) : List (Event (Site BulkBody)) :=
  [⟨.index .bounds, .ok (some (5, 8))⟩, ⟨.index (.seqsIn 5 9), .ok held⟩,
    ⟨.increment .missingLedgers (missingIn 5 9 held).1.length, ()⟩]

theorem path_scanEvents (held : List UInt32) :
    (scanRange none none).Path [(⟨.index .bounds, .ok (some (5, 8))⟩ : Event (Site BulkBody))]
        (.done (some (5, 9))) ∧
      (scan {} 5 9).Path [(⟨.index (.seqsIn 5 9), .ok held⟩ : Event (Site BulkBody))]
        (.done (missingIn 5 9 held).1) := by
  refine ⟨path_andThen.mpr ⟨[_], [], some (5, 8), rfl, Site.path_index.mpr rfl, .here _⟩, ?_⟩
  exact exists_path_scan {} 5 9 (by decide) (by decide) held

/-- Surroundings with an index that holds the sequences of `held`, from 5 to 8, answer so. -/
theorem serves_scanEvents {held : List UInt32} {more : List Exchange}
    (hheld : ∀ x, x ∈ H ↔ x ∈ held) (hasc : held.Pairwise (· < ·)) (hfirst : 5 ∈ held)
    (hlast : 8 ∈ held) (hwithin : ∀ x ∈ held, 5 ≤ x ∧ x ≤ 8 ∧ x < 9) (h : Serves "live" H more) :
    Serves "live" H ((scanEvents held).map (keeping "") ++ more) := by
  have hleast : IsLeast H 5 :=
    ⟨(hheld 5).mpr hfirst, fun x hx => (hwithin x ((hheld x).mp hx)).1⟩
  have hgreatest : IsGreatest H 8 :=
    ⟨(hheld 8).mpr hlast, fun x hx => (hwithin x ((hheld x).mp hx)).2.1⟩
  have hwindow : ∀ x, x ∈ held ↔ x ∈ H ∧ 5 ≤ x ∧ x < 9 := by
    intro x
    rw [hheld]
    exact ⟨fun hx => ⟨hx, (hwithin x hx).1, (hwithin x hx).2.2⟩, fun hx => hx.1⟩
  refine Serves.append ?_ rfl ?_ h
  · exact List.forall_mem_map.mpr fun ev _ => fair_keeping "" ev
  · refine List.forall_mem_map.mpr ?_
    simp only [scanEvents, List.forall_mem_cons]
    exact ⟨⟨hleast, hgreatest⟩, ⟨hasc, hwindow⟩, trivial, List.forall_mem_nil _⟩

/-- The sample ledgers are between ledgers 5 and 8, which the index holds. A fill writes both. -/
theorem exists_filled_sample : ∃ steps r,
    Ran ⟨"live", ⟨0, 0⟩⟩ {} none none (steps.map Exchange.event) r ∧ Serves "live" {5, 8} steps ∧
    (∀ (seqs : List UInt32) (rows : List LedgerRow),
      ⟨.ledgersBySeq seqs, .ok rows⟩ ∈ questions (steps.map Exchange.event) →
        ∀ row ∈ rows, row.seq ∈ seqs) ∧
    r.missing = [6, 7] ∧ r.missingInSource = [] ∧ r.unindexable = [] ∧ r.skipped = [] := by
  obtain ⟨rows, hrows⟩ : ∃ rows, sampleCloses.map (·.ledger) = rows := ⟨_, rfl⟩
  obtain ⟨out, hout, hdocs, hplaces⟩ := Serialized.exists_ofLedgers_sample
  have hseqs := seqs_sampleCloses
  rw [hrows] at hout hseqs
  have hne : rows ≠ [] := by
    rintro rfl
    cases hseqs
  have hbatch := path_written ⟨"live", ⟨0, 0⟩⟩ [6, 7] hne hout hdocs
  have htells := tells_writtenEvents ⟨"live", ⟨0, 0⟩⟩ [6, 7] rows sampleRows out
  have hwithin : ∀ row ∈ rows, row.seq ∈ ([6, 7] : List UInt32) := fun row hrow =>
    hseqs ▸ List.mem_map_of_mem hrow
  have hrequested := requested_writtenEvents ⟨"live", ⟨0, 0⟩⟩ sampleRows out hwithin
  -- only these three facts of what the batch asks are needed from here on
  generalize writtenEvents ⟨"live", ⟨0, 0⟩⟩ [6, 7] rows sampleRows out = rest at *
  have hbatches : seqBatches 50 [6, 7] = [.seqs [6, 7]] := by simp [seqBatches, groupsOf]
  have hall := Fleet.exists_path_exportAll hbatch
  rw [← hbatches] at hall
  obtain ⟨hrange, hscan⟩ := path_scanEvents [5, 8]
  have hran := Ran.filled hrange hscan (by decide) hall
  have hevents : ((scanEvents [5, 8]).map (keeping "") ++ rest.map (keeping "")).map
      Exchange.event = scanEvents [5, 8] ++ rest := by
    rw [← List.map_append, map_event_keeping]
  refine ⟨(scanEvents [5, 8]).map (keeping "") ++ rest.map (keeping ""), _, hevents ▸ hran, ?_, ?_,
    rfl, ?_, hplaces, rfl⟩
  · refine serves_scanEvents (fun x => by simp) (by decide) (by decide) (by decide) (by simp)
      (Serves.of_forall ?_)
    exact List.forall_mem_map.mpr fun ev hev => ⟨fair_keeping "" ev, htells ev hev⟩
  · rw [hevents, questions_append]
    exact hrequested
  · show [6, 7].filter (fun x => !(([] ++ rows.map LedgerRow.seq).contains x)) = []
    rw [hseqs]
    decide

/-- Filled once, they are not missing again. -/
theorem run_again_filled : ∃ steps steps' r r',
    Fleet.Path ⟨"live", ⟨0, 0⟩⟩ (run {} none none) (steps.map Exchange.event) (.done r) ∧
    Serves "live" {5, 8} steps ∧ r.missing = [6, 7] ∧
    Fleet.Path ⟨"live", ⟨0, 0⟩⟩ (run {} none none) (steps'.map Exchange.event) (.done r') ∧
    Serves "live" (heldAfter "live" {5, 8} steps) steps' ∧ r'.missing = [] := by
  obtain ⟨steps, r, hran, hserves, hrequested, hmissing, hsource, hunindexable, hskipped⟩ :=
    exists_filled_sample
  obtain ⟨H', hH'⟩ : ∃ H', heldAfter "live" {5, 8} steps = H' := ⟨_, rfl⟩
  have hheld : ∀ x, x ∈ H' ↔ x ∈ ([5, 6, 7, 8] : List UInt32) := by
    intro x
    rw [← hH', mem_heldAfter rfl hran hserves hrequested
      (GapReport.not_leaves hsource hunindexable hskipped), hmissing]
    simp only [Set.mem_insert_iff, Set.mem_singleton_iff, List.mem_cons, List.not_mem_nil, or_false]
    tauto
  -- the second fill
  obtain ⟨hrange, hscan⟩ := path_scanEvents [5, 6, 7, 8]
  have hevents : ((scanEvents [5, 6, 7, 8]).map (keeping "") ++ []).map Exchange.event =
      scanEvents [5, 6, 7, 8] := by
    rw [List.append_nil, map_event_keeping]
  have hserves' : Serves "live" H' ((scanEvents [5, 6, 7, 8]).map (keeping "") ++ []) :=
    serves_scanEvents hheld (by decide) (by decide) (by decide) (by simp) trivial
  have hagain : Fleet.Path ⟨"live", ⟨0, 0⟩⟩ (run {} none none)
      (((scanEvents [5, 6, 7, 8]).map (keeping "") ++ []).map Exchange.event)
      (.done { range := some (5, 9), missing := (missingIn 5 9 [5, 6, 7, 8]).1 }) := by
    rw [hevents]
    exact ran_iff.mp (.scanned hrange hscan (.inl (by decide)))
  rw [← hH'] at hserves'
  have hrun := ran_iff.mp hran
  obtain ⟨-, -, hnothing⟩ := run_again rfl (by decide) hrun hserves hrequested hagain hserves'
  exact ⟨_, _, _, _, hrun, hserves, hmissing, hagain, hserves',
    hnothing hsource hunindexable hskipped⟩

end GapFiller

end LedgerSearch
