import Mathlib
import LedgerSearch.Proofs.GapFill.Scan
import LedgerSearch.Status

/-
  The status report and the gap fill of one index. The one counts the ledgers that its bounds leave
  room for, the other looks for them window after window; they come to the same number
  (`Status.shortfall_eq_missing`).
-/

namespace LedgerSearch

open Program
open GapFiller (AnswersWindows scan_bounds run_scanRange)

/-! ## Runs taken apart -/

namespace Program

variable {I : Interface} {α β σ : Type} {h : Handler I σ}

theorem run_andThen_eq_ok {p : Program I α} {f : α → Program I β} {s s' : σ} {b : β} :
    (p.andThen f).run h s = (.ok b, s') ↔
      ∃ a s₁, p.run h s = (.ok a, s₁) ∧ (f a).run h s₁ = (.ok b, s') := by
  constructor
  · intro hrun
    induction p generalizing s with
    | done a => exact ⟨a, s, rfl, hrun⟩
    | stop e => exact nomatch (Prod.mk.inj hrun).1
    | ask r next ih => exact ih _ hrun
  · intro hrun
    obtain ⟨a, s₁, hp, hf⟩ := hrun
    rw [run_andThen_ok hp, hf]

end Program

/-- A program without workers runs in the surroundings of the workers. -/
theorem Fleet.run_ofSite {α σ : Type} (workers : ℕ) (e : Exporter)
    {h : Handler (Site BulkBody) σ} {p : Program (Site BulkBody) α} {t : Fleet.State σ} {s : σ}
    {o : Outcome α} (hp : p.run h t.site = (o, s)) :
    ∃ busy, (ofSite p).run (handler workers e h) t = (o, ⟨s, busy⟩) := by
  induction p generalizing t with
  | done a =>
    obtain ⟨rfl, rfl⟩ := Prod.mk.inj hp
    exact ⟨t.busy, rfl⟩
  | stop f =>
    obtain ⟨rfl, rfl⟩ := Prod.mk.inj hp
    exact ⟨t.busy, rfl⟩
  | ask r next ih => exact ih _ (t := ⟨_, t.busyAfter r⟩) hp

/-! ## What is missing between the bounds -/

section

variable {H : Set UInt32} {first last : UInt32} {missing : List UInt32}

theorem ncard_between (hle : first ≤ last) :
    {x | first ≤ x ∧ x ≤ last}.ncard = last.toNat - first.toNat + 1 := by
  have himage : UInt32.toNat '' {x | first ≤ x ∧ x ≤ last} = Set.Icc first.toNat last.toNat := by
    ext n
    constructor
    · rintro ⟨x, ⟨hlo, hhi⟩, rfl⟩
      exact ⟨UInt32.le_iff_toNat_le.mp hlo, UInt32.le_iff_toNat_le.mp hhi⟩
    · intro hn
      have hlt : n < UInt32.size := Nat.lt_of_le_of_lt hn.2 last.toNat_lt
      have hnat : (UInt32.ofNat n).toNat = n := UInt32.toNat_ofNat_of_lt' hlt
      refine ⟨UInt32.ofNat n, ⟨?_, ?_⟩, hnat⟩ <;> rw [UInt32.le_iff_toNat_le, hnat]
      · exact hn.1
      · exact hn.2
  have hinj : Function.Injective UInt32.toNat := fun x y h => UInt32.toNat_inj.mp h
  have hle' := UInt32.le_iff_toNat_le.mp hle
  rw [← Set.ncard_image_of_injective _ hinj, himage, ← Finset.coe_Icc, Set.ncard_coe_finset,
    Nat.card_Icc]
  omega

/-- What is not held between the lowest and the highest held sequence, ascending. -/
structure MissingWithin (H : Set UInt32) (missing : List UInt32) : Prop where
  ascending : missing.Pairwise (· < ·)
  mem : ∀ x, x ∈ missing ↔ x ∉ H ∧ (∃ a ∈ H, a ≤ x) ∧ ∃ b ∈ H, x ≤ b

theorem between_iff (hfirst : IsLeast H first) (hlast : IsGreatest H last) (x : UInt32) :
    ((∃ a ∈ H, a ≤ x) ∧ ∃ b ∈ H, x ≤ b) ↔ first ≤ x ∧ x ≤ last := by
  constructor
  · rintro ⟨⟨a, ha, hax⟩, b, hb, hxb⟩
    exact ⟨UInt32.le_trans (hfirst.2 ha) hax, UInt32.le_trans hxb (hlast.2 hb)⟩
  · intro hx
    exact ⟨⟨first, hfirst.1, hx.1⟩, last, hlast.1, hx.2⟩

/-- The sequences from the lowest to the highest held one are those held and those missing. -/
theorem MissingWithin.length_add_ncard (h : MissingWithin H missing) (hfirst : IsLeast H first)
    (hlast : IsGreatest H last) :
    missing.length + H.ncard = last.toNat - first.toNat + 1 := by
  have hnodup : missing.Nodup := h.ascending.imp fun hlt => UInt32.ne_of_lt hlt
  have hsplit : ↑missing.toFinset ∪ H = {x | first ≤ x ∧ x ≤ last} := by
    ext x
    rw [Set.mem_union, List.coe_toFinset, Set.mem_ofPred_eq, Set.mem_ofPred_eq, h.mem,
      between_iff hfirst hlast]
    constructor
    · rintro (hx | hx)
      · exact hx.2
      · exact ⟨hfirst.2 hx, hlast.2 hx⟩
    · intro hx
      by_cases hxH : x ∈ H
      · exact .inr hxH
      · exact .inl ⟨hxH, hx⟩
  have hdisjoint : Disjoint (↑missing.toFinset : Set UInt32) H := by
    refine Set.disjoint_left.mpr fun x hx hxH => ?_
    rw [List.coe_toFinset] at hx
    exact ((h.mem x).mp hx).1 hxH
  rw [← ncard_between (hlast.2 hfirst.1), ← hsplit,
    Set.ncard_union_eq hdisjoint (Set.toFinite _) (Set.toFinite _), Set.ncard_coe_finset,
    List.toFinset_card_of_nodup hnodup]

end

/-! ## An index that holds a set of ledgers -/

section

variable {Body σ : Type}

/-- In every state of `inv` the call is answered, by something of `P`, and leaves such a state. -/
def AnswersCall (h : Handler (Site Body) σ) (inv : σ → Prop) (c : IndexCall Body)
    (P : c.Reply → Prop) : Prop :=
  ∀ s, inv s → ∃ a s', h (.index c) s = (.ok a, s') ∧ inv s' ∧ P a

/-- In every state of `inv` the question to the source is answered, and such a state is left. -/
def AnswersQuery (h : Handler (Site Body) σ) (inv : σ → Prop) (q : HistoryQuery) : Prop :=
  ∀ s, inv s → ∃ a s', h (.history q) s = (.ok a, s') ∧ inv s'

/-- An index that has one document for each ledger of `H`, and says so. -/
structure Holds (h : Handler (Site Body) σ) (inv : σ → Prop) (H : Set UInt32) : Prop where
  windows : AnswersWindows h inv H
  bounds : AnswersCall h inv .bounds fun reply =>
    ∃ first last, IsLeast H first ∧ IsGreatest H last ∧ reply = some (first, last)
  counts : ∀ n, AnswersCall h inv (.count n) fun k => n = .ledger → k = H.ncard

variable {h : Handler (Site Body) σ} {inv : σ → Prop} {H : Set UInt32}

theorem Site.run_history {q : HistoryQuery} {s s' : σ} {a : q.Reply}
    (hq : h (.history q) s = (.ok a, s')) : (Site.history q).run h s = (.ok a, s') := by
  show ((Program.ofResult (h (.history q) s).1).run h (h (.history q) s).2) = _
  rw [hq]
  rfl

namespace Status

/-- All counts are answered; the one of the ledger index is the number of ledgers. -/
theorem run_countAll (hidx : Holds h inv H) {s : σ} (hs : inv s) (ns : List IndexName) :
    ∃ counts s', (countAll ns).run h s = (.ok counts, s') ∧ inv s' ∧
      (.ledger ∈ ns → counts.lookup .ledger = some H.ncard) := by
  induction ns generalizing s with
  | nil => exact ⟨[], s, rfl, hs, nofun⟩
  | cons n ns ih =>
    obtain ⟨k, s₁, hk, hs₁, hledger⟩ := hidx.counts n s hs
    obtain ⟨counts, s₂, hrest, hs₂, hlookup⟩ := ih hs₁
    refine ⟨(n, k) :: counts, s₂, ?_, hs₂, fun hmem => ?_⟩
    · exact (run_andThen_ok (Site.run_index hk)).trans (run_andThen_ok hrest)
    · by_cases hn : n = .ledger
      · rw [List.lookup_cons, hn, hledger hn]
        rfl
      · rw [List.lookup_cons, beq_false_of_ne (Ne.symm hn)]
        exact hlookup ((List.mem_cons.mp hmem).resolve_left (Ne.symm hn))

/-- A report names the bounds of the index and the number of its ledgers. -/
theorem report_run (hidx : Holds h inv H) {bucket : UInt32} {s s' : σ} (hs : inv s)
    {r : StatusReport} (hrun : (report bucket).run h s = (.ok r, s')) :
    (∃ first last, IsLeast H first ∧ IsGreatest H last ∧ r.indexed = some (first, last)) ∧
      r.counts.lookup .ledger = some H.ncard := by
  obtain ⟨reply, s₁, hb, hs₁, first, last, hfirst, hlast, rfl⟩ := hidx.bounds s hs
  obtain ⟨counts, s₂, hcounts, -, hlookup⟩ := run_countAll hidx hs₁ IndexName.all
  have hrest := (run_andThen_ok (Site.run_index hb)).symm.trans hrun
  have hrest := (run_andThen_ok hcounts).symm.trans hrest
  obtain ⟨buckets, s₃, -, hrest⟩ := run_andThen_eq_ok.mp hrest
  obtain ⟨sourceFirst, s₄, -, hrest⟩ := run_andThen_eq_ok.mp hrest
  obtain ⟨sourceLast, s₅, -, hrest⟩ := run_andThen_eq_ok.mp hrest
  obtain ⟨sourceGaps, s₆, -, hrest⟩ := run_andThen_eq_ok.mp hrest
  obtain rfl := Except.ok.inj (Prod.mk.inj hrest).1
  exact ⟨⟨first, last, hfirst, hlast, rfl⟩, hlookup (by decide)⟩

/-- There is a report unless one of the other queries fails. -/
theorem exists_report (hidx : Holds h inv H) {bucket : UInt32}
    (hbuckets : ∀ lo hi, AnswersCall h inv (.buckets lo hi (max bucket 1)) fun _ => True)
    (hsource : ∀ q ∈ [.firstSeq, .lastSeq, .gaps], AnswersQuery h inv q) {s : σ} (hs : inv s) :
    ∃ r s', (report bucket).run h s = (.ok r, s') := by
  obtain ⟨reply, s₁, hb, hs₁, first, last, -, -, rfl⟩ := hidx.bounds s hs
  obtain ⟨counts, s₂, hcounts, hs₂, -⟩ := run_countAll hidx hs₁ IndexName.all
  obtain ⟨buckets, s₃, hbucket, hs₃, -⟩ :=
    hbuckets first (if last = 0xFFFFFFFF then last else last + 1) s₂ hs₂
  obtain ⟨sourceFirst, s₄, hq₁, hs₄⟩ := hsource .firstSeq (by simp) s₃ hs₃
  obtain ⟨sourceLast, s₅, hq₂, hs₅⟩ := hsource .lastSeq (by simp) s₄ hs₄
  obtain ⟨sourceGaps, s₆, hq₃, -⟩ := hsource .gaps (by simp) s₅ hs₅
  refine ⟨_, s₆, (run_andThen_ok (Site.run_index hb)).trans <| (run_andThen_ok hcounts).trans <|
    (run_andThen_ok (Site.run_index hbucket)).trans <|
    (run_andThen_ok (Site.run_history hq₁)).trans <|
    (run_andThen_ok (Site.run_history hq₂)).trans <|
    (run_andThen_ok (Site.run_history hq₃)).trans rfl⟩

end Status

/-- A report of the bounds and the number of the ledgers falls short by what is missing. -/
theorem MissingWithin.shortfall {missing : List UInt32} (hmissing : MissingWithin H missing)
    {first last : UInt32} (hfirst : IsLeast H first) (hlast : IsGreatest H last)
    {r : StatusReport} (hindexed : r.indexed = some (first, last))
    (hcount : r.counts.lookup .ledger = some H.ncard) : r.shortfall = .ok missing.length := by
  have hle := UInt32.le_iff_toNat_le.mp (hlast.2 hfirst.1)
  have hsum := hmissing.length_add_ncard hfirst hlast
  rw [StatusReport.shortfall, hindexed]
  show (checkedSub last.toNat first.toNat >>= _) = _
  rw [checkedSub, if_pos hle, hcount]
  show Except.ok (last.toNat - first.toNat + 1 - H.ncard) = _
  rw [← hsum, Nat.add_sub_cancel]

end

namespace GapFiller

variable {σ : Type} {h : Handler (Site BulkBody) σ} {inv : σ → Prop} {H : Set UInt32}

/-- What follows a scan: the export of what is missing, unless this is a dry run. -/
def afterScan (g : GapFiller) (r : GapReport) : Program Fleet GapReport :=
  if r.missing.isEmpty || g.dryRun then .done r else g.backfill r

/-- What comes of an export is reported beside what was found missing. -/
theorem run_afterScan {g : GapFiller} {r r' : GapReport} {I : Handler Fleet σ} {t t' : σ}
    (hrun : (g.afterScan r).run I t = (.ok r', t')) : r'.missing = r.missing := by
  unfold afterScan at hrun
  split at hrun
  · obtain rfl := Except.ok.inj (Prod.mk.inj hrun).1
    rfl
  · obtain ⟨out, t₁, -, hdone⟩ := run_andThen_eq_ok.mp hrun
    obtain rfl := Except.ok.inj (Prod.mk.inj hdone).1
    rfl

/-- A fill within the bounds of the index finds what is missing. -/
theorem run_within (hidx : Holds h inv H) (hmax : 0xFFFFFFFF ∉ H) (g : GapFiller) (workers : ℕ)
    (e : Exporter) {t : Fleet.State σ} (ht : inv t.site) :
    ∃ range missing t₁, MissingWithin H missing ∧
      (g.run none none).run (Fleet.handler workers e h) t =
        (g.afterScan { range := some range, missing }).run (Fleet.handler workers e h) t₁ := by
  obtain ⟨reply, s₁, hb, hs₁, first, last, hfirst, hlast, rfl⟩ := hidx.bounds t.site ht
  have hfits : last.toNat + 1 < UInt32.size := by
    have hne : last.toNat ≠ (0xFFFFFFFF : UInt32).toNat := fun heq =>
      hmax (UInt32.toNat_inj.mp heq ▸ hlast.1)
    have hlt : last.toNat < UInt32.size := last.toNat_lt
    have hval : (0xFFFFFFFF : UInt32).toNat = 4294967295 := rfl
    have hsize : UInt32.size = 4294967296 := rfl
    omega
  obtain ⟨missing, s₂, hscan, hasc, hmem⟩ :=
    scan_bounds hidx.windows g hs₁ hfirst hlast hfits
  have hmissing : MissingWithin H missing :=
    ⟨hasc, fun x => by rw [hmem, between_iff hfirst hlast]⟩
  obtain ⟨busy₁, hrange⟩ := Fleet.run_ofSite workers e (run_scanRange hb)
  obtain ⟨busy₂, hlook⟩ := Fleet.run_ofSite workers e (t := ⟨s₁, busy₁⟩) hscan
  obtain ⟨busy₃, hcount⟩ := Fleet.run_ofSite workers e (h := h)
    (t := ⟨s₂, busy₂⟩) (p := Site.increment .missingLedgers missing.length) rfl
  exact ⟨(first, saturatingAdd last 1), missing, _, hmissing,
    (run_andThen_ok hrange).trans <| (run_andThen_ok hlook).trans (run_andThen_ok hcount)⟩

end GapFiller

namespace Status

variable {σ : Type} {h : Handler (Site BulkBody) σ} {inv : σ → Prop} {H : Set UInt32}

/-- The status report and the gap fill of one index, which holds the ledgers `H` below the highest
    sequence of all: whatever the window, the report falls short by the number of sequences that the
    fill finds missing, and by none exactly where the fill finds nothing to do. A fill that only
    looks comes to an end, and so does a report whose other queries are answered. -/
theorem shortfall_eq_missing (hidx : Holds h inv H) (hmax : 0xFFFFFFFF ∉ H) (bucket : UInt32)
    (g : GapFiller) (workers : ℕ) (e : Exporter) {s : σ} (hs : inv s) {t : Fleet.State σ}
    (ht : inv t.site) :
    (∀ r s', (report bucket).run h s = (.ok r, s') →
      (∀ r' t', (g.run none none).run (Fleet.handler workers e h) t = (.ok r', t') →
        r.shortfall = .ok r'.missing.length) ∧
      (r.shortfall = .ok 0 ↔ ∃ r' t',
        (g.run none none).run (Fleet.handler workers e h) t = (.ok r', t') ∧
          r'.missing = [] ∧ r'.backfilled = false)) ∧
    (g.dryRun = true →
      ∃ r' t', (g.run none none).run (Fleet.handler workers e h) t = (.ok r', t')) ∧
    ((∀ lo hi, AnswersCall h inv (.buckets lo hi (max bucket 1)) fun _ => True) →
      (∀ q ∈ [.firstSeq, .lastSeq, .gaps], AnswersQuery h inv q) →
      ∃ r s', (report bucket).run h s = (.ok r, s')) := by
  obtain ⟨range, missing, t₁, hmissing, hfill⟩ := GapFiller.run_within hidx hmax g workers e ht
  rw [hfill]
  refine ⟨fun r s' hrun => ?_, fun hdry => ?_, fun hbuckets hsource =>
    exists_report hidx hbuckets hsource hs⟩
  · obtain ⟨⟨first, last, hfirst, hlast, hindexed⟩, hcount⟩ := report_run hidx hs hrun
    rw [hmissing.shortfall hfirst hlast hindexed hcount]
    refine ⟨fun r' t' hrun' => by rw [GapFiller.run_afterScan hrun'], fun hnone => ?_, ?_⟩
    · obtain rfl := List.length_eq_zero_iff.mp (Except.ok.inj hnone)
      exact ⟨{ range := some range, missing := [] }, t₁, rfl, rfl, rfl⟩
    · rintro ⟨r', t', hrun', hnil, -⟩
      -- a fill reports what it found, also where it goes on to export it
      have hfound : _ = missing := GapFiller.run_afterScan hrun'
      rw [← hfound, hnil]
      rfl
  · rw [GapFiller.afterScan, hdry, Bool.or_true, if_pos rfl]
    exact ⟨_, t₁, rfl⟩

/-- A source and an index in memory that answer every query, the index by what it lists. -/
def Answering (held : List UInt32) (w : Memory.World) : Prop :=
  w.broken = (fun _ => none) ∧ w.index.held = held

theorem answersCall_world {held : List UInt32} {c : IndexCall BulkBody} {P : c.Reply → Prop}
    (hcall : ∀ w : Memory.World, w.index.held = held → ∃ a, w.callIndex c = (.ok a, w) ∧ P a) :
    AnswersCall Memory.World.answer (Answering held) c P := by
  rintro w ⟨hb, hheld⟩
  obtain ⟨a, ha, hP⟩ := hcall w hheld
  refine ⟨a, w, ?_, ⟨hb, hheld⟩, hP⟩
  rw [Memory.World.answer, hb]
  exact ha

theorem answersQuery_world (held : List UInt32) (q : HistoryQuery) :
    AnswersQuery Memory.World.answer (Answering held) q := by
  rintro w ⟨hb, hheld⟩
  refine ⟨w.history.answer q, w, ?_, hb, hheld⟩
  rw [Memory.World.answer, hb]

theorem holds_threeHeld :
    Holds Memory.World.answer (Answering [3, 4, 9]) {x | x ∈ [3, 4, 9]} := by
  have hleast : ∀ x ∈ ([3, 4, 9] : List UInt32), 3 ≤ x := by simp
  have hgreatest : ∀ x ∈ ([3, 4, 9] : List UInt32), x ≤ 9 := by simp
  refine ⟨GapFiller.answersWindows_world (by decide), answersCall_world fun w hheld => ?_,
    fun n => answersCall_world fun w hheld => ⟨_, rfl, ?_⟩⟩
  · refine ⟨_, rfl, 3, 9, ⟨by simp, hleast⟩, ⟨by simp, hgreatest⟩, ?_⟩
    rw [Memory.Index.bounds, hheld]
    rfl
  · rintro rfl
    rw [← List.coe_toFinset, Set.ncard_coe_finset, Memory.Index.count, if_pos rfl, hheld]
    rfl

/-- Of the sequences from 3 to 9 all but three are missing, found in windows of two. -/
theorem shortfall_eq_missing_threeHeld :
    ∃ r s' r' t',
      (report 50).run Memory.World.answer GapFiller.threeHeld = (.ok r, s') ∧
      (GapFiller.run { window := 2, dryRun := true } none none).run
        (Fleet.handler 1 ⟨"live", ⟨0, 0⟩⟩ Memory.World.answer) ⟨GapFiller.threeHeld, 0⟩ =
          (.ok r', t') ∧
      r'.missing = [5, 6, 7, 8] ∧ r.shortfall = .ok 4 := by
  obtain ⟨hequal, hlook, hreport⟩ := shortfall_eq_missing holds_threeHeld (by simp) 50
    { window := 2, dryRun := true } 1 ⟨"live", ⟨0, 0⟩⟩ (s := GapFiller.threeHeld) ⟨rfl, rfl⟩
    (t := ⟨GapFiller.threeHeld, 0⟩) ⟨rfl, rfl⟩
  obtain ⟨r', t', hfill⟩ := hlook rfl
  obtain ⟨r, s', hrun⟩ := hreport (fun lo hi => answersCall_world fun w _ => ⟨_, rfl, trivial⟩)
    fun q _ => answersQuery_world [3, 4, 9] q
  have hmissing : ((GapFiller.run { window := 2, dryRun := true } none none).run
      (Fleet.handler 1 ⟨"live", ⟨0, 0⟩⟩ Memory.World.answer)
        ⟨GapFiller.threeHeld, 0⟩).1.toOption.map (·.missing) = some [5, 6, 7, 8] := by cbv
  rw [hfill] at hmissing
  have hfound : r'.missing = [5, 6, 7, 8] := Option.some.inj hmissing
  refine ⟨r, s', r', t', hrun, hfill, hfound, ?_⟩
  rw [(hequal r s' hrun).1 r' t' hfill, hfound]
  rfl

end Status

end LedgerSearch
