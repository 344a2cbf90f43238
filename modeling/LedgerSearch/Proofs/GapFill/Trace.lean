import Mathlib
import LedgerSearch.Proofs.GapFill.Batches
import LedgerSearch.Proofs.GapFill.Scan

/-
  The trace of a gap fill: what was asked before the batches, and what the report is made of.
-/

namespace LedgerSearch

open Program

namespace GapFiller

/-! ## Scans -/

/-- The index answers windows with sequences in them. -/
def AnswersWithin (es : List (Event (Site BulkBody))) : Prop :=
  ∀ (lo hi : UInt32) (held : List UInt32), ⟨.index (.seqsIn lo hi), .ok held⟩ ∈ es →
    ∀ x ∈ held, lo ≤ x ∧ x < hi

/-- Whatever the order of the held sequences, what lies between them ascends. -/
theorem ascending_skippedBy (next : Nat) (held : List UInt32) :
    (skippedBy next held).1.Pairwise (· < ·) ∧
    (∀ x ∈ (skippedBy next held).1, next ≤ x.toNat ∧ x.toNat < (skippedBy next held).2) ∧
    next ≤ (skippedBy next held).2 ∧
    ∀ stop, next ≤ stop → (∀ y ∈ held, y.toNat < stop) → (skippedBy next held).2 ≤ stop := by
  induction held generalizing next with
  | nil => exact ⟨.nil, (fun _ hx => nomatch hx), Nat.le_refl _, fun _ hs _ => hs⟩
  | cons seq rest ih =>
    obtain ⟨hasc, hmem, hle, hstop⟩ := ih (max next (seq.toNat + 1))
    have hsize : seq.toNat ≤ UInt32.size := Nat.le_of_lt seq.toNat_lt
    rw [skippedBy]
    dsimp only
    refine ⟨List.pairwise_append.mpr ⟨pairwise_seqsBetween hsize, hasc, fun x hx y hy => ?_⟩,
      fun x hx => ?_, by omega, fun stop hs hheld => ?_⟩
    · have := (mem_seqsBetween hsize).mp hx
      have := hmem y hy
      rw [UInt32.lt_iff_toNat_lt]
      omega
    · rcases List.mem_append.mp hx with hx | hx
      · have := (mem_seqsBetween hsize).mp hx
        omega
      · have := hmem x hx
        omega
    · have := hheld seq (by simp)
      exact hstop stop (by omega) fun y hy => hheld y (List.mem_cons_of_mem _ hy)

theorem ascending_missingIn {next stop : Nat} {held : List UInt32} (hsize : stop ≤ UInt32.size)
    (hn : next ≤ stop) (hheld : ∀ y ∈ held, y.toNat < stop) :
    (missingIn next stop held).1.Pairwise (· < ·) ∧
    (∀ x ∈ (missingIn next stop held).1,
      next ≤ x.toNat ∧ x.toNat < (missingIn next stop held).2) ∧
    next ≤ (missingIn next stop held).2 ∧ (missingIn next stop held).2 ≤ stop := by
  by_cases he : held = []
  · rw [missingIn, if_pos he]
    exact ⟨pairwise_seqsBetween hsize, fun x hx => (mem_seqsBetween hsize).mp hx, hn,
      Nat.le_refl _⟩
  · obtain ⟨hasc, hmem, hle, hstop⟩ := ascending_skippedBy next held
    rw [missingIn, if_neg he]
    exact ⟨hasc, hmem, hle, hstop stop hn hheld⟩

/-- A scan asks the index only, and reports no sequence twice. -/
theorem path_scanFrom {window hi next start : Nat} {es : List (Event (Site BulkBody))}
    {missing : List UInt32} (h : (scanFrom window hi next start).Path es (.done missing))
    (hsize : hi < UInt32.size) (hn : next ≤ start) (hw : AnswersWithin es) :
    questions es = [] ∧ bulks es = [] ∧ missing.Pairwise (· < ·) ∧
      ∀ x ∈ missing, next ≤ x.toNat := by
  induction hk : hi - start using Nat.strong_induction_on generalizing next start es missing with
  | h k ih =>
  subst hk
  rw [scanFrom] at h
  by_cases hlt : start < hi
  · rw [if_pos hlt] at h
    obtain ⟨stop, hstop⟩ : ∃ stop, stop = min (start + max window 1) hi := ⟨_, rfl⟩
    rw [← hstop] at h
    obtain ⟨es₁, es₂, held, rfl, h₁, h₂⟩ := path_andThen.mp h
    obtain rfl := Site.path_index.mp h₁
    obtain ⟨first, after, hfirst⟩ : ∃ first after, missingIn next stop held = (first, after) :=
      ⟨_, _, rfl⟩
    rw [hfirst] at h₂
    obtain ⟨es₃, es₄, more, rfl, h₃, h₄⟩ := path_andThen.mp h₂
    obtain ⟨rfl, rfl⟩ := path_done.mp h₄
    have hheld : ∀ y ∈ held, y.toNat < stop := by
      intro y hy
      have hy := hw _ _ held (List.mem_append_left _ (List.mem_singleton.mpr rfl)) y hy
      exact (UInt32.lt_ofNat_iff (by omega)).mp hy.2
    have hnext : next ≤ stop := by omega
    obtain ⟨hasc, hmem, hle, hafter⟩ := ascending_missingIn (by omega) hnext hheld
    rw [hfirst] at hasc hmem hle hafter
    obtain ⟨hq, hb, hmore, hfrom⟩ := ih (hi - stop) (by omega) h₃ hafter
      (fun lo hi held hev => hw lo hi held (by simp [hev])) rfl
    refine ⟨?_, ?_, List.pairwise_append.mpr ⟨hasc, hmore, fun x hx y hy => ?_⟩, fun x hx => ?_⟩
    · rw [questions_append, questions_append, hq]
      rfl
    · rw [bulks_append, bulks_append, hb]
      rfl
    · have := hmem x hx
      have := hfrom y hy
      rw [UInt32.lt_iff_toNat_lt]
      omega
    · rcases List.mem_append.mp hx with hx | hx
      · exact (hmem x hx).1
      · have := hfrom x hx
        omega
  · rw [if_neg hlt] at h
    obtain ⟨rfl, rfl⟩ := path_done.mp h
    exact ⟨rfl, rfl, .nil, fun _ hx => (List.not_mem_nil hx).elim⟩

/-- A range that one window covers. -/
theorem exists_path_scan (g : GapFiller) (lo hi : UInt32) (hlt : lo < hi)
    (hwindow : hi.toNat ≤ lo.toNat + max g.window.toNat 1) (held : List UInt32) :
    (g.scan lo hi).Path [(⟨.index (.seqsIn lo hi), .ok held⟩ : Event (Site BulkBody))]
      (.done (missingIn lo.toNat hi.toNat held).1) := by
  have hstop : min (lo.toNat + max g.window.toNat 1) hi.toNat = hi.toNat := by omega
  rw [scan, scanFrom, if_pos (UInt32.lt_iff_toNat_lt.mp hlt), hstop]
  dsimp only
  rw [UInt32.ofNat_toNat, UInt32.ofNat_toNat]
  refine path_andThen.mpr ⟨_, [], held, rfl, Site.path_index.mpr rfl, ?_⟩
  rw [scanFrom, if_neg (Nat.lt_irrefl _)]
  refine path_andThen.mpr ⟨[], [], [], rfl, .here _, ?_⟩
  rw [List.append_nil]
  exact .here _

theorem path_scanRange {start count : Option UInt32} {es : List (Event (Site BulkBody))}
    {range : Option (UInt32 × UInt32)} (h : (scanRange start count).Path es (.done range)) :
    questions es = [] ∧ bulks es = [] := by
  unfold scanRange at h
  split at h
  · obtain ⟨rfl, -⟩ := path_done.mp h
    exact ⟨rfl, rfl⟩
  · obtain ⟨es₁, es₂, bounds, rfl, h₁, h₂⟩ := path_andThen.mp h
    obtain rfl := Site.path_index.mp h₁
    cases bounds with
    | none =>
      obtain ⟨rfl, -⟩ := path_done.mp h₂
      exact ⟨rfl, rfl⟩
    | some b =>
      obtain ⟨rfl, -⟩ := path_done.mp h₂
      exact ⟨rfl, rfl⟩

/-! ## Whole fills -/

/-- The report of a fill that found `missing` and had it exported. -/
def filled (range : UInt32 × UInt32) (missing : List UInt32) (out : ExportReport) : GapReport where
  range := some range
  missing
  missingInSource := missing.filter (!out.fetched.contains ·)
  skipped := out.skipped
  unindexable := out.unindexable
  stats := out.stats
  backfilled := true

/-- How a fill came to its report: it found nothing to look at, it has looked only, or it has had
    what it found missing exported. -/
inductive Ran (e : Exporter) (g : GapFiller) (start count : Option UInt32) :
    List (Event (Site BulkBody)) → GapReport → Prop
  | empty {es : List (Event (Site BulkBody))} :
      (scanRange start count).Path es (.done none) → Ran e g start count es {}
  | scanned {es₁ es₂ : List (Event (Site BulkBody))} {lo hi : UInt32} {missing : List UInt32} :
      (scanRange start count).Path es₁ (.done (some (lo, hi))) →
      (g.scan lo hi).Path es₂ (.done missing) → missing = [] ∨ g.dryRun = true →
      Ran e g start count (es₁ ++ (es₂ ++ [⟨.increment .missingLedgers missing.length, ()⟩]))
        { range := some (lo, hi), missing }
  | filled {es₁ es₂ rest : List (Event (Site BulkBody))} {lo hi : UInt32}
      {missing : List UInt32} {out : ExportReport} :
      (scanRange start count).Path es₁ (.done (some (lo, hi))) →
      (g.scan lo hi).Path es₂ (.done missing) → ¬ (missing = [] ∨ g.dryRun = true) →
      Fleet.Path e (Fleet.exportAll (seqBatches g.batch missing)) rest (.done out) →
      Ran e g start count
        (es₁ ++ (es₂ ++ ([⟨.increment .missingLedgers missing.length, ()⟩] ++ rest)))
        (filled (lo, hi) missing out)

variable {e : Exporter} {g : GapFiller} {start count : Option UInt32} {report : GapReport}

/-- A range that was found is looked through and what is missing of it counted, whether or not the
    fill goes on then. -/
theorem path_of_scan {es₁ es₂ rest : List (Event (Site BulkBody))} {lo hi : UInt32}
    {missing : List UInt32} (hrange : (scanRange start count).Path es₁ (.done (some (lo, hi))))
    (hscan : (g.scan lo hi).Path es₂ (.done missing))
    (hrest : Fleet.Path e (if missing.isEmpty || g.dryRun then
        pure { range := some (lo, hi), missing }
      else g.backfill { range := some (lo, hi), missing }) rest (.done report)) :
    Fleet.Path e (g.run start count)
      (es₁ ++ (es₂ ++ ([⟨.increment .missingLedgers missing.length, ()⟩] ++ rest)))
      (.done report) := by
  refine Fleet.path_andThen.mpr ⟨es₁, _, _, rfl, Fleet.path_ofSite.mpr hrange, ?_⟩
  refine Fleet.path_andThen.mpr ⟨es₂, _, _, rfl, Fleet.path_ofSite.mpr hscan, ?_⟩
  exact Fleet.path_andThen.mpr
    ⟨_, rest, (), rfl, Fleet.path_ofSite.mpr (Site.path_increment.mpr rfl), hrest⟩

theorem isEmpty_or_dryRun {missing : List UInt32} :
    (missing.isEmpty || g.dryRun) = true ↔ missing = [] ∨ g.dryRun = true := by
  simp

theorem Ran.path {es : List (Event (Site BulkBody))} (h : Ran e g start count es report) :
    Fleet.Path e (g.run start count) es (.done report) := by
  cases h with
  | empty hrange =>
    exact Fleet.path_andThen.mpr ⟨es, [], none, (List.append_nil _).symm,
      Fleet.path_ofSite.mpr hrange, Fleet.path_done.mpr ⟨rfl, rfl⟩⟩
  | scanned hrange hscan hstop =>
    refine path_of_scan  hrange hscan ?_
    rw [if_pos (isEmpty_or_dryRun.mpr hstop)]
    exact Fleet.path_done.mpr ⟨rfl, rfl⟩
  | @filled es₁ es₂ rest lo hi missing out hrange hscan hstop hall =>
    refine path_of_scan hrange hscan ?_
    rw [if_neg (mt isEmpty_or_dryRun.mp hstop)]
    exact Fleet.path_andThen.mpr ⟨rest, [], out, (List.append_nil _).symm, hall,
      Fleet.path_done.mpr ⟨rfl, rfl⟩⟩

theorem ran_of_path {es : List (Event (Site BulkBody))}
    (h : Fleet.Path e (g.run start count) es (.done report)) : Ran e g start count es report := by
  obtain ⟨es₁, es₂, range, rfl, h₁, h₂⟩ := Fleet.path_andThen.mp h
  have hrange := Fleet.path_ofSite.mp h₁
  cases range with
  | none =>
    obtain ⟨rfl, rfl⟩ := Fleet.path_done.mp h₂
    rw [List.append_nil]
    exact .empty hrange
  | some range =>
    obtain ⟨es₃, es₄, missing, rfl, h₃, h₄⟩ := Fleet.path_andThen.mp h₂
    obtain ⟨es₅, es₆, u, rfl, h₅, h₆⟩ := Fleet.path_andThen.mp h₄
    obtain rfl := Site.path_increment.mp (Fleet.path_ofSite.mp h₅)
    have hscan := Fleet.path_ofSite.mp h₃
    dsimp only at h₆
    by_cases hstop : missing = [] ∨ g.dryRun = true
    · rw [if_pos (isEmpty_or_dryRun.mpr hstop)] at h₆
      obtain ⟨rfl, rfl⟩ := Fleet.path_done.mp h₆
      rw [List.append_nil]
      exact .scanned hrange hscan hstop
    · rw [if_neg (mt isEmpty_or_dryRun.mp hstop)] at h₆
      obtain ⟨es₇, es₈, out, rfl, h₇, h₈⟩ := Fleet.path_andThen.mp h₆
      obtain ⟨rfl, rfl⟩ := Fleet.path_done.mp h₈
      rw [List.append_nil]
      exact .filled hrange hscan hstop h₇

theorem ran_iff {es : List (Event (Site BulkBody))} :
    Ran e g start count es report ↔ Fleet.Path e (g.run start count) es (.done report) :=
  ⟨Ran.path, ran_of_path⟩

/-- A fill that is no dry run scans first, without asking the source, and then exports what it has
    found missing. -/
theorem path_run {es : List (Event (Site BulkBody))} (hdry : g.dryRun = false)
    (h : Fleet.Path e (g.run start count) es (.done report)) (hw : AnswersWithin es) :
    (report.missing = [] ∧ report.missingInSource = [] ∧ report.unindexable = [] ∧
      report.stats = {}) ∨
    ∃ scanned rest range out, es = scanned ++ rest ∧ questions scanned = [] ∧ bulks scanned = [] ∧
      report.missing.Pairwise (· < ·) ∧
      Fleet.Path e (Fleet.exportAll (seqBatches g.batch report.missing)) rest (.done out) ∧
      report = filled range report.missing out := by
  cases ran_iff.mpr h with
  | empty hrange => exact .inl ⟨rfl, rfl, rfl, rfl⟩
  | scanned hrange hscan hdone =>
    rw [hdry, or_iff_left Bool.false_ne_true] at hdone
    exact .inl ⟨hdone, rfl, rfl, rfl⟩
  | @filled es₁ es₂ rest lo hi missing out hrange hscan _ hall =>
    obtain ⟨hq₁, hb₁⟩ := path_scanRange hrange
    obtain ⟨hq₂, hb₂, hasc, -⟩ := path_scanFrom hscan hi.toNat_lt (Nat.le_refl _)
      fun lo hi held hev => hw lo hi held (by simp [hev])
    refine .inr ⟨es₁ ++ (es₂ ++ [⟨.increment .missingLedgers missing.length, ()⟩]), rest, (lo, hi),
      out, by simp, ?_, ?_, hasc, hall, rfl⟩
    · rw [questions_append, questions_append, hq₁, hq₂]
      rfl
    · rw [bulks_append, bulks_append, hb₁, hb₂]
      rfl

end GapFiller

end LedgerSearch
