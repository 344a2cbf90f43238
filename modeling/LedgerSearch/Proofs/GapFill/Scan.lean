import Mathlib
import LedgerSearch.GapFill
import LedgerSearch.Memory.World
import LedgerSearch.Proofs.Program.Run

/-
  What a gap scan reports: all sequences that are not held, up to the end where the last window
  holds nothing, and up to the last held one where it holds some (`scan_run`).
-/

namespace LedgerSearch

namespace GapFiller

variable {Body σ : Type} {H : Set UInt32}

/-- What is held of the sequences `[lo, hi)`, ascending. -/
structure Held (H : Set UInt32) (lo hi : Nat) (xs : List UInt32) : Prop where
  ascending : xs.Pairwise (· < ·)
  mem : ∀ x, x ∈ xs ↔ x ∈ H ∧ lo ≤ x.toNat ∧ x.toNat < hi

/-- What is not held of the sequences `[lo, hi)`, ascending. -/
structure Missing (H : Set UInt32) (lo hi : Nat) (xs : List UInt32) : Prop where
  ascending : xs.Pairwise (· < ·)
  mem : ∀ x, x ∈ xs ↔ x ∉ H ∧ lo ≤ x.toNat ∧ x.toNat < hi

/-! ## One window -/

theorem mem_seqsBetween {lo hi : Nat} (hhi : hi ≤ UInt32.size) {x : UInt32} :
    x ∈ seqsBetween lo hi ↔ lo ≤ x.toNat ∧ x.toNat < hi := by
  rw [seqsBetween, List.mem_map]
  constructor
  · rintro ⟨n, hn, rfl⟩
    rw [List.mem_range'_1] at hn
    rw [UInt32.toNat_ofNat_of_lt' (by omega)]
    omega
  · intro hx
    refine ⟨x.toNat, ?_, UInt32.ofNat_toNat⟩
    rw [List.mem_range'_1]
    omega

theorem pairwise_seqsBetween {lo hi : Nat} (hhi : hi ≤ UInt32.size) :
    (seqsBetween lo hi).Pairwise (· < ·) := by
  rw [seqsBetween, List.pairwise_map]
  refine List.Pairwise.imp_of_mem ?_ (List.pairwise_lt_range' 1)
  intro a b ha hb hab
  rw [List.mem_range'_1] at ha hb
  rw [UInt32.lt_iff_toNat_lt, UInt32.toNat_ofNat_of_lt' (by omega),
    UInt32.toNat_ofNat_of_lt' (by omega)]
  exact hab

theorem missing_seqsBetween {lo hi : Nat} (hhi : hi ≤ UInt32.size)
    (hH : ∀ x ∈ H, lo ≤ x.toNat → hi ≤ x.toNat) : Missing H lo hi (seqsBetween lo hi) := by
  refine ⟨pairwise_seqsBetween hhi, fun x => ?_⟩
  rw [mem_seqsBetween hhi]
  constructor
  · intro hx
    refine ⟨fun hxH => ?_, hx⟩
    have := hH x hxH hx.1
    omega
  · exact fun hx => hx.2

theorem missing_nil {lo hi : Nat} (hH : ∀ x : UInt32, lo ≤ x.toNat → x.toNat < hi → x ∈ H) :
    Missing H lo hi [] := by
  refine ⟨.nil, fun x => ?_⟩
  constructor
  · exact fun hx => nomatch hx
  · rintro ⟨hx, hlo, hhi⟩
    exact absurd (hH x hlo hhi) hx

theorem Missing.append {lo mid hi : Nat} {xs ys : List UInt32} (hx : Missing H lo mid xs)
    (hy : Missing H mid hi ys) (hl : lo ≤ mid) (hh : mid ≤ hi) : Missing H lo hi (xs ++ ys) := by
  refine ⟨List.pairwise_append.mpr ⟨hx.ascending, hy.ascending, fun x hxm y hym => ?_⟩, fun x => ?_⟩
  · have := ((hx.mem x).mp hxm).2.2
    have := ((hy.mem y).mp hym).2.1
    rw [UInt32.lt_iff_toNat_lt]
    omega
  · rw [List.mem_append, hx.mem, hy.mem]
    by_cases hmid : x.toNat < mid
    · constructor
      · rintro (h | h) <;> exact ⟨h.1, by omega, by omega⟩
      · exact fun h => .inl ⟨h.1, h.2.1, hmid⟩
    · constructor
      · rintro (h | h) <;> exact ⟨h.1, by omega, by omega⟩
      · exact fun h => .inr ⟨h.1, by omega, h.2.2⟩

theorem Held.tail {lo hi : Nat} {seq : UInt32} {rest : List UInt32}
    (h : Held H lo hi (seq :: rest)) : Held H (seq.toNat + 1) hi rest := by
  have hasc := List.pairwise_cons.mp h.ascending
  have hseq := (h.mem seq).mp (by simp)
  refine ⟨hasc.2, fun x => ?_⟩
  constructor
  · intro hx
    have hlt := UInt32.lt_iff_toNat_lt.mp (hasc.1 x hx)
    have hxH := (h.mem x).mp (List.mem_cons_of_mem _ hx)
    exact ⟨hxH.1, hlt, hxH.2.2⟩
  · rintro ⟨hxH, hlt, hxhi⟩
    rcases List.mem_cons.mp ((h.mem x).mpr ⟨hxH, by omega, hxhi⟩) with rfl | hx
    · omega
    · exact hx

/-- Nothing is held before the first of the held sequences. -/
theorem Held.head_le {lo hi : Nat} {seq : UInt32} {rest : List UInt32}
    (h : Held H lo hi (seq :: rest)) : ∀ x ∈ H, lo ≤ x.toNat → seq.toNat ≤ x.toNat := by
  intro x hxH hlo
  have hseq := (h.mem seq).mp (by simp)
  by_cases hx : x.toNat < hi
  · rcases List.mem_cons.mp ((h.mem x).mpr ⟨hxH, hlo, hx⟩) with rfl | hmem
    · exact Nat.le_refl _
    · have := ((h.tail).mem x).mp hmem
      omega
  · omega

theorem skippedBy_cons {next hi : Nat} {seq : UInt32} {rest : List UInt32}
    (h : Held H next hi (seq :: rest)) :
    skippedBy next (seq :: rest) =
      (seqsBetween next seq.toNat ++ (skippedBy (seq.toNat + 1) rest).1,
        (skippedBy (seq.toNat + 1) rest).2) := by
  have hseq := (h.mem seq).mp (by simp)
  rw [skippedBy, Nat.max_eq_right (by omega)]

/-- What is open after the held sequences of a window starts behind the last of them. -/
theorem skippedBy_after {next hi : Nat} {held : List UInt32} (h : Held H next hi held)
    (hle : next ≤ hi) :
    next ≤ (skippedBy next held).2 ∧ (skippedBy next held).2 ≤ hi ∧
    (∀ x ∈ H, (skippedBy next held).2 ≤ x.toNat → hi ≤ x.toNat) ∧
    (held ≠ [] → ∃ m ∈ held, (skippedBy next held).2 = m.toNat + 1) := by
  induction held generalizing next with
  | nil =>
    refine ⟨Nat.le_refl _, hle, fun x hxH hx => ?_, fun h => absurd rfl h⟩
    have := mt (h.mem x).mpr (by simp)
    have hx' : next ≤ x.toNat := hx
    by_contra hlt
    exact this ⟨hxH, hx', by omega⟩
  | cons seq rest ih =>
    have hseq := (h.mem seq).mp (by simp)
    obtain ⟨hlo, hhi, hopen, hlast⟩ := ih h.tail (by omega)
    rw [skippedBy_cons h]
    refine ⟨by omega, hhi, hopen, fun _ => ?_⟩
    by_cases hrest : rest = []
    · exact ⟨seq, by simp, by rw [hrest]; rfl⟩
    · obtain ⟨m, hm, hafter⟩ := hlast hrest
      exact ⟨m, List.mem_cons_of_mem _ hm, hafter⟩

theorem missing_skippedBy {next hi : Nat} {held : List UInt32} (h : Held H next hi held)
    (hle : next ≤ hi) : Missing H next (skippedBy next held).2 (skippedBy next held).1 := by
  induction held generalizing next with
  | nil => exact missing_nil fun x hlo hhi => absurd hhi (Nat.not_lt.mpr hlo)
  | cons seq rest ih =>
    have hseq := (h.mem seq).mp (by simp)
    have hsize : seq.toNat ≤ UInt32.size := Nat.le_of_lt seq.toNat_lt
    have hbefore : Missing H next seq.toNat (seqsBetween next seq.toNat) :=
      missing_seqsBetween hsize h.head_le
    have hself : Missing H seq.toNat (seq.toNat + 1) [] := missing_nil fun x hlo hhi => by
      have hx : x = seq := UInt32.toNat_inj.mp (by omega)
      rw [hx]
      exact hseq.1
    have hafter := ih h.tail (by omega)
    have hlo := (skippedBy_after h.tail (by omega)).1
    rw [skippedBy_cons h]
    exact hbefore.append (hself.append hafter (by omega) hlo) hseq.2.1 (by omega)

/-- A window reports all that is not held from `next` on and leaves open what it has not seen. -/
theorem missingIn_spec {next start stop : Nat} {held : List UInt32}
    (hsize : stop ≤ UInt32.size) (hn : next ≤ start) (hs : start ≤ stop)
    (h : Held H start stop held) (hopen : ∀ x ∈ H, next ≤ x.toNat → start ≤ x.toNat) :
    Missing H next (missingIn next stop held).2 (missingIn next stop held).1 ∧
    next ≤ (missingIn next stop held).2 ∧ (missingIn next stop held).2 ≤ stop ∧
    (∀ x ∈ H, (missingIn next stop held).2 ≤ x.toNat → stop ≤ x.toNat) ∧
    (held = [] → (missingIn next stop held).2 = stop) ∧
    (held ≠ [] → ∃ m ∈ H, start ≤ m.toNat ∧ (missingIn next stop held).2 = m.toNat + 1) := by
  by_cases hheld : held = []
  · subst hheld
    have hnone : ∀ x ∈ H, next ≤ x.toNat → stop ≤ x.toNat := by
      intro x hxH hx
      by_contra hlt
      exact nomatch (h.mem x).mpr ⟨hxH, hopen x hxH hx, by omega⟩
    rw [missingIn, if_pos rfl]
    exact ⟨missing_seqsBetween hsize hnone, by omega, Nat.le_refl _, fun _ _ hx => hx,
      fun _ => rfl, fun hne => absurd rfl hne⟩
  · have hwide : Held H next stop held := by
      refine ⟨h.ascending, fun x => ?_⟩
      rw [h.mem]
      constructor
      · exact fun hx => ⟨hx.1, by omega, hx.2.2⟩
      · exact fun hx => ⟨hx.1, hopen x hx.1 hx.2.1, hx.2.2⟩
    obtain ⟨hlo, hhi, hafter, hlast⟩ := skippedBy_after hwide (by omega)
    rw [missingIn, if_neg hheld]
    refine ⟨missing_skippedBy hwide (by omega), hlo, hhi, hafter, fun he => absurd he hheld,
      fun hne => ?_⟩
    obtain ⟨m, hm, he⟩ := hlast hne
    have hmH := (h.mem m).mp hm
    exact ⟨m, hmH.1, hmH.2.1, he⟩

/-! ## Window after window -/

/-- The index answers every window with what is held of it, ascending, in every state of `inv`, and
    stays in such a state. -/
def AnswersWindows (h : Program.Handler (Site Body) σ) (inv : σ → Prop) (H : Set UInt32) : Prop :=
  ∀ s, inv s → ∀ lo hi : UInt32, ∃ held s', h (.index (.seqsIn lo hi)) s = (.ok held, s') ∧
    inv s' ∧ held.Pairwise (· < ·) ∧ ∀ x, x ∈ held ↔ x ∈ H ∧ lo ≤ x ∧ x < hi

/-- Where the last of the windows of `[start, hi)` starts. -/
def lastWindow (window hi start : Nat) : Nat :=
  start + max window 1 * ((hi - start - 1) / max window 1)

theorem lastWindow_of_le {window hi start : Nat} (hs : start < hi)
    (h : hi ≤ start + max window 1) : lastWindow window hi start = start := by
  rw [lastWindow, Nat.div_eq_of_lt (by omega)]
  omega

theorem lastWindow_add {window hi start : Nat} (h : start + max window 1 < hi) :
    lastWindow window hi (start + max window 1) = lastWindow window hi start := by
  have hw : 0 < max window 1 := by omega
  have hsub : hi - start - 1 = hi - (start + max window 1) - 1 + max window 1 := by omega
  rw [lastWindow, lastWindow, hsub, Nat.add_div_right _ hw, Nat.mul_succ]
  omega

theorem le_lastWindow (window hi start : Nat) : start ≤ lastWindow window hi start :=
  Nat.le_add_right _ _

/-- Where the reported sequences end: at the end of the range where its last window holds nothing,
    else behind the last held sequence of it. -/
def ScanEnd (H : Set UInt32) (window hi start fin : Nat) : Prop :=
  ((∀ x ∈ H, lastWindow window hi start ≤ x.toNat → hi ≤ x.toNat) → fin = hi) ∧
  ∀ x ∈ H, lastWindow window hi start ≤ x.toNat → x.toNat < hi →
    ∃ m ∈ H, lastWindow window hi start ≤ m.toNat ∧ fin = m.toNat + 1

theorem ScanEnd.of_last {window hi start fin : Nat} {held : List UInt32} (hlt : start < hi)
    (hwindow : hi ≤ start + max window 1) (hheld : Held H start hi held)
    (hempty : held = [] → fin = hi)
    (hlast : held ≠ [] → ∃ m ∈ H, start ≤ m.toNat ∧ fin = m.toNat + 1) :
    ScanEnd H window hi start fin := by
  rw [ScanEnd, lastWindow_of_le hlt hwindow]
  refine ⟨fun hnone => hempty ?_, fun x hxH hx hxhi => hlast ?_⟩
  · refine List.eq_nil_iff_forall_not_mem.mpr fun x hx => ?_
    have hx := (hheld.mem x).mp hx
    have := hnone x hx.1 hx.2.1
    omega
  · exact List.ne_nil_of_mem ((hheld.mem x).mpr ⟨hxH, hx, hxhi⟩)

theorem ScanEnd.of_next {window hi start fin : Nat} (hnext : start + max window 1 < hi)
    (h : ScanEnd H window hi (start + max window 1) fin) : ScanEnd H window hi start fin := by
  rwa [ScanEnd, lastWindow_add hnext] at h

theorem scanFrom_run {h : Program.Handler (Site Body) σ} {inv : σ → Prop}
    (hidx : AnswersWindows h inv H) (window : Nat) {hi next start : Nat} {s : σ}
    (hsize : hi < UInt32.size) (hn : next ≤ start) (hs : start ≤ hi)
    (hopen : ∀ x ∈ H, next ≤ x.toNat → start ≤ x.toNat) (hinv : inv s) :
    ∃ missing s' fin, (scanFrom window hi next start).run h s = (.ok missing, s') ∧ inv s' ∧
      Missing H next fin missing ∧ next ≤ fin ∧ fin ≤ hi ∧
      (∀ x ∈ H, fin ≤ x.toNat → hi ≤ x.toNat) ∧ (start = hi → fin = next) ∧
      (start < hi → ScanEnd H window hi start fin) := by
  induction hk : hi - start using Nat.strong_induction_on generalizing next start s with
  | h k ih =>
  subst hk
  rw [scanFrom]
  by_cases hlt : start < hi
  · rw [if_pos hlt]
    obtain ⟨stop, hstop⟩ : ∃ stop, stop = min (start + max window 1) hi := ⟨_, rfl⟩
    obtain ⟨held, s₁, hask, hinv₁, hasc, hmem⟩ :=
      hidx s hinv (UInt32.ofNat start) (UInt32.ofNat stop)
    have hheld : Held H start stop held := by
      refine ⟨hasc, fun x => ?_⟩
      rw [hmem, UInt32.ofNat_le_iff (by omega), UInt32.lt_ofNat_iff (by omega)]
    obtain ⟨hmiss, hlo, hhi, hopen₁, hempty, hlast⟩ :=
      missingIn_spec (by omega) hn (by omega) hheld hopen
    obtain ⟨more, s₂, fin, hrun, hinv₂, hmore, hfin, hfinhi, hclosed, hdone, hrest⟩ :=
      ih (hi - stop) (by omega) hhi (by omega) hopen₁ hinv₁ rfl
    rw [← hstop, Program.run_andThen_ok (Site.run_index hask)]
    refine ⟨_, s₂, fin, ?_, hinv₂, hmiss.append hmore hlo hfin, by omega, hfinhi, hclosed,
      fun he => absurd he (Nat.ne_of_lt hlt), fun _ => ?_⟩
    · rw [Program.run_andThen_ok hrun]
      rfl
    -- the end is settled by the last window: this one, or that of the windows after it
    by_cases hend : stop = hi
    · rw [hdone hend]
      exact .of_last hlt (by omega) (hend ▸ hheld) (fun he => (hempty he).trans hend) hlast
    · obtain rfl : stop = start + max window 1 := by omega
      exact (hrest (by omega)).of_next (by omega)
  · rw [if_neg hlt]
    refine ⟨[], s, next, rfl, hinv, ?_, Nat.le_refl _, by omega, fun x hxH hx => ?_, fun _ => rfl,
      fun h => absurd h hlt⟩
    · exact missing_nil fun x hlo hhi => absurd hhi (Nat.not_lt.mpr hlo)
    · have := hopen x hxH hx
      omega

theorem scan_of_le (g : GapFiller) {lo hi : UInt32} (hle : hi ≤ lo) :
    (g.scan lo hi : Program (Site Body) (List UInt32)) = .done [] := by
  rw [scan, scanFrom, if_neg (Nat.not_lt.mpr (UInt32.le_iff_toNat_le.mp hle))]

theorem scan_of_lt {h : Program.Handler (Site Body) σ} {inv : σ → Prop}
    (hidx : AnswersWindows h inv H) (g : GapFiller) {lo hi : UInt32} (hlt : lo < hi) {s : σ}
    (hs : inv s) :
    ∃ missing s' fin, (g.scan lo hi).run h s = (.ok missing, s') ∧
      Missing H lo.toNat fin missing ∧ fin ≤ hi.toNat ∧
      (∀ x ∈ H, fin ≤ x.toNat → hi.toNat ≤ x.toNat) ∧
      ScanEnd H g.window.toNat hi.toNat lo.toNat fin := by
  have hlt' := UInt32.lt_iff_toNat_lt.mp hlt
  obtain ⟨missing, s', fin, hrun, -, hmiss, -, hfin, hclosed, -, hend⟩ :=
    scanFrom_run hidx g.window.toNat hi.toNat_lt (Nat.le_refl lo.toNat) (Nat.le_of_lt hlt')
      (fun _ _ hx => hx) hs
  exact ⟨missing, s', fin, hrun, hmiss, hfin, hclosed, hend hlt'⟩

/-- What is not held up to a held sequence, that one included, lies before it. -/
theorem Missing.mem_of_last {lo fin : Nat} {m : UInt32} {xs : List UInt32}
    (h : Missing H lo fin xs) (hm : m ∈ H) (hfin : fin = m.toNat + 1) (x : UInt32) :
    x ∈ xs ↔ x ∉ H ∧ lo ≤ x.toNat ∧ x < m := by
  rw [h.mem, UInt32.lt_iff_toNat_lt, hfin]
  constructor
  · rintro ⟨hxH, hlo, hlt⟩
    have hne : x.toNat ≠ m.toNat := fun he => hxH (UInt32.toNat_inj.mp he ▸ hm)
    exact ⟨hxH, hlo, by omega⟩
  · rintro ⟨hxH, hlo, hlt⟩
    exact ⟨hxH, hlo, by omega⟩

/-- The last held sequence of the last window is the last of the range. -/
theorem ScanEnd.exists_greatest {window fin : Nat} {lo hi y : UInt32}
    (h : ScanEnd H window hi.toNat lo.toNat fin) (hfin : fin ≤ hi.toNat)
    (hclosed : ∀ x ∈ H, fin ≤ x.toNat → hi.toNat ≤ x.toNat) (hy : y ∈ H)
    (hlo : lastWindow window hi.toNat lo.toNat ≤ y.toNat) (hhi : y < hi) :
    ∃ m, IsGreatest {x ∈ H | lo ≤ x ∧ x < hi} m ∧ fin = m.toNat + 1 := by
  obtain ⟨m, hm, hml, he⟩ := h.2 y hy hlo (UInt32.lt_iff_toNat_lt.mp hhi)
  have hlom := le_lastWindow window hi.toNat lo.toNat
  refine ⟨m, ⟨⟨hm, ?_, ?_⟩, fun x hx => ?_⟩, he⟩
  · rw [UInt32.le_iff_toNat_le]
    omega
  · rw [UInt32.lt_iff_toNat_lt]
    omega
  · have := hclosed x hx.1
    have := UInt32.lt_iff_toNat_lt.mp hx.2.2
    rw [UInt32.le_iff_toNat_le]
    omega

/-! ## From the lowest to the highest held sequence -/

theorem toNat_saturatingAdd_one {a : UInt32} (h : a.toNat + 1 < UInt32.size) :
    (saturatingAdd a 1).toNat = a.toNat + 1 := by
  rw [toNat_saturatingAdd, UInt32.toNat_one, Nat.min_eq_left (by omega)]

theorem lastWindow_lt (window : Nat) {hi start : Nat} (h : start < hi) :
    lastWindow window hi start < hi := by
  have := Nat.mul_div_le (hi - start - 1) (max window 1)
  rw [lastWindow]
  omega

theorem run_scanRange {h : Program.Handler (Site Body) σ} {s s₁ : σ} {first last : UInt32}
    (hb : h (.index .bounds) s = (.ok (some (first, last)), s₁)) :
    (scanRange none none).run h s = (.ok (some (first, saturatingAdd last 1)), s₁) := by
  rw [scanRange]
  · exact Program.run_andThen_ok (Site.run_index hb)
  · exact fun _ _ h _ => nomatch h

theorem scan_bounds {h : Program.Handler (Site Body) σ} {inv : σ → Prop}
    (hidx : AnswersWindows h inv H) (g : GapFiller) {first last : UInt32} {s : σ} (hs : inv s)
    (hfirst : IsLeast H first) (hlast : IsGreatest H last) (hmax : last.toNat + 1 < UInt32.size) :
    ∃ missing s', (g.scan first (saturatingAdd last 1)).run h s = (.ok missing, s') ∧
      missing.Pairwise (· < ·) ∧ ∀ x, x ∈ missing ↔ x ∉ H ∧ first ≤ x ∧ x ≤ last := by
  have hhi := toNat_saturatingAdd_one hmax
  have hle := UInt32.le_iff_toNat_le.mp (hlast.2 hfirst.1)
  have hlt : first < saturatingAdd last 1 := by
    rw [UInt32.lt_iff_toNat_lt]
    omega
  obtain ⟨missing, s', fin, hrun, hmiss, hfin, hclosed, hend⟩ := scan_of_lt hidx g hlt hs
  have hwindow := lastWindow_lt g.window.toNat (UInt32.lt_iff_toNat_lt.mp hlt)
  obtain ⟨m, hm, -, he⟩ := hend.2 last hlast.1 (by omega) (by omega)
  have hmle := UInt32.le_iff_toNat_le.mp (hlast.2 hm)
  have hafter := hclosed last hlast.1
  refine ⟨missing, s', hrun, hmiss.ascending, fun x => ?_⟩
  rw [hmiss.mem, UInt32.le_iff_toNat_le, UInt32.le_iff_toNat_le]
  constructor
  · exact fun hx => ⟨hx.1, hx.2.1, by omega⟩
  · exact fun hx => ⟨hx.1, hx.2.1, by omega⟩

/-- A scan of an index that holds the sequences `H` ends with an ascending list: all of the range
    that is not held where the last window holds nothing, else all up to the last held sequence.
    From the lowest to the highest held sequence nothing is left out, whatever the window. -/
theorem scan_run {h : Program.Handler (Site Body) σ} {inv : σ → Prop}
    (hidx : AnswersWindows h inv H) (g : GapFiller) {s : σ} (hs : inv s) :
    (∀ lo hi : UInt32, ∃ missing s', (g.scan lo hi).run h s = (.ok missing, s') ∧
      missing.Pairwise (· < ·) ∧
      (hi ≤ lo → missing = []) ∧
      (lo < hi → (∀ x ∈ H, lastWindow g.window.toNat hi.toNat lo.toNat ≤ x.toNat → hi ≤ x) →
        ∀ x, x ∈ missing ↔ x ∉ H ∧ lo ≤ x ∧ x < hi) ∧
      (lo < hi → ∀ y ∈ H, lastWindow g.window.toNat hi.toNat lo.toNat ≤ y.toNat → y < hi →
        ∃ m, IsGreatest {x ∈ H | lo ≤ x ∧ x < hi} m ∧
          ∀ x, x ∈ missing ↔ x ∉ H ∧ lo ≤ x ∧ x < m)) ∧
    ∀ first last s₁, IsLeast H first → IsGreatest H last → last.toNat + 1 < UInt32.size →
      h (.index .bounds) s = (.ok (some (first, last)), s₁) → inv s₁ →
      ∃ hi missing s', (scanRange none none).run h s = (.ok (some (first, hi)), s₁) ∧
        (g.scan first hi).run h s₁ = (.ok missing, s') ∧ missing.Pairwise (· < ·) ∧
        ∀ x, x ∈ missing ↔ x ∉ H ∧ first ≤ x ∧ x ≤ last := by
  refine ⟨fun lo hi => ?_, fun first last s₁ hfirst hlast hmax hb hs₁ => ?_⟩
  · by_cases hlt : lo < hi
    · obtain ⟨missing, s', fin, hrun, hmiss, hfin, hclosed, hend⟩ := scan_of_lt hidx g hlt hs
      refine ⟨missing, s', hrun, hmiss.ascending, fun hle => ?_, fun _ hempty x => ?_,
        fun _ y hy hlo hhi => ?_⟩
      · exact absurd hlt (UInt32.not_lt.mpr hle)
      · rw [hmiss.mem, hend.1 fun x hx hxl => UInt32.le_iff_toNat_le.mp (hempty x hx hxl),
          UInt32.le_iff_toNat_le, UInt32.lt_iff_toNat_lt]
      · obtain ⟨m, hm, he⟩ := hend.exists_greatest hfin hclosed hy hlo hhi
        refine ⟨m, hm, fun x => ?_⟩
        rw [hmiss.mem_of_last hm.1.1 he, UInt32.le_iff_toNat_le]
    · rw [scan_of_le g (UInt32.not_lt.mp hlt)]
      exact ⟨[], s, rfl, .nil, fun _ => rfl, fun h => absurd h hlt, fun h => absurd h hlt⟩
  · obtain ⟨missing, s', hrun, hspec⟩ := scan_bounds hidx g hs₁ hfirst hlast hmax
    exact ⟨_, missing, s', run_scanRange hb, hrun, hspec⟩

theorem answersWindows_world {held : List UInt32} (ha : held.Pairwise (· < ·)) :
    AnswersWindows Memory.World.answer
      (fun w => w.broken = (fun _ => none) ∧ w.index.held = held) {x | x ∈ held} := by
  rintro w ⟨hb, hheld⟩ lo hi
  refine ⟨held.filter fun x => lo ≤ x && x < hi, w, ?_, ⟨hb, hheld⟩, ha.filter _, fun x => ?_⟩
  · simp [Memory.World.answer, hb, Memory.World.callIndex, Memory.Index.seqsIn, hheld]
  · simp [List.mem_filter]

/-- An index that holds three ledgers. -/
def threeHeld : Memory.World :=
  { history := [], index := { deployment := "live", held := [3, 4, 9] } }

theorem scan_run_threeHeld :
    ∃ missing s', (scan { window := 2 } 1 12).run Memory.World.answer threeHeld =
      (.ok missing, s') ∧ missing.Pairwise (· < ·) ∧
      ∀ x, x ∈ missing ↔ x ∉ {x : UInt32 | x ∈ [3, 4, 9]} ∧ 1 ≤ x ∧ x < 12 := by
  have hidx : AnswersWindows Memory.World.answer
      (fun w => w.broken = (fun _ => none) ∧ w.index.held = [3, 4, 9])
      {x : UInt32 | x ∈ [3, 4, 9]} := answersWindows_world (by decide)
  obtain ⟨hscan, -⟩ := scan_run hidx { window := 2 } (s := threeHeld) ⟨rfl, rfl⟩
  obtain ⟨missing, s', hrun, hasc, -, hall, -⟩ := hscan 1 12
  refine ⟨missing, s', hrun, hasc, hall (by decide) fun x hx hlast => ?_⟩
  have hx : x = 3 ∨ x = 4 ∨ x = 9 := by simpa using hx
  rcases hx with rfl | rfl | rfl <;> exact absurd hlast (by decide)

end GapFiller

end LedgerSearch
