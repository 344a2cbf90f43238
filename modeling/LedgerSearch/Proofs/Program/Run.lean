import LedgerSearch.Program.Site

/-
  How the parts of a program run under one handler.
-/

namespace LedgerSearch

namespace Program

variable {I : Interface} {α β σ : Type} {h : Handler I σ}

theorem run_andThen_ok {p : Program I α} {f : α → Program I β} {s s' : σ} {a : α}
    (hp : p.run h s = (.ok a, s')) : (p.andThen f).run h s = (f a).run h s' := by
  induction p generalizing s with
  | done b =>
    obtain ⟨hb, rfl⟩ := Prod.mk.inj hp
    rw [Except.ok.inj hb]
    rfl
  | stop e => exact nomatch (Prod.mk.inj hp).1
  | ask r next ih => exact ih _ hp

end Program

/-- A call of the index that it answers returns the answer. -/
theorem Site.run_index {Body σ : Type} {h : Program.Handler (Site Body) σ} {c : IndexCall Body}
    {s s' : σ} {a : c.Reply} (hc : h (.index c) s = (.ok a, s')) :
    (Site.index c).run h s = (.ok a, s') := by
  show ((Program.ofResult (h (.index c) s).1).run h (h (.index c) s).2) = _
  rw [hc]
  rfl

end LedgerSearch
