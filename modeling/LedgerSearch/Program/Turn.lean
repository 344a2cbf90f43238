import LedgerSearch.Program.Site

/-
  Programs taken a turn at a time: a turn ends where the program waits or is over. What a turn
  leaves of a program is a part of it, so that turns come to an end.
-/

namespace LedgerSearch.Program

variable {I : Interface} {Body α σ : Type}

/-- Where a turn has led. -/
inductive Turn (Body α : Type) where
  | ended (o : Outcome α)
  /-- The program waits so many milliseconds, and this is left of it. -/
  | waiting (ms : Nat) (rest : Program (Site Body) α)

/-- Runs a program up to where it waits. To wait for no time is not to wait. -/
def turn (h : Handler (Site Body) σ) : Program (Site Body) α → σ → Turn Body α × σ
  | .done a, s => (.ended (.ok a), s)
  | .stop f, s => (.ended (.error f), s)
  | .ask (.wait ms) next, s =>
    if ms = 0 then (next ()).turn h s else (.waiting ms (next ()), s)
  | .ask (.history q) next, s =>
    let (reply, s) := h (.history q) s
    (next reply).turn h s
  | .ask (.index c) next, s =>
    let (reply, s) := h (.index c) s
    (next reply).turn h s
  | .ask (.increment c n) next, s =>
    let (reply, s) := h (.increment c n) s
    (next reply).turn h s

/-- The first program is what is left of the second after one answer or more. -/
inductive PartOf : Program I α → Program I α → Prop where
  | next (r : I.Request) (next : I.Reply r → Program I α) (a : I.Reply r) :
    PartOf (next a) (.ask r next)
  | later (r : I.Request) (next : I.Reply r → Program I α) (a : I.Reply r) {p : Program I α} :
    PartOf p (next a) → PartOf p (.ask r next)

theorem acc_partOf (p : Program I α) : Acc PartOf p := by
  induction p with
  | done a => exact ⟨_, fun q h => nomatch h⟩
  | stop f => exact ⟨_, fun q h => nomatch h⟩
  | ask r next ih =>
    refine ⟨_, fun q h => ?_⟩
    cases h with
    | next _ _ a => exact ih a
    | later _ _ a h => exact (ih a).inv h

theorem partOf_of_turn (h : Handler (Site Body) σ) (p : Program (Site Body) α) (s : σ) {ms : Nat}
    {rest : Program (Site Body) α} (e : (p.turn h s).1 = .waiting ms rest) : PartOf rest p := by
  induction p generalizing s with
  | done a => simp [turn] at e
  | stop f => simp [turn] at e
  | ask r next ih =>
    cases r with
    | wait n =>
      by_cases hn : n = 0
      · simp only [turn, hn, if_true] at e
        exact PartOf.later (I := Site Body) (.wait n) next () (ih () s e)
      · simp only [turn, hn, if_false, Turn.waiting.injEq] at e
        rw [← e.2]
        exact PartOf.next (I := Site Body) (.wait n) next ()
    | history q => exact .later _ _ _ (ih _ _ (by simpa only [turn] using e))
    | index c => exact .later _ _ _ (ih _ _ (by simpa only [turn] using e))
    | increment c n => exact .later _ _ _ (ih _ _ (by simpa only [turn] using e))

end LedgerSearch.Program
