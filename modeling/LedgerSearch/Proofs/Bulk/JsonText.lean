import Mathlib
import LedgerSearch.Json.Parser

/-
  Written JSON text is read back: a string whatever characters it holds (`stringBody_written`), and
  objects field by field.
-/

namespace LedgerSearch.Json

/-! ## Strings -/

/-- How a character of a written string is read: a control character without a letter of its own
    comes back as its number. -/
def Spells (p : Piece) (c : Char) : Prop := p = .char c ∨ p = .unit c.toNat ∧ c.toNat < 32

theorem pieces_unit (a b c d : Char) (rest : List Char) (h : [a, b, c, d].all Text.Hex.isDigit) :
    pieces ('\\' :: 'u' :: a :: b :: c :: d :: rest) =
      (pieces rest).map fun (ps, r) => (.unit (Text.Hex.number 16 [a, b, c, d]) :: ps, r) := by
  rw [pieces]
  dsimp only
  rw [if_pos h]
  cases pieces rest <;> rfl

theorem pieces_plain (c : Char) (rest : List Char) (hq : c ≠ '"') (hb : c ≠ '\\')
    (hc : ¬ c.toNat < 32) :
    pieces (c :: rest) = (pieces rest).map fun (ps, r) => (.char c :: ps, r) := by
  rw [pieces]
  · rw [if_neg (by simp [hb, hc])]
    cases pieces rest <;> rfl
  all_goals simp_all

theorem pieces_control (n : Nat) (h : n < 32) (rest : List Char) :
    ∃ p, Spells p (Char.ofNat n) ∧ pieces (escaped (Char.ofNat n) ++ rest) =
      (pieces rest).map fun (ps, r) => (p :: ps, r) := by
  by_cases hn : n = 8 ∨ n = 9 ∨ n = 10 ∨ n = 12 ∨ n = 13
  · refine ⟨.char (Char.ofNat n), .inl rfl, ?_⟩
    rcases hn with rfl | rfl | rfl | rfl | rfl <;> cases hr : pieces rest <;>
      simp [escaped, pieces, hr]
  · have hs : escaped (Char.ofNat n) =
        ['\\', 'u', '0', '0', hexDigit (n / 16), hexDigit (n % 16)] := by
      revert n; decide
    have hd : ['0', '0', hexDigit (n / 16), hexDigit (n % 16)].all Text.Hex.isDigit := by
      revert n; decide
    have hv : Text.Hex.number 16 ['0', '0', hexDigit (n / 16), hexDigit (n % 16)] =
        (Char.ofNat n).toNat := by
      revert n; decide
    refine ⟨.unit (Char.ofNat n).toNat, .inr ⟨rfl, ?_⟩, ?_⟩
    · revert n; decide
    · rw [hs, ← hv]
      exact pieces_unit _ _ _ _ rest hd

theorem pieces_escaped (c : Char) (rest : List Char) :
    ∃ p, Spells p c ∧ pieces (escaped c ++ rest) =
      (pieces rest).map fun (ps, r) => (p :: ps, r) := by
  by_cases hq : c = '"'
  · refine ⟨.char c, .inl rfl, ?_⟩
    subst hq
    cases hr : pieces rest <;> simp [escaped, pieces, hr]
  by_cases hb : c = '\\'
  · refine ⟨.char c, .inl rfl, ?_⟩
    subst hb
    cases hr : pieces rest <;> simp [escaped, pieces, hr]
  by_cases hc : c.toNat < 32
  · have := pieces_control c.toNat hc rest
    rwa [Char.ofNat_toNat] at this
  · refine ⟨.char c, .inl rfl, ?_⟩
    rw [escaped, if_neg hq, if_neg hb, if_neg hc]
    exact pieces_plain c rest hq hb hc

theorem pieces_written (cs rest : List Char) :
    ∃ ps, List.Forall₂ Spells ps cs ∧
      pieces (cs.flatMap escaped ++ '"' :: rest) = some (ps, rest) := by
  induction cs with
  | nil => exact ⟨[], .nil, by simp [pieces]⟩
  | cons c cs ih =>
    obtain ⟨ps, hps, he⟩ := ih
    obtain ⟨p, hp, hr⟩ := pieces_escaped c (cs.flatMap escaped ++ '"' :: rest)
    refine ⟨p :: ps, .cons hp hps, ?_⟩
    rw [List.flatMap_cons, List.append_assoc, hr, he]
    rfl

theorem joined_of_spells {ps : List Piece} {cs : List Char} (h : List.Forall₂ Spells ps cs) :
    joined ps = some cs := by
  induction h with
  | nil => rfl
  | @cons p c ps cs hp hps ih =>
    rcases hp with rfl | ⟨rfl, hc⟩
    · simp [joined, ih]
    · -- a control character is half of no pair
      have hhigh : isHighUnit c.toNat = false := by simp [isHighUnit]; omega
      have hlow : isLowUnit c.toNat = false := by simp [isLowUnit]; omega
      cases hps with
      | nil => simp [joined, hhigh, hlow]
      | @cons q d qs ds hq hqs =>
        have hfirst : joined (.unit c.toNat :: q :: qs) = (joined (q :: qs)).map (c :: ·) := by
          rw [Option.map_eq_bind]
          rcases hq with rfl | ⟨rfl, -⟩ <;> simp [joined, hhigh, hlow, Function.comp_def]
        rw [hfirst, ih]
        rfl

/-- A written string is read back, up to its closing quote. -/
theorem stringBody_written (s : String) (rest : List Char) :
    stringBody (s.toList.flatMap escaped ++ '"' :: rest) = some (s, rest) := by
  obtain ⟨ps, hps, he⟩ := pieces_written s.toList rest
  simp [stringBody, he, joined_of_spells hps]

/-! ## Values -/

theorem skipSpace_cons {c : Char} (h : isSpace c = false) (cs : List Char) :
    skipSpace (c :: cs) = c :: cs := by
  simp [skipSpace, h]

theorem skipSpace_stringChars (s : String) (rest : List Char) :
    skipSpace (stringChars s ++ rest) = '"' :: (s.toList.flatMap escaped ++ '"' :: rest) := by
  simp [skipSpace, stringChars, isSpace]

theorem value?_string (fuel depth : Nat) (s : String) (rest : List Char) :
    value? (fuel + 1) depth (stringChars s ++ rest) = some (.string s, rest) := by
  simp [value?, skipSpace_stringChars, stringBody_written]

theorem value?_object {fuel depth : Nat} {cs rest : List Char} {fs : List (String × Json)}
    (h : fields? fuel depth ('"' :: cs) = some (fs, rest)) :
    value? (fuel + 1) (depth + 1) ('\x7b' :: '"' :: cs) = some (.object fs, rest) := by
  have hopen := skipSpace_cons (c := '\x7b') (by decide) ('"' :: cs)
  have hquote := skipSpace_cons (c := '"') (by decide) cs
  simp [value?, hopen, hquote, h]

/-- The field of a written object that other fields follow. -/
theorem fields?_more {fuel depth : Nat} {name : String} {cs cs' rest : List Char} {j : Json}
    {fs : List (String × Json)} (hj : value? fuel depth cs = some (j, ',' :: cs'))
    (hfs : fields? fuel depth cs' = some (fs, rest)) :
    fields? (fuel + 1) depth (stringChars name ++ ':' :: cs) = some ((name, j) :: fs, rest) := by
  have hcolon := skipSpace_cons (c := ':') (by decide) cs
  have hcomma := skipSpace_cons (c := ',') (by decide) cs'
  simp [fields?, skipSpace_stringChars, stringBody_written, hcolon, hj, hcomma, hfs]

/-- The last field of a written object. -/
theorem fields?_last {fuel depth : Nat} {name : String} {cs rest : List Char} {j : Json}
    (hj : value? fuel depth cs = some (j, '\x7d' :: rest)) :
    fields? (fuel + 1) depth (stringChars name ++ ':' :: cs) = some ([(name, j)], rest) := by
  have hcolon := skipSpace_cons (c := ':') (by decide) cs
  have hclose := skipSpace_cons (c := '\x7d') (by decide) rest
  simp [fields?, skipSpace_stringChars, stringBody_written, hcolon, hj, hclose]

end LedgerSearch.Json
