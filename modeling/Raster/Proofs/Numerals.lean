import Mathlib.Tactic.Ring
import Raster.Json.Parser

/- Numerals read back. The digits of a number have its value (`value_digits`) and no zero in
   front (`Leads`). A `Numeral.Readable` is written as JSON allows; from its text followed
   by anything that cannot go on with a number the same numeral is read
   (`Json.numeral_takes`).

   `Takes x a rest` says of a reader that it found `a` and left `rest`; it has one rule for
   each way in which the readers are put together. -/
namespace Raster

namespace Decimal

/-! Digits. -/

theorem Digit.ofChar?_char (d : Digit) : Digit.ofChar? d.char = some d := by
  revert d
  decide

theorem Digit.char_eq_zero_iff (d : Digit) : d.char = '0' ↔ d = .zero := by
  revert d
  decide

/-- A digit is written unlike any character that is read as none. -/
theorem Digit.char_ne {c : Char} (hc : Digit.ofChar? c = none) (d : Digit) : d.char ≠ c := by
  rintro rfl
  rw [ofChar?_char] at hc
  cases hc

/-- The digits do not begin with a zero, unless they are a single zero. -/
def Leads (ds : List Digit) : Prop := ds = [.zero] ∨ ∃ d r, ds = d :: r ∧ d ≠ .zero

theorem Leads.ne_nil {ds : List Digit} (h : Leads ds) : ds ≠ [] := by
  rcases h with rfl | ⟨d, r, rfl, -⟩ <;> simp

theorem digits_of_lt {n : Nat} (h : n < 10) : digits n = [lastDigit n] := by
  rw [digits, if_pos h]

theorem digits_of_le {n : Nat} (h : 10 ≤ n) : digits n = digits (n / 10) ++ [lastDigit n] := by
  rw [digits, if_neg (by omega)]

theorem value_concat (ds : List Digit) (d : Digit) : value (ds ++ [d]) = 10 * value ds + d.val := by
  simp [value, List.foldl_append]

theorem value_digits (n : Nat) : value (digits n) = n := by
  induction n using digits.induct with
  | case1 n h =>
    rw [digits_of_lt h]
    simp [value, lastDigit, Nat.mod_eq_of_lt h]
  | case2 n h ih =>
    rw [digits_of_le (by omega), value_concat, ih]
    simp only [lastDigit]
    omega

theorem digits_leads {n : Nat} (hn : n ≠ 0) : ∃ d r, digits n = d :: r ∧ d ≠ .zero := by
  induction n using digits.induct with
  | case1 n h =>
    refine ⟨lastDigit n, [], digits_of_lt h, fun hz => hn ?_⟩
    have hval := congrArg Fin.val hz
    simp only [lastDigit, Digit.zero] at hval
    omega
  | case2 n h ih =>
    obtain ⟨d, r, hd, hz⟩ := ih (by omega)
    exact ⟨d, r ++ [lastDigit n], by rw [digits_of_le (by omega), hd]; rfl, hz⟩

theorem leads_digits (n : Nat) : Leads (digits n) := by
  by_cases h : n = 0
  · subst h
    exact Or.inl (digits_of_lt (by decide))
  · exact Or.inr (digits_leads h)

theorem digits_ne_nil (n : Nat) : digits n ≠ [] := (leads_digits n).ne_nil

theorem length_digits_le {n k : Nat} (h : n < 10 ^ (k + 1)) : (digits n).length ≤ k + 1 := by
  induction k generalizing n with
  | zero =>
    rw [digits_of_lt (by simpa using h)]
    exact Nat.le_refl 1
  | succ k ih =>
    rcases Nat.lt_or_ge n 10 with hn | hn
    · rw [digits_of_lt hn, List.length_singleton]
      omega
    · have hlt : n / 10 < 10 ^ (k + 1) := by
        rw [Nat.pow_succ] at h
        omega
      rw [digits_of_le hn, List.length_append, List.length_singleton]
      exact Nat.succ_le_succ (ih hlt)

/-- A number with more than `k` digits is not below `10 ^ k`. -/
theorem le_of_length_digits {n k : Nat} (hn : n ≠ 0) (h : k < (digits n).length) : 10 ^ k ≤ n := by
  cases k with
  | zero => exact Nat.one_le_iff_ne_zero.2 hn
  | succ k =>
    refine Nat.le_of_not_lt (fun hlt => ?_)
    have hle := length_digits_le hlt
    omega

/-- The numeral is written as JSON allows. -/
structure Numeral.Readable (n : Numeral) : Prop where
  whole : Leads n.whole
  exponent : ∀ e, n.exponent = some e → e.digits ≠ []

theorem Numeral.ofInt_readable (v : Int) : (Numeral.ofInt v).Readable :=
  ⟨leads_digits _, fun _ h => nomatch h⟩

end Decimal

namespace Json
open Decimal

/-- The reader `x` finds `a` and leaves `rest`. -/
def Takes {α : Type} {P : List Char → Prop} (x : Option (α × { r : List Char // P r })) (a : α)
    (rest : List Char) : Prop :=
  ∃ h, x = some (a, ⟨rest, h⟩)

theorem Takes.bind {α β : Type} {P Q : List Char → Prop} {x : Option (α × { r : List Char // P r })}
    {a : α} {b : β} {rest rest' : List Char} (hx : Takes x a rest)
    {f : α × { r : List Char // P r } → Option (β × { r : List Char // Q r })}
    (hf : ∀ h, Takes (f (a, ⟨rest, h⟩)) b rest') : Takes (x >>= f) b rest' := by
  obtain ⟨h, rfl⟩ := hx
  exact hf h

theorem Takes.map {α β : Type} {P Q : List Char → Prop} {x : Option (α × { r : List Char // P r })}
    {a : α} {rest : List Char} (hx : Takes x a rest) (g : α → β)
    (hQ : ∀ r : { r : List Char // P r }, Q r.1) :
    Takes (x.map fun (a, t) => (g a, (⟨t.1, hQ t⟩ : { r : List Char // Q r }))) (g a) rest := by
  obtain ⟨h, rfl⟩ := hx
  exact ⟨_, rfl⟩

theorem ne_cons_of_head? {c : Char} {s : List Char} (h : s.head? ≠ some c) (r : List Char) :
    s = c :: r → False := by
  rintro rfl
  exact h rfl

/-- The text does not begin with a digit. -/
def NoDigit (s : List Char) : Prop := ∀ c ∈ s.head?, Digit.ofChar? c = none

/-- The text does not begin with anything that goes on with a number. -/
def Ends (s : List Char) : Prop :=
  ∀ c ∈ s.head?, Digit.ofChar? c = none ∧ c ≠ '.' ∧ c ≠ 'e' ∧ c ≠ 'E'

theorem Ends.noDigit {s : List Char} (h : Ends s) : NoDigit s := fun c hc => (h c hc).1

theorem digitRun_append (ds : List Digit) {s : List Char} (hs : NoDigit s) :
    digitRun (ds.map Digit.char ++ s) = (ds, s) := by
  induction ds with
  | nil =>
    cases s with
    | nil => rfl
    | cons c r => simp only [List.map_nil, List.nil_append, digitRun, hs c rfl]
  | cons d ds ih =>
    simp only [List.map_cons, List.cons_append, digitRun, Digit.ofChar?_char, ih]

theorem whole_takes {ds : List Digit} {s : List Char} (hd : Leads ds) (hs : NoDigit s) :
    Takes (whole (ds.map Digit.char ++ s)) ds s := by
  rcases hd with rfl | ⟨d, r, rfl, hd⟩
  · exact ⟨_, rfl⟩
  · have hrun := digitRun_append (d :: r) hs
    have hne : ((d :: r).map Digit.char ++ s).head? ≠ some '0' := fun h =>
      hd ((Digit.char_eq_zero_iff d).1 (Option.some.inj h))
    rw [whole.eq_2 _ (ne_cons_of_head? hne)]
    simp only [hrun]
    exact ⟨_, rfl⟩

theorem fraction_takes (ds : List Digit) {s : List Char} (hs : NoDigit s)
    (hdot : s.head? ≠ some '.') : Takes (fraction (Numeral.fractionChars ds ++ s)) ds s := by
  cases ds with
  | nil =>
    show Takes (fraction s) [] s
    rw [fraction.eq_2 _ (ne_cons_of_head? hdot)]
    exact ⟨_, rfl⟩
  | cons d r =>
    have hrun := digitRun_append (d :: r) hs
    show Takes (fraction ('.' :: ((d :: r).map Digit.char ++ s))) _ _
    simp only [fraction, hrun]
    exact ⟨_, rfl⟩

theorem exponentDigits_takes (sign : ExponentSign) {ds : List Digit} {s : List Char} (hd : ds ≠ [])
    (hs : NoDigit s) :
    Takes (exponentDigits sign (ds.map Digit.char ++ s)) (some ⟨sign, ds⟩) s := by
  have hrun := digitRun_append ds hs
  simp only [exponentDigits, hrun, if_neg hd]
  exact ⟨_, rfl⟩

theorem signedExponent_takes {e : Exponent} {s : List Char} (hd : e.digits ≠ []) (hs : NoDigit s) :
    Takes (signedExponent (e.sign.chars ++ e.digits.map Digit.char ++ s)) (some e) s := by
  obtain ⟨sign, ds⟩ := e
  have hrun := exponentDigits_takes sign hd hs
  cases sign with
  | plus => exact hrun.map id _
  | minus => exact hrun.map id _
  | absent =>
    -- digits have no sign
    obtain ⟨d, r, rfl⟩ := List.exists_cons_of_ne_nil hd
    show Takes (signedExponent ((d :: r).map Digit.char ++ s)) _ _
    have hplus : ((d :: r).map Digit.char ++ s).head? ≠ some '+' := fun h =>
      Digit.char_ne (by decide) d (Option.some.inj h)
    have hminus : ((d :: r).map Digit.char ++ s).head? ≠ some '-' := fun h =>
      Digit.char_ne (by decide) d (Option.some.inj h)
    rw [signedExponent.eq_3 _ (ne_cons_of_head? hplus) (ne_cons_of_head? hminus)]
    exact hrun

theorem exponent_takes {e : Option Exponent} {s : List Char} (hd : ∀ x, e = some x → x.digits ≠ [])
    (hs : Ends s) : Takes (exponent (Numeral.exponentChars e ++ s)) e s := by
  cases e with
  | none =>
    have hlow : s.head? ≠ some 'e' := fun h => (hs 'e' h).2.2.1 rfl
    have hhigh : s.head? ≠ some 'E' := fun h => (hs 'E' h).2.2.2 rfl
    show Takes (exponent s) none s
    rw [exponent.eq_3 _ (ne_cons_of_head? hlow) (ne_cons_of_head? hhigh)]
    exact ⟨_, rfl⟩
  | some x =>
    have hrun := signedExponent_takes (hd x rfl) hs.noDigit
    exact hrun.map id _

/-- What follows the digits of a numeral is neither a digit nor, behind the fraction, a point. -/
theorem exponentChars_head (e : Option Exponent) {s : List Char} (hs : Ends s) :
    NoDigit (Numeral.exponentChars e ++ s) ∧ (Numeral.exponentChars e ++ s).head? ≠ some '.' := by
  cases e with
  | none => exact ⟨hs.noDigit, fun h => (hs '.' h).2.1 rfl⟩
  | some x =>
    refine ⟨fun c hc => ?_, fun h => ?_⟩
    · cases hc
      decide
    · exact absurd (Option.some.inj h) (by decide)

theorem fractionChars_noDigit (ds : List Digit) {s : List Char} (hs : NoDigit s) :
    NoDigit (Numeral.fractionChars ds ++ s) := by
  cases ds with
  | nil => exact hs
  | cons d r =>
    intro c hc
    cases hc
    decide

theorem unsigned_takes {n : Numeral} (hn : n.Readable) {s : List Char} (hs : Ends s) :
    Takes (unsigned n.negative (n.whole.map Digit.char ++ (Numeral.fractionChars n.fraction ++
      (Numeral.exponentChars n.exponent ++ s)))) n s := by
  obtain ⟨hdigit, hdot⟩ := exponentChars_head n.exponent hs
  have hwhole := whole_takes hn.whole (fractionChars_noDigit n.fraction hdigit)
  have hfraction := fraction_takes n.fraction hdigit hdot
  exact hwhole.bind (fun _ => hfraction.bind (fun _ => (exponent_takes hn.exponent hs).bind
    (fun _ => ⟨_, rfl⟩)))

/-- The text of a numeral begins with a minus sign or a digit. -/
theorem chars_head {n : Numeral} (hn : n.Readable) (s : List Char) :
    ∃ c r, n.chars ++ s = c :: r ∧ (c = '-' ∨ ∃ d : Digit, c = d.char) := by
  obtain ⟨d, r, hd⟩ := List.exists_cons_of_ne_nil hn.whole.ne_nil
  cases hneg : n.negative with
  | true => exact ⟨'-', _, by simp only [Numeral.chars, hneg]; rfl, Or.inl rfl⟩
  | false => exact ⟨d.char, _, by simp only [Numeral.chars, hneg, hd]; rfl, Or.inr ⟨d, rfl⟩⟩

/-- A numeral is read from its text. -/
theorem numeral_takes {n : Numeral} (hn : n.Readable) {s : List Char} (hs : Ends s) :
    Takes (numeral (n.chars ++ s)) n s := by
  have hrun := unsigned_takes hn hs
  cases hneg : n.negative with
  | true =>
    rw [hneg] at hrun
    have htext : n.chars ++ s = '-' :: (n.whole.map Digit.char ++ (Numeral.fractionChars n.fraction ++
        (Numeral.exponentChars n.exponent ++ s))) := by
      simp [Numeral.chars, hneg]
    rw [htext]
    exact hrun.map id _
  | false =>
    rw [hneg] at hrun
    have htext : n.chars ++ s = n.whole.map Digit.char ++ (Numeral.fractionChars n.fraction ++
        (Numeral.exponentChars n.exponent ++ s)) := by
      simp [Numeral.chars, hneg]
    obtain ⟨d, r, hd⟩ := List.exists_cons_of_ne_nil hn.whole.ne_nil
    have hminus : (n.chars ++ s).head? ≠ some '-' := by
      rw [htext, hd]
      exact fun h => Digit.char_ne (by decide) d (Option.some.inj h)
    rw [numeral.eq_2 _ (ne_cons_of_head? hminus), htext]
    exact hrun

end Json

end Raster
