import Raster.Json.Basic
import Raster.Json.Text

/- Reading JSON.

   The grammar is the strict one: no comments, no trailing commas, no raw control
   characters in strings, nothing but white space around the one value. Every reader
   returns what it found together with the rest of the text, which is shorter than the
   text it was given; so reading ends.

   It is the grammar that the JSON library documents. What the library says of a text it
   refuses is not kept, since the program shows none of it. -/
namespace Raster.Json

open Decimal

/-- A part of `s` that is left after reading at least one character. -/
abbrev Shorter (s : List Char) : Type := { r : List Char // r.length < s.length }

/-- The outcome of reading an `α` from the start of `s`. -/
abbrev Read (α : Type) (s : List Char) : Type := Option (α × Shorter s)

def isSpace (c : Char) : Bool := c == ' ' || c == '\n' || c == '\t' || c == '\r'

def skipSpace (s : List Char) : List Char := s.dropWhile isSpace

theorem length_skipSpace_le (s : List Char) : (skipSpace s).length ≤ s.length :=
  (List.dropWhile_sublist _).length_le

/-! Numbers. -/

/-- The digits at the start of `s` and what follows them. -/
def digitRun : List Char → List Digit × List Char
  | [] => ([], [])
  | c :: r =>
    match Digit.ofChar? c with
    | some d => (d :: (digitRun r).1, (digitRun r).2)
    | none => ([], c :: r)

theorem length_digitRun (s : List Char) :
    (digitRun s).1.length + (digitRun s).2.length = s.length := by
  induction s with
  | nil => rfl
  | cons c r ih =>
    rw [digitRun]
    split
    · simp only [List.length_cons]; omega
    · simp

/-- The whole part of a number: zero, or digits that do not start with it. -/
def whole (s : List Char) : Read (List Digit) s :=
  match s with
  | '0' :: r => some ([.zero], ⟨r, Nat.lt_succ_self _⟩)
  | s =>
    if h : (digitRun s).1 = [] then none
    else
      some ((digitRun s).1, ⟨(digitRun s).2, by
        have := length_digitRun s
        have := List.length_pos_iff.2 h
        omega⟩)

/-- A point and digits after it, or nothing. -/
def fraction (s : List Char) : Option (List Digit × { r : List Char // r.length ≤ s.length }) :=
  match s with
  | '.' :: r =>
    if (digitRun r).1 = [] then none
    else
      some ((digitRun r).1, ⟨(digitRun r).2, by
        have := length_digitRun r
        simp only [List.length_cons]; omega⟩)
  | s => some ([], ⟨s, Nat.le_refl _⟩)

/-- The digits of an exponent. -/
def exponentDigits (sign : ExponentSign) (s : List Char) :
    Option (Option Exponent × { r : List Char // r.length ≤ s.length }) :=
  if (digitRun s).1 = [] then none
  else
    some (some ⟨sign, (digitRun s).1⟩, ⟨(digitRun s).2, by have := length_digitRun s; omega⟩)

/-- A sign, or none, and the digits of an exponent. -/
def signedExponent (s : List Char) :
    Option (Option Exponent × { r : List Char // r.length ≤ s.length }) :=
  match s with
  | '+' :: r => (exponentDigits .plus r).map fun (e, t) => (e, ⟨t.1, Nat.le_succ_of_le t.2⟩)
  | '-' :: r => (exponentDigits .minus r).map fun (e, t) => (e, ⟨t.1, Nat.le_succ_of_le t.2⟩)
  | s => exponentDigits .absent s

/-- An exponent, or nothing. -/
def exponent (s : List Char) :
    Option (Option Exponent × { r : List Char // r.length ≤ s.length }) :=
  match s with
  | 'e' :: r => (signedExponent r).map fun (e, t) => (e, ⟨t.1, Nat.le_succ_of_le t.2⟩)
  | 'E' :: r => (signedExponent r).map fun (e, t) => (e, ⟨t.1, Nat.le_succ_of_le t.2⟩)
  | s => some (none, ⟨s, Nat.le_refl _⟩)

/-- A number without its sign. -/
def unsigned (negative : Bool) (s : List Char) : Read Numeral s := do
  let (w, ⟨s1, h1⟩) ← whole s
  let (f, ⟨s2, h2⟩) ← fraction s1
  let (e, ⟨s3, h3⟩) ← exponent s2
  return (⟨negative, w, f, e⟩, ⟨s3, by omega⟩)

def numeral (s : List Char) : Read Numeral s :=
  match s with
  | '-' :: r => (unsigned true r).map fun (n, t) => (n, ⟨t.1, Nat.lt_succ_of_lt t.2⟩)
  | s => unsigned false s

/-! Strings. -/

/-- One character or escape, but not the closing quote. -/
def piece (s : List Char) : Read Piece s :=
  match s with
  | [] => none
  | '\\' :: 'u' :: a :: b :: c :: d :: r =>
    (hex4? a b c d).map fun n => (.unit n, ⟨r, by simp only [List.length_cons]; omega⟩)
  | '\\' :: c :: r =>
    (shortEscape? c).map fun e => (.char e, ⟨r, by simp only [List.length_cons]; omega⟩)
  | c :: r =>
    if c = '"' ∨ c = '\\' ∨ c.toNat < 32 then none else some (.char c, ⟨r, Nat.lt_succ_self _⟩)

/-- The pieces up to the closing quote. -/
def pieces (s : List Char) : Read (List Piece) s :=
  match s with
  | '"' :: r => some ([], ⟨r, Nat.lt_succ_self _⟩)
  | s => do
    let (p, ⟨r, h⟩) ← piece s
    let (ps, ⟨t, _⟩) ← pieces r
    return (p :: ps, ⟨t, by omega⟩)
termination_by s.length

/-- The text of a string after its opening quote. -/
def stringBody (s : List Char) : Read (Option String) s := do
  let (ps, t) ← pieces s
  return ((join ps).map String.ofList, t)

/-! Values. -/

/-- The rest of `s` after a word that begins it. -/
def word (w : List Char) (s : List Char) : Option (Shorter s) :=
  if h : w ≠ [] ∧ w.isPrefixOf s then
    some ⟨s.drop w.length, by
      have hl := (List.isPrefixOf_iff_prefix.1 h.2).length_le
      have := List.length_pos_iff.2 h.1
      rw [List.length_drop]; omega⟩
  else none

/-- The rest after white space and the character `c`. -/
def mark (c : Char) (s : List Char) : Option (Shorter s) :=
  match h : skipSpace s with
  | d :: r =>
    if d = c then
      some ⟨r, by have := length_skipSpace_le s; rw [h, List.length_cons] at this; omega⟩
    else none
  | [] => none

/-- Null, a truth value or a number. -/
def atom (s : List Char) : Read Json s :=
  match word ['n', 'u', 'l', 'l'] s with
  | some t => some (null, t)
  | none =>
    match word ['t', 'r', 'u', 'e'] s with
    | some t => some (bool true, t)
    | none =>
      match word ['f', 'a', 'l', 's', 'e'] s with
      | some t => some (bool false, t)
      | none => (numeral s).map fun (n, t) => (number n, t)

mutual

/-- A value after white space. -/
def readValue (s : List Char) : Read Json s :=
  match mark '"' s with
  | some ⟨r, _⟩ => do
    let (t, ⟨u, _⟩) ← stringBody r
    return (string t, ⟨u, by omega⟩)
  | none =>
    match mark '[' s with
    | some ⟨r, _⟩ =>
      match mark ']' r with
      | some ⟨u, _⟩ => some (array [], ⟨u, by omega⟩)
      | none => do
        let (xs, ⟨u, _⟩) ← readItems r
        return (array xs, ⟨u, by omega⟩)
    | none =>
      match mark '\x7b' s with
      | some ⟨r, _⟩ =>
        match mark '\x7d' r with
        | some ⟨u, _⟩ => some (object [], ⟨u, by omega⟩)
        | none => do
          let (xs, ⟨u, _⟩) ← readFields r
          return (object xs, ⟨u, by omega⟩)
      | none =>
        (atom (skipSpace s)).map fun (v, t) =>
          (v, ⟨t.1, Nat.lt_of_lt_of_le t.2 (length_skipSpace_le s)⟩)
termination_by 2 * s.length

/-- The items of an array up to its closing bracket. -/
def readItems (s : List Char) : Read (List Json) s := do
  let (x, ⟨r, _⟩) ← readValue s
  match mark ',' r with
  | some ⟨t, _⟩ => do
    let (xs, ⟨u, _⟩) ← readItems t
    return (x :: xs, ⟨u, by omega⟩)
  | none => do
    let ⟨u, _⟩ ← mark ']' r
    return ([x], ⟨u, by omega⟩)
termination_by 2 * s.length + 1

/-- The fields of an object up to its closing brace. -/
def readFields (s : List Char) : Read (List (Option String × Json)) s := do
  let ⟨r1, _⟩ ← mark '"' s
  let (k, ⟨r2, _⟩) ← stringBody r1
  let ⟨r3, _⟩ ← mark ':' r2
  let (x, ⟨r4, _⟩) ← readValue r3
  match mark ',' r4 with
  | some ⟨t, _⟩ => do
    let (xs, ⟨u, _⟩) ← readFields t
    return ((k, x) :: xs, ⟨u, by omega⟩)
  | none => do
    let ⟨u, _⟩ ← mark '\x7d' r4
    return ([(k, x)], ⟨u, by omega⟩)
termination_by 2 * s.length + 1

end

/-- The value that a text is. -/
def parse (s : List Char) : Option Json := do
  let (v, ⟨r, _⟩) ← readValue s
  if skipSpace r = [] then some v else none

end Raster.Json
