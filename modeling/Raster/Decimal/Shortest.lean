import Raster.Binary
import Raster.Decimal.Numeral

/- The shortest decimal that reads back.

   A number `m * 2 ^ q` stands for all reals nearer to it than to its neighbours, the
   ends of that interval included if `m` is even. `shortest` finds the coarsest power of
   ten one of whose multiples lies in the interval, and the multiple nearest to the
   number. A `Style` says how the digits are laid out and which way a tie goes.

   The JSON library documents that a number is written with the fewest digits that read
   back, and so does the formatter of the program; in layout they differ. -/
namespace Raster

namespace Decimal

/-- How a floating point number is laid out. -/
structure Style where
  /-- The least decimal exponent that is written positionally. -/
  lowest : Int
  /-- The greatest decimal exponent that is written positionally. -/
  highest : Int
  /-- A positive exponent has a sign. -/
  plus : Bool
  /-- Of two multiples equally near the greater is taken, and else the even one. -/
  tiesUp : Bool
  deriving DecidableEq, Repr

/-- `coefficient * 10 ^ power`. -/
structure Scaled where
  coefficient : Nat
  power : Int
  deriving DecidableEq, Repr

end Decimal

open Decimal (Scaled)

namespace Binary

/-- Four times the significand, and the ends of the rounding interval in the same unit. -/
def middle (b : Binary) : Nat := 4 * b.significand
def lower (b : Binary) : Nat := b.middle - (if b.narrow then 1 else 2)
def upper (b : Binary) : Nat := b.middle + 2

/-- Common multiples that turn `d * 10 ^ k` and `n * 2 ^ (exponent - 2)` into the naturals
`d * a` and `n * c` in the same proportion. -/
def scales (b : Binary) (k : Int) : Nat × Nat :=
  (tenPow k.toNat * twoPow (2 - b.exponent).toNat,
    tenPow (-k).toNat * twoPow (b.exponent - 2).toNat)

/-- `d * 10 ^ k` lies in the rounding interval. -/
def Reads (b : Binary) (k : Int) (d : Nat) : Prop :=
  let (a, c) := b.scales k
  if b.significand % 2 = 0 then b.lower * c ≤ d * a ∧ d * a ≤ b.upper * c
  else b.lower * c < d * a ∧ d * a < b.upper * c

instance (b : Binary) (k : Int) (d : Nat) : Decidable (b.Reads k d) := by
  unfold Reads; exact inferInstanceAs (Decidable (ite _ _ _))

/-- The multiple of `10 ^ k` in the rounding interval that is nearest to the number. -/
def nearest? (b : Binary) (tiesUp : Bool) (k : Int) : Option Nat :=
  let (a, c) := b.scales k
  let d := b.middle * c / a
  let below := b.middle * c - d * a
  let above := (d + 1) * a - b.middle * c
  if b.Reads k d then
    if b.Reads k (d + 1) && (above < below || above == below && (tiesUp || d % 2 == 1)) then
      some (d + 1)
    else some d
  else if b.Reads k (d + 1) then some (d + 1)
  else none

/-- The coarsest power of ten from `10 ^ (n - 60)` down with a multiple that reads back. -/
def search (b : Binary) (tiesUp : Bool) : Nat → Scaled
  | 0 => ⟨0, 0⟩
  | n + 1 =>
    match b.nearest? tiesUp ((n : Int) - 60) with
    | some d => ⟨d, (n : Int) - 60⟩
    | none => search b tiesUp n

/-- The shortest decimal of a positive single precision number. -/
def shortest (b : Binary) (tiesUp : Bool) : Scaled := b.search tiesUp 100

end Binary

namespace Decimal.Style

/-- The numeral of `0.d₁d₂… * 10 ^ (e + 1)` for the digits `ds`. -/
def layOut (s : Style) (negative : Bool) (ds : List Digit) (e : Int) : Numeral :=
  if s.lowest ≤ e ∧ e ≤ s.highest then
    if e < 0 then ⟨negative, [.zero], List.replicate (-e - 1).toNat .zero ++ ds, none⟩
    else
      let n := e.toNat + 1
      let rest := ds.drop n
      ⟨negative, ds.take n ++ List.replicate (n - ds.length) .zero,
        if rest.isEmpty then [.zero] else rest, none⟩
  else
    let sign : ExponentSign := if e < 0 then .minus else if s.plus then .plus else .absent
    ⟨negative, ds.take 1, ds.drop 1, some ⟨sign, Decimal.digits e.natAbs⟩⟩

def zero (negative : Bool) : Numeral := ⟨negative, [.zero], [.zero], none⟩

/-- The numeral of a number by its sign and size. -/
def numeral (s : Style) (negative : Bool) (b : Binary) : Numeral :=
  if b.significand = 0 then zero negative
  else
    let r := b.shortest s.tiesUp
    let ds := digits r.coefficient
    s.layOut negative ds (r.power + ds.length - 1)

end Decimal.Style

end Raster
