import Raster.Decimal.Digits

/- Numerals.

   A `Numeral` is a number as it is written: a sign, digits before and after the point
   and a power of ten. `Numeral.chars` is its text. Numerals are what the grammar of JSON
   has for numbers, and what the JSON library writes. -/
namespace Raster.Decimal

/-- How the sign of an exponent is written. -/
inductive ExponentSign where
  | absent
  | plus
  | minus
  deriving DecidableEq, Repr

structure Exponent where
  sign : ExponentSign
  digits : List Digit
  deriving DecidableEq, Repr

structure Numeral where
  negative : Bool
  whole : List Digit
  /-- The digits after the point; without any the point is left out. -/
  fraction : List Digit
  exponent : Option Exponent
  deriving DecidableEq, Repr

namespace ExponentSign

def chars : ExponentSign → List Char
  | absent => []
  | plus => ['+']
  | minus => ['-']

end ExponentSign

namespace Numeral

def fractionChars : List Digit → List Char
  | [] => []
  | ds => '.' :: ds.map Digit.char

def exponentChars : Option Exponent → List Char
  | none => []
  | some e => 'e' :: e.sign.chars ++ e.digits.map Digit.char

def chars (n : Numeral) : List Char :=
  (if n.negative then ['-'] else []) ++ n.whole.map Digit.char ++ fractionChars n.fraction ++
    exponentChars n.exponent

/-- The numeral of an integer. -/
def ofInt (v : Int) : Numeral := ⟨decide (v < 0), digits v.natAbs, [], none⟩

def ofNat (n : Nat) : Numeral := ⟨false, digits n, [], none⟩

end Numeral

end Raster.Decimal
