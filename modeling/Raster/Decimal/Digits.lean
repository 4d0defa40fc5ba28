/- Decimal digits.

   A natural number is the list of its digits, highest first: `digits` writes it and
   `value` reads it.

   The modules of `Raster.Decimal` stand for the decimals of the JSON library that the
   program links, whose source is not part of it, and for those of the texts that the
   program formats. -/
namespace Raster.Decimal

abbrev Digit := Fin 10

namespace Digit

def zero : Digit := ⟨0, Nat.succ_pos 9⟩

def char (d : Digit) : Char := Char.ofNat (48 + d.val)

/-- The digit that a character stands for. -/
def ofChar? (c : Char) : Option Digit :=
  if h : 48 ≤ c.toNat ∧ c.toNat < 58 then some ⟨c.toNat - 48, by omega⟩ else none

end Digit

/-- The last digit of `n`. -/
def lastDigit (n : Nat) : Digit := ⟨n % 10, Nat.mod_lt _ (by decide)⟩

/-- The digits of `n`, highest first, without leading zeros but for zero itself. -/
def digits (n : Nat) : List Digit :=
  if n < 10 then [lastDigit n] else digits (n / 10) ++ [lastDigit n]

/-- The number with the digits `ds`, highest first. -/
def value (ds : List Digit) : Nat := ds.foldl (fun n d => 10 * n + d.val) 0

end Raster.Decimal
