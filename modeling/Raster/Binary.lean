import Raster.Fault
import Raster.Power
import Raster.Quotient

/- Binary floating point numbers, taken apart and put together.

   A `BinaryFormat` fixes how many bits the fraction and the exponent have. `decode` finds
   the `Parts` of a number from its bits; `encode` finds the bits of the number nearest to
   `n * 2 ^ e`. A number is brought to an integer by `Parts.truncate`, `floor`, `ceil` or
   `round`, each exact but for numbers beyond 64 bits, which go to the nearer end of them. -/
namespace Raster

/-- A nonnegative number `significand * 2 ^ exponent` of some format. -/
structure Binary where
  significand : Nat
  exponent : Int
  /-- The number below is only half as far away as the number above. -/
  narrow : Bool
  deriving DecidableEq, Repr

/-- A floating point number by its parts. -/
inductive Parts where
  | notANumber
  | infinite (negative : Bool)
  | finite (negative : Bool) (size : Binary)
  deriving DecidableEq, Repr

structure BinaryFormat where
  fractionBits : Nat
  exponentBits : Nat
  deriving DecidableEq, Repr

namespace BinaryFormat

def single : BinaryFormat := ⟨23, 8⟩
def double : BinaryFormat := ⟨52, 11⟩

/-- The exponent of the last place of the smallest numbers. -/
def lowest (f : BinaryFormat) : Int := 2 - twoPow (f.exponentBits - 1) - f.fractionBits

/-- The exponent field of infinity and of what is no number. -/
def top (f : BinaryFormat) : Nat := twoPow f.exponentBits - 1

/-- The number with sign bit `s`, exponent field `e` and fraction bits `m`. -/
def ofFields (f : BinaryFormat) (s e m : Nat) : Parts :=
  let negative := s != 0
  if e = f.top then (if m = 0 then .infinite negative else .notANumber)
  else if e = 0 then .finite negative ⟨m, f.lowest, false⟩
  else .finite negative ⟨twoPow f.fractionBits + m, f.lowest + (e - 1), m == 0 && 1 < e⟩

/-- The number with the bits of `n`. -/
def decode (f : BinaryFormat) (n : Nat) : Parts :=
  let m := twoPow f.fractionBits
  let e := twoPow f.exponentBits
  f.ofFields (n / (m * e)) (n / m % e) (n % m)

/-- The bits of the number nearest to `n * 2 ^ e` without a sign, ties to even. A number that
rounds beyond the largest one is infinite. -/
def encode (f : BinaryFormat) (n : Nat) (e : Int) : Nat :=
  if n = 0 then 0
  else
    let place := max (e + n.log2 - f.fractionBits) f.lowest
    let m := roundEven (n * twoPow (e - place).toNat) (twoPow (place - e).toNat)
    min ((place - f.lowest).toNat * twoPow f.fractionBits + m) (f.top * twoPow f.fractionBits)

/-- The bits of a number with a sign. -/
def signed (f : BinaryFormat) (negative : Bool) (n : Nat) : Nat :=
  if negative then twoPow (f.fractionBits + f.exponentBits) + n else n

/-- The bits of the number nearest to the one with some parts. -/
def ofParts (f : BinaryFormat) : Parts → Nat
  | .notANumber => f.top * twoPow f.fractionBits + twoPow (f.fractionBits - 1)
  | .infinite negative => f.signed negative (f.top * twoPow f.fractionBits)
  | .finite negative b => f.signed negative (f.encode b.significand b.exponent)

end BinaryFormat

namespace Binary

/-- The number as a quotient of integers. -/
def numerator (b : Binary) : Nat := b.significand * twoPow b.exponent.toNat
def denominator (b : Binary) : Nat := twoPow (-b.exponent).toNat

/-- The greatest integer not above the number. -/
def floor (b : Binary) : Nat := b.numerator / b.denominator

/-- The least integer not below the number. -/
def ceil (b : Binary) : Nat := (b.numerator + (b.denominator - 1)) / b.denominator

/-- The nearest integer, halves up. -/
def round (b : Binary) : Nat := (2 * b.numerator + b.denominator) / (2 * b.denominator)

end Binary

namespace Parts

/-- `v` or the end of the 64-bit integers that it lies beyond. -/
def saturate (v : Int) : Int := max Bounds.int64.low (min v Bounds.int64.high)

/-- An integer of 64 bits for a number, by functions for sizes with either sign. What is no number
goes to zero. -/
def toInteger (below above : Binary → Nat) : Parts → Int
  | notANumber => 0
  | infinite negative => if negative then Bounds.int64.low else Bounds.int64.high
  | finite negative b => saturate (if negative then -(below b : Int) else above b)

/-- The next integer toward zero. -/
def truncate (p : Parts) : Int := p.toInteger Binary.floor Binary.floor

/-- The greatest integer not above. -/
def floor (p : Parts) : Int := p.toInteger Binary.ceil Binary.floor

/-- The least integer not below. -/
def ceil (p : Parts) : Int := p.toInteger Binary.floor Binary.ceil

/-- The nearest integer, halves away from zero. -/
def round (p : Parts) : Int := p.toInteger Binary.round Binary.round

def ofFloat (x : Float) : Parts := BinaryFormat.double.decode x.toBits.toNat

def ofFloat32 (x : Float32) : Parts := BinaryFormat.single.decode x.toBits.toNat

/-- The single precision number nearest to the one with these parts. -/
def toFloat32 (p : Parts) : Float32 := .ofBits (.ofNat (BinaryFormat.single.ofParts p))

end Parts

/-- The double precision number nearest to `n * 2 ^ e`. -/
def nearestFloat (n : Nat) (e : Int) : Float :=
  .ofBits (.ofNat (BinaryFormat.double.encode n e))

end Raster
