import Raster.Binary
import Raster.Json.Basic

/- The values of numerals.

   A numeral without point and exponent is an integer if it fits 64 bits. Any other is a
   double precision number: as many of its leading digits as fit 64 bits are multiplied
   or divided by a power of ten, and a result beyond the largest number has no value.

   The JSON library documents that it reads decimals with the best effort, which is not
   always the nearest number, unless it is told otherwise; the program does not tell it.
   The steps are those: one product or quotient with a power of ten. -/
namespace Raster

open Decimal

/-- The value of a numeral. -/
inductive Number where
  /-- An integer from zero on. -/
  | natural (n : UInt64)
  /-- An integer below zero. -/
  | negative (v : Int64)
  | float (x : Float)

namespace Number

/-- The value as an integer, if it is one. -/
def int? : Number → Option Int
  | natural n => some n.toNat
  | negative v => some v.toInt
  | float _ => none

/-- The single precision number nearest to the value. -/
def toFloat32 : Number → Float32
  | natural n => (Parts.finite false ⟨n.toNat, 0, false⟩).toFloat32
  | negative v => (Parts.finite true ⟨v.toInt.natAbs, 0, false⟩).toFloat32
  | float x => (Parts.ofFloat x).toFloat32

end Number

namespace Decimal.Numeral

/-- Appends digits to `n` as long as it fits 64 bits; the digits left over come second. -/
def absorb (n : Nat) : List Digit → Nat × List Digit
  | [] => (n, [])
  | d :: ds => if 10 * n + d.val ≤ 0xffffffffffffffff then absorb (10 * n + d.val) ds else (n, d :: ds)

/-- `10 ^ k` in double precision. -/
def powerOfTen (k : Nat) : Float := Float.ofScientific 1 false k

/-- `x * 10 ^ e`, unless it is too large. -/
def scale (x : Float) (e : Int) : Option Float :=
  if e < -308 then
    if x == 0.0 then some x else scale (x / powerOfTen 308) (e + 308)
  else if e < 0 then some (x / powerOfTen e.natAbs)
  else if e ≤ 308 then
    let y := x * powerOfTen e.natAbs
    if y.isInf then none else some y
  else if x == 0.0 then some x
  else none
termination_by (-e).toNat
decreasing_by omega

/-- The exponent `e` moved by the written one; beyond 32 bits it stays at their end. -/
def clampExponent (e : Int) : Int := max (-0x80000000) (min e 0x7fffffff)

/-- `n * 10 ^ e` times the power of ten of an exponent. An exponent beyond 32 bits makes zero, or
no value if it is positive and `n` is not zero. -/
def scaleBy (n : Nat) (e : Int) : Option Exponent → Option Float
  | none => scale (UInt64.ofNat n).toFloat e
  | some x =>
    let v := value x.digits
    let down := x.sign = .minus
    if 0x7fffffff < v then (if n = 0 ∨ down then some 0.0 else none)
    else scale (UInt64.ofNat n).toFloat (clampExponent (if down then e - v else e + v))

/-- The value of a numeral with a point, an exponent or too many digits, without its sign. -/
def size? (m : Numeral) : Option Float :=
  let (n, extra) := absorb 0 m.whole
  let (n, rest) := absorb n m.fraction
  scaleBy n ((extra.length : Int) - (m.fraction.length - rest.length : Nat)) m.exponent

/-- The integer `n` with a sign. Zero with a minus sign and what is less than 64 bits hold are no
integers. -/
def signed (negative : Bool) (n : Nat) : Number :=
  if !negative then .natural (.ofNat n)
  else if 0 < n ∧ n ≤ 0x8000000000000000 then .negative (.ofInt (-n))
  else .float (-(UInt64.ofNat n).toFloat)

/-- The value of a numeral. -/
def number? (m : Numeral) : Option Number :=
  let (n, extra) := absorb 0 m.whole
  if extra = [] ∧ m.fraction = [] ∧ m.exponent = none then some (signed m.negative n)
  else m.size?.map fun x => .float (if m.negative then -x else x)

end Decimal.Numeral

end Raster
