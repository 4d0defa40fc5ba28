import Raster.Fault

/- Quotients to the nearest integer.

   `roundQuotient n d` is `n / d` rounded to the nearest integer, halves up, computed in
   128-bit integers: an intermediate value beyond them is a fault, and so is a zero `d`.
   `roundEven` rounds a quotient of natural numbers, halves to the even side. -/
namespace Raster

/-- The numerator and denominator of the same quotient with a denominator that is not negative. -/
def orient (n d : Int) : Int × Int := if d < 0 then (-n, -d) else (n, d)

/-- `n / d` to the nearest integer, halves up. -/
def roundQuotient (n d : Int) : Except Fault Int := do
  let (n, d) := orient n d
  let twice ← Bounds.int128.check (2 * n)
  let num ← Bounds.int128.check (twice + d)
  let den ← Bounds.int128.check (2 * d)
  if den = 0 then .error .divisionByZero else .ok (num / den)

/-- `n / d` rounded to the nearest integer, a half to the even one. -/
def roundEven (n d : Nat) : Nat :=
  let q := n / d
  let r := n % d
  if 2 * r < d then q else if d < 2 * r then q + 1 else q + q % 2

end Raster
