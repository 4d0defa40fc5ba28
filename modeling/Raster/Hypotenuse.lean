import Raster.Binary

/- The length of a vector with integer parts.

   `hypotenuse dx dy` is the double precision number nearest to the root of
   `dx ^ 2 + dy ^ 2`, found from the root of the exact sum. The length that the program
   takes from its platform is not specified to the last place, and may differ there from
   the nearest number, as for `hypotenuse 79 79`. It is used for the corners of a thick
   line only, and what is proved of thick lines is proved for any corners
   (`Frame.Addressable.fillConvex_draws`). -/
namespace Raster

/-- The greatest number not below `r` whose square is at most `n`, if it is below `r + 2 ^ k`. -/
def rootFrom (n : Nat) : Nat → Nat → Nat
  | 0, r => r
  | k + 1, r => rootFrom n k (if (r + twoPow k) * (r + twoPow k) ≤ n then r + twoPow k else r)

/-- The integer part of the root of `n`. -/
def root (n : Nat) : Nat := rootFrom n (n.log2 / 2 + 1) 0

/-- The root is taken with 64 more binary places, and a last bit says whether it is exact. -/
def hypotenuse (dx dy : Int) : Float :=
  let n := (dx.natAbs * dx.natAbs + dy.natAbs * dy.natAbs) * twoPow 128
  let r := root n
  nearestFloat (2 * r + (if r * r = n then 0 else 1)) (-65)

end Raster
