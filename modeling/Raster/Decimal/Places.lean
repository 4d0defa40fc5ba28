import Raster.Binary
import Raster.Decimal.Numeral

/- Numbers with a fixed count of places.

   `fixedPlaces` rounds the exact value of a number to some places after the point, a
   half going to the even side, as it is documented for texts that the program formats. -/
namespace Raster

open Decimal

/-- `10 ^ places` times the number, rounded. -/
def Binary.scaledPlaces (b : Binary) (places : Nat) : Nat :=
  roundEven (b.numerator * tenPow places) b.denominator

/-- The last `places` digits of `n`. -/
def Decimal.lowDigits (n : Nat) : Nat → List Digit
  | 0 => []
  | places + 1 => lowDigits (n / 10) places ++ [lastDigit n]

def Binary.fixedPlaces (b : Binary) (negative : Bool) (places : Nat) : Numeral :=
  let n := b.scaledPlaces places
  ⟨negative, digits (n / tenPow places), lowDigits n places, none⟩

/-- The text of a number with `places` digits after the point. -/
def Decimal.fixedText (x : Float32) (places : Nat) : String :=
  match Parts.ofFloat32 x with
  | .notANumber => "NaN"
  | .infinite negative => if negative then "-inf" else "inf"
  | .finite negative b => String.ofList (b.fixedPlaces negative places).chars

end Raster
