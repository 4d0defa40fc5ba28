/- Powers of two and of ten. -/
namespace Raster

/-- The power of two with exponent `k`. -/
def twoPow (k : Nat) : Nat := 1 <<< k

/-- The power of ten with exponent `k`. -/
def tenPow (k : Nat) : Nat := Nat.pow 10 k

end Raster
