import Raster.Fault

/- Fixed point numbers.

   A coordinate with eight fraction bits is carried as an integer in units of 1/256, of
   64 bits. Making one from an integer drops the bits beyond 64; every other operation
   faults where its result does not fit. -/
namespace Raster.Fixed

/-- One whole unit. -/
def one : Int := 256
def half : Int := 128

/-- The integer of 64 bits that agrees with `v` in the low 64 bits. -/
def wrap64 (v : Int) : Int := v.bmod 0x10000000000000000

def ofInt (v : Int) : Int := wrap64 (v * 256)

/-- The greatest integer not above `v`. -/
def floor (v : Int) : Int := v / 256

/-- The least integer not below `v`. -/
def ceil (v : Int) : Except Fault Int := return floor (← Bounds.int64.check (v + 255))

/-- The nearest integer to `v`, halves up. -/
def round (v : Int) : Except Fault Int := return floor (← Bounds.int64.check (v + half))

/-- The part of `v` above its floor. -/
def fraction (v : Int) : Int := v % 256

/-- The product, rounded down. -/
def mul (a b : Int) : Except Fault Int := return floor (← Bounds.int64.check (a * b))

/-- The quotient, rounded toward zero. -/
def div (a b : Int) : Except Fault Int :=
  if b = 0 then .error .divisionByZero else Bounds.int64.check ((ofInt a).tdiv b)

end Raster.Fixed
