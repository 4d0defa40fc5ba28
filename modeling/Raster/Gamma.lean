import Raster.Decimal.Places
import Raster.PixelType
import Raster.Fault

/- Gamma correction.

   A `Gamma` relates the channel values of a pixel type to linear light: `linear` raises
   a value, as a part of the largest one, to the exponent and gives it two more bits;
   `encoded` goes back by the inverse exponent. Single precision arithmetic throughout. -/
namespace Raster

structure Gamma where
  exponent : Float32
  pixelType : PixelType

/-- `v` of `n` bits raised to the power `e` as a part of one, with `m` bits. -/
def powerCurve (n m : Nat) (e : Float32) (v : Nat) : Nat :=
  let top (k : Nat) : Float32 := (UInt32.ofNat (twoPow k - 1)).toFloat32
  let x := (UInt32.ofNat v).toFloat32 / top n
  (x.pow e * top m + 0.5).toUInt16.toNat

namespace Channel

/-- Bits of the linear values of the channel. -/
def linearBits (c : Channel) : Nat := min (c.size + 2) 16

end Channel

namespace Gamma

/-- Linear light of a value of channel `c`. -/
def linear (g : Gamma) (c : Channel) (v : Nat) : Nat :=
  powerCurve c.size c.linearBits g.exponent (min v c.max)

/-- The value of channel `c` for linear light. -/
def encoded (g : Gamma) (c : Channel) (v : Nat) : Nat :=
  powerCurve c.linearBits c.size (1.0 / g.exponent) (min v (twoPow c.linearBits - 1))

/-- The channel with number `i`. -/
def channel (g : Gamma) (i : Nat) : Except Fault Channel :=
  match g.pixelType.channels[i]? with
  | some c => .ok c
  | none => .error .outOfBounds

/-- The text of a channel: its bits and those of its linear values. -/
def channelText (c : Channel) : String := s!" {c.component.symbol}:{c.size}->{c.linearBits}"

def text (g : Gamma) : String :=
  s!"Gamma {Decimal.fixedText g.exponent 2} for {g.pixelType.name}" ++
    String.join (g.pixelType.channels.map channelText)

end Gamma

end Raster
