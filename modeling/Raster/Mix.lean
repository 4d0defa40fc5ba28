import Raster.Gamma

/- Mixing of two pixels.

   `mix` weighs a foreground against a background in 255 parts, channel by channel, on
   linear light if a gamma of the same pixel type is given. Palette entries cannot be
   weighed: the heavier one is taken. -/
namespace Raster

/-- `m` parts of `f` and `255 - m` parts of `b`, rounded down. -/
def weigh (f b m : Nat) : Nat := (f * m + b * (255 - m)) / 255

/-- One channel of the mixture. -/
def mixChannel (gamma : Option Gamma) (c : Channel) (fg bg : Pixel) (m : Nat) : Nat :=
  match gamma with
  | some g => g.encoded c (weigh (g.linear c (c.get fg)) (g.linear c (c.get bg)) m)
  | none => weigh (c.get fg) (c.get bg) m

/-- `weight` parts in 255 of `fg` over `bg`. -/
def mix (t : PixelType) (gamma : Option Gamma) (fg bg : Pixel) (weight : UInt8) : Pixel :=
  if weight = 0 then bg
  else if weight = 255 then fg
  else if t.model = some .palette then (if 127 < weight then fg else bg)
  else
    let gamma := gamma.filter (·.pixelType == t)
    t.channels.foldl (fun p c => c.set p (mixChannel gamma c fg bg weight.toNat)) 0

end Raster
