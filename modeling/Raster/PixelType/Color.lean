import Raster.PixelType

/- Colours and pixels.

   `PixelType.encode` finds the pixel that stands for a colour and `PixelType.decode`
   the colour that a pixel stands for; `PixelType.convert` goes from one type to another
   through a colour. Gray and palette types keep the luma, CMYK types keep
   `255 - max` as key and the inks relative to the rest. -/
namespace Raster

structure Rgb where
  red : UInt8
  green : UInt8
  blue : UInt8
  deriving DecidableEq, Repr

structure Rgba extends Rgb where
  alpha : UInt8
  deriving DecidableEq, Repr

namespace Rgb

/-- The colour without transparency. -/
def solid (c : Rgb) : Rgba := ⟨c, 255⟩

/-- Brightness by the weights 0.299, 0.587 and 0.114, rounded. -/
def luma (c : Rgb) : Nat :=
  (299 * c.red.toNat + 587 * c.green.toNat + 114 * c.blue.toNat + 500) / 1000

def brightest (c : Rgb) : Nat := max (max c.red.toNat c.green.toNat) c.blue.toNat

/-- The ink that takes the share of `v` from a colour whose brightest part is `top`. -/
def separate (top v : Nat) : Nat := if top = 0 then 0 else (top - v) * 255 / top

end Rgb

namespace PixelType

/-- Stores `v` of 8 bits in the channel of `k`, if the type has one. -/
def store (t : PixelType) (k : Component) (v : Nat) (p : Pixel) : Pixel :=
  match t.channel? k with
  | some c => c.set p (rescale v 8 c.size)
  | none => p

/-- The channel of `k` with 8 bits. -/
def load? (t : PixelType) (k : Component) (p : Pixel) : Option Nat :=
  (t.channel? k).map fun c => rescale (c.get p) c.size 8

/-- The pixel that stands for a colour. -/
def encode (t : PixelType) (c : Rgba) : Pixel :=
  let inked : Pixel :=
    match t.model with
    | some .rgb =>
      t.store .blue c.blue.toNat (t.store .green c.green.toNat (t.store .red c.red.toNat 0))
    | some .cmyk =>
      let top := c.brightest
      let ink (v : UInt8) : Nat := Rgb.separate top v.toNat
      t.store .key (255 - top)
        (t.store .yellow (ink c.blue)
          (t.store .magenta (ink c.green)
            (t.store .cyan (ink c.red) 0)))
    | _ =>
      match t.channels.head? with
      | some ch => ch.set 0 (rescale c.luma 8 ch.size)
      | none => 0
  t.store .alpha c.alpha.toNat inked

/-- The colour that a pixel stands for, solid where the type has no alpha. -/
def decode (t : PixelType) (p : Pixel) : Rgba :=
  let alpha := UInt8.ofNat ((t.load? .alpha p).getD 255)
  match t.model with
  | some .rgb =>
    let part (k : Component) : UInt8 := UInt8.ofNat ((t.load? k p).getD 0)
    ⟨⟨part .red, part .green, part .blue⟩, alpha⟩
  | some .cmyk =>
    let key := (t.load? .key p).getD 0
    let part (k : Component) : UInt8 :=
      UInt8.ofNat ((255 - (t.load? k p).getD 0) * (255 - key) / 255)
    ⟨⟨part .cyan, part .magenta, part .yellow⟩, alpha⟩
  | _ =>
    match t.channels.head? with
    | some ch =>
      let v := UInt8.ofNat (rescale (ch.get p) ch.size 8)
      ⟨⟨v, v, v⟩, alpha⟩
    | none => ⟨⟨0, 0, 0⟩, alpha⟩

/-- The pixel of type `u` for the colour of a pixel of type `t`. -/
def convert (t : PixelType) (p : Pixel) (u : PixelType) : Pixel :=
  if t = u then p else u.encode (t.decode p)

end PixelType

end Raster
