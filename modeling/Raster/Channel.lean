import Raster.Bits

/- Channels of a pixel value.

   A pixel is a 32-bit number cut into channels. A `Channel` is a bit field that holds
   one `Component` of a colour; `rescale` moves a channel value between bit depths. -/
namespace Raster

/-- A pixel value, coded in some pixel type. -/
abbrev Pixel := UInt32

/-- What a channel holds. -/
inductive Component where
  | red | green | blue | alpha
  | value
  | index
  | cyan | magenta | yellow | key
  deriving DecidableEq, Repr

namespace Component

def symbol : Component → String
  | red => "R"
  | green => "G"
  | blue => "B"
  | alpha => "A"
  | value => "V"
  | index => "I"
  | cyan => "C"
  | magenta => "M"
  | yellow => "Y"
  | key => "K"

def all : List Component :=
  [red, green, blue, alpha, value, index, cyan, magenta, yellow, key]

def ofSymbol? (s : String) : Option Component := all.find? (·.symbol == s)

end Component

/-- A bit field of a pixel: `size` bits from bit `offset` on. -/
structure Channel where
  component : Component
  offset : Nat
  size : Nat
  deriving DecidableEq, Repr

namespace Channel

/-- The largest value that the channel holds. -/
def max (c : Channel) : Nat := twoPow c.size - 1

/-- The bits of a pixel that belong to the channel. -/
def mask (c : Channel) : Nat := c.max * twoPow c.offset

def get (c : Channel) (p : Pixel) : Nat := field p.toNat c.offset c.size

/-- Replaces the channel by the low bits of `v`. -/
def set (c : Channel) (p : Pixel) (v : Nat) : Pixel :=
  UInt32.ofNat (splice p.toNat c.offset c.size v)

end Channel

/-- The value of `m` bits nearest to `v` of `n` bits, both read as parts of their largest value. -/
def rescale (v n m : Nat) : Nat :=
  if n = m then v
  else
    let top := twoPow n - 1
    (min v top * (twoPow m - 1) + top / 2) / top

end Raster
