import Raster.Channel

/- The pixel types.

   A `PixelType` says how many bits a pixel has, which colour model it follows, which
   channels it is cut into, and how pixels of less than a byte are ordered in their
   byte. `PixelType.format` is the table; the types are numbered in the order of `all`. -/
namespace Raster

/-- Which end of a byte the leftmost pixel takes. -/
inductive BitOrder where
  | msbFirst
  | lsbFirst
  deriving DecidableEq, Repr

/-- How the channels of a pixel make a colour. -/
inductive ColorModel where
  | rgb
  | cmyk
  | palette
  | gray
  deriving DecidableEq, Repr

inductive PixelType where
  | unknown
  | rgb101010 | xrgb8888 | rgba8888 | rgb888 | bgr888
  | rgb555 | rgb565 | rgb666 | rgb332
  | cmyk8888
  | p2 | p4 | p8
  | g1db | g2db | g4db
  | g1ub | g2ub | g4ub
  | g8 | ga88 | g16
  deriving DecidableEq, Repr

/-- The description of a pixel type. -/
structure Format where
  name : String
  /-- Bits per pixel. -/
  bpp : Nat
  order : BitOrder
  /-- Only the unknown type follows no model. -/
  model : Option ColorModel
  channels : List Channel
  deriving Repr

namespace Format

/-- A type with one channel that fills the pixel. -/
def single (name : String) (bpp : Nat) (order : BitOrder) (model : ColorModel) (k : Component) :
    Format :=
  ⟨name, bpp, order, some model, [⟨k, 0, bpp⟩]⟩

def ofRgb (name : String) (bpp : Nat) (channels : List Channel) : Format :=
  ⟨name, bpp, .lsbFirst, some .rgb, channels⟩

end Format

namespace PixelType
open Format

def format : PixelType → Format
  | unknown => ⟨"UNKNOWN", 0, .msbFirst, none, []⟩
  | rgb101010 => ofRgb "RGB101010" 32 [⟨.red, 20, 10⟩, ⟨.green, 10, 10⟩, ⟨.blue, 0, 10⟩]
  | xrgb8888 => ofRgb "xRGB8888" 32 [⟨.red, 16, 8⟩, ⟨.green, 8, 8⟩, ⟨.blue, 0, 8⟩]
  | rgba8888 => ofRgb "RGBA8888" 32 [⟨.red, 24, 8⟩, ⟨.green, 16, 8⟩, ⟨.blue, 8, 8⟩, ⟨.alpha, 0, 8⟩]
  | rgb888 => ofRgb "RGB888" 24 [⟨.red, 16, 8⟩, ⟨.green, 8, 8⟩, ⟨.blue, 0, 8⟩]
  | bgr888 => ofRgb "BGR888" 24 [⟨.blue, 16, 8⟩, ⟨.green, 8, 8⟩, ⟨.red, 0, 8⟩]
  | rgb555 => ofRgb "RGB555" 16 [⟨.red, 10, 5⟩, ⟨.green, 5, 5⟩, ⟨.blue, 0, 5⟩]
  | rgb565 => ofRgb "RGB565" 16 [⟨.red, 11, 5⟩, ⟨.green, 5, 6⟩, ⟨.blue, 0, 5⟩]
  | rgb666 => ofRgb "RGB666" 18 [⟨.red, 12, 6⟩, ⟨.green, 6, 6⟩, ⟨.blue, 0, 6⟩]
  | rgb332 => ofRgb "RGB332" 8 [⟨.red, 5, 3⟩, ⟨.green, 2, 3⟩, ⟨.blue, 0, 2⟩]
  | cmyk8888 =>
    ⟨"CMYK8888", 32, .lsbFirst, some .cmyk,
      [⟨.key, 24, 8⟩, ⟨.yellow, 16, 8⟩, ⟨.magenta, 8, 8⟩, ⟨.cyan, 0, 8⟩]⟩
  | p2 => single "P2" 2 .msbFirst .palette .index
  | p4 => single "P4" 4 .msbFirst .palette .index
  | p8 => single "P8" 8 .msbFirst .palette .index
  | g1db => single "G1_DB" 1 .lsbFirst .gray .value
  | g2db => single "G2_DB" 2 .lsbFirst .gray .value
  | g4db => single "G4_DB" 4 .lsbFirst .gray .value
  | g1ub => single "G1_UB" 1 .msbFirst .gray .value
  | g2ub => single "G2_UB" 2 .msbFirst .gray .value
  | g4ub => single "G4_UB" 4 .msbFirst .gray .value
  | g8 => single "G8" 8 .msbFirst .gray .value
  | ga88 => ⟨"GA88", 16, .lsbFirst, some .gray, [⟨.value, 0, 8⟩, ⟨.alpha, 8, 8⟩]⟩
  | g16 => single "G16" 16 .lsbFirst .gray .value

/-- Every pixel type, at the place of its number. -/
def all : List PixelType :=
  [unknown, rgb101010, xrgb8888, rgba8888, rgb888, bgr888, rgb555, rgb565, rgb666, rgb332,
   cmyk8888, p2, p4, p8, g1db, g2db, g4db, g1ub, g2ub, g4ub, g8, ga88, g16]

/-- The number of a pixel type. -/
def id (t : PixelType) : Nat := t.ctorIdx

theorem getElem?_all_id (t : PixelType) : all[t.id]? = some t := by cases t <;> rfl

@[inline] def name (t : PixelType) : String := t.format.name
@[inline] def bpp (t : PixelType) : Nat := t.format.bpp
@[inline] def order (t : PixelType) : BitOrder := t.format.order
@[inline] def model (t : PixelType) : Option ColorModel := t.format.model
@[inline] def channels (t : PixelType) : List Channel := t.format.channels

def channel? (t : PixelType) (k : Component) : Option Channel :=
  t.channels.find? (·.component == k)

def hasAlpha (t : PixelType) : Bool := (t.channel? .alpha).isSome

/-- The properties of a type as bits: alpha 1, RGB 2, palette 4, CMYK 8, gray 16. -/
def flags (t : PixelType) : Nat :=
  (if t.hasAlpha then 1 else 0) +
    match t.model with
    | none => 0
    | some .rgb => 2
    | some .palette => 4
    | some .cmyk => 8
    | some .gray => 16

/-- Bytes that a row of `w` pixels fills when it starts at a byte. -/
def rowBytes (t : PixelType) (w : UInt32) : Nat := byteCount (w.toNat * t.bpp)

end PixelType

end Raster
