import Raster.Bits
import Raster.Mix
import Raster.Orientation

/- Frames.

   A `Frame` says how a byte buffer is looked at as an image: at which byte and bit the
   first pixel starts, how far apart the rows are, which type the pixels have, how the
   user sees them and how they are mixed. Pixels at raw coordinates are fields of the
   bit stream of the buffer, at the position `Frame.locate`; a raw access outside of the
   frame is a fault, a clipped one reads zero and writes nothing. -/
namespace Raster

structure Point where
  x : Int32
  y : Int32
  deriving DecidableEq, Repr

/-- The coordinates in which a drawing is given. -/
inductive Space where
  /-- As the user sees the image. -/
  | user
  /-- As the image is stored. -/
  | raw
  deriving DecidableEq, Repr

structure Frame where
  /-- The byte of the buffer that holds the start of the first pixel. -/
  start : Nat
  width : UInt32
  height : UInt32
  /-- Bytes from one row to the next. -/
  stride : Nat
  /-- Bits of the first byte that lie before the first pixel. -/
  offset : Nat
  pixelType : PixelType
  orientation : Orientation
  /-- Given, pixels of its type are mixed on linear light. -/
  gamma : Option Gamma

namespace Frame

@[inline] def bpp (f : Frame) : Nat := f.pixelType.bpp

def userWidth (f : Frame) : UInt32 := (f.orientation.userSize f.width f.height).1
def userHeight (f : Frame) : UInt32 := (f.orientation.userSize f.width f.height).2

def isEmpty (f : Frame) : Bool := f.width == 0 || f.height == 0

/-- The pixels are whole bytes. -/
def isAligned (f : Frame) : Bool := f.bpp % 8 == 0 && f.offset == 0

/-- The frame through which a drawing in space `s` is seen. -/
def seen (f : Frame) : Space → Frame
  | .user => f
  | .raw => { f with orientation := .identity }

/-- The raw point `x`, `y` lies in the frame. -/
def Contains (f : Frame) (x y : Int) : Prop :=
  0 ≤ x ∧ 0 ≤ y ∧ x < f.width.toNat ∧ y < f.height.toNat

instance (f : Frame) (x y : Int) : Decidable (f.Contains x y) :=
  inferInstanceAs (Decidable (_ ∧ _ ∧ _ ∧ _))

/-- The raw point of a user point. -/
def rawPoint (f : Frame) (x y : Int) : Except Fault (Int × Int) :=
  f.orientation.rawPoint f.width f.height x y

/-- The bits of row `y` before raw column `x`, counted from the start of the row. -/
def columnBit (f : Frame) (x : Nat) : Nat := x * f.bpp + f.offset

/-- The byte, counted from the start of the frame, that holds the start of a pixel. -/
def byteOf (f : Frame) (x y : Nat) : Except Fault Nat :=
  size64 (y * f.stride + f.columnBit x / 8)

/-- The low bit of a pixel in its byte, if the pixels before it in the byte take `k` bits. -/
def lowBit (f : Frame) (k : Nat) : Nat :=
  match f.pixelType.order with
  | .lsbFirst => k
  | .msbFirst => 8 - f.bpp - k

/-- The position of a pixel in the bit stream of the buffer. -/
def locate (f : Frame) (x y : Nat) : Except Fault Nat := do
  let byte ← f.byteOf x y
  return 8 * (f.start + byte) + f.lowBit (f.columnBit x % 8)

/-- Every pixel of the frame lies inside a buffer of `size` bytes, apart from all others. -/
structure Valid (f : Frame) (size : Nat) : Prop where
  known : f.pixelType ≠ .unknown
  start_le : f.start ≤ size
  offset_lt : f.offset < 8
  aligned : Nat.gcd f.bpp 8 ∣ f.offset
  rows_apart : 0 < f.width.toNat → 1 < f.height.toNat →
    f.offset + f.width.toNat * f.bpp ≤ 8 * f.stride
  fits : 0 < f.width.toNat → 0 < f.height.toNat →
    (f.height.toNat - 1) * f.stride + byteCount (f.offset + f.width.toNat * f.bpp) ≤ size - f.start
  /-- Positions in a buffer are 64-bit numbers. -/
  sized : size ≤ 0xffffffffffffffff

/-! Pixels at raw coordinates. -/

def readRaw (f : Frame) (x y : Int32) (b : Bytes) : Except Fault Pixel :=
  if f.Contains x.toInt y.toInt then do
    let pos ← f.locate x.toInt.toNat y.toInt.toNat
    return UInt32.ofNat (← b.readBits pos f.bpp)
  else .error .outOfBounds

def writeRaw (f : Frame) (x y : Int32) (v : Pixel) (b : Bytes) : Except Fault Bytes :=
  if f.Contains x.toInt y.toInt then do
    let pos ← f.locate x.toInt.toNat y.toInt.toNat
    b.writeBits pos f.bpp v.toNat
  else .error .outOfBounds

/-- The pixel at a raw point, zero outside of the frame. -/
def readClipped (f : Frame) (x y : Int) (b : Bytes) : Except Fault Pixel :=
  if f.Contains x y then f.readRaw (.ofInt x) (.ofInt y) b else .ok 0

/-- Sets the pixel at a raw point, nothing outside of the frame. -/
def writeClipped (f : Frame) (x y : Int) (v : Pixel) (b : Bytes) : Except Fault Bytes :=
  if f.Contains x y then f.writeRaw (.ofInt x) (.ofInt y) v b else .ok b

/-! Pixels at user coordinates. -/

/-- The pixel at a user point, zero outside of the frame. -/
def read (f : Frame) (p : Point) (b : Bytes) : Except Fault Pixel := do
  let (x, y) ← f.rawPoint p.x.toInt p.y.toInt
  f.readClipped x y b

/-- Sets the pixel at a user point, nothing outside of the frame. -/
def write (f : Frame) (p : Point) (v : Pixel) (b : Bytes) : Except Fault Bytes := do
  let (x, y) ← f.rawPoint p.x.toInt p.y.toInt
  f.writeClipped x y v b

end Frame

end Raster
