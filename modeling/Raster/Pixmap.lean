import Raster.Draw.Fill
import Raster.Error

/- Pixmaps.

   A `Pixmap` is a frame over a byte buffer. Several pixmaps may look at one buffer: a
   view is a pixmap with the buffer of the pixmap it was taken from, and what is drawn
   through it is put back by `Pixmap.absorb`. Creation refuses what does not fit;
   `Pixmap.WellFormed` says that every pixel has its own bits inside the buffer. -/
namespace Raster

structure Pixmap extends Frame where
  bytes : Bytes

namespace Pixmap

/-- Bytes from the start of the frame to the end of the buffer. -/
def size (p : Pixmap) : Nat := p.bytes.size - p.start

/-- The buffer from the start of the frame on. -/
def data (p : Pixmap) : Bytes := p.bytes.extract p.start p.bytes.size

/-- Every pixel of the pixmap lies inside its buffer, apart from all others. -/
def WellFormed (p : Pixmap) : Prop := p.toFrame.Valid p.bytes.size

/-! Creation. -/

/-- A frame from the first byte of a buffer on, in plain orientation. -/
def plainFrame (w h : UInt32) (type : PixelType) (stride : Nat) : Frame :=
  ⟨0, w, h, if w = 0 then 0 else stride, 0, type, .identity, none⟩

/-- The least stride of a row, for types whose pixels have a size. -/
def minStride (type : PixelType) (w : UInt32) : Except Failure Nat :=
  if type = .unknown then refuse (.notAllocatable type) else .ok (type.rowBytes w)

/-- Refuses a stride that is too small for a row. -/
def checkStride (type : PixelType) (w : UInt32) (stride : Nat) : Except Failure Unit := do
  let min ← minStride type w
  if stride < min then refuse (.strideTooSmall stride min)

/-- The size of the largest buffer, half of a 64-bit address space. -/
def maxSize : Nat := 0x7fffffffffffffff

/-- Byte counts from here on do not fit 64 bits. -/
def sizeLimit : Nat := 0x10000000000000000

/-- `n` zero bytes. -/
def zeros (n : Nat) : Except Fault Bytes :=
  if n ≤ maxSize then .ok (Array.replicate n 0) else .error .outOfMemory

/-- A pixmap of zero bytes with rows `stride` bytes apart. -/
def allocWithStride (w h : UInt32) (type : PixelType) (stride : UInt64) :
    Except Failure Pixmap := do
  checkStride type w stride.toNat
  let size := if w = 0 then 0 else stride.toNat * h.toNat
  if sizeLimit ≤ size then refuse (.tooLarge w h type)
  return ⟨plainFrame w h type stride.toNat, ← zeros size⟩

/-- A pixmap of zero bytes with rows as close as whole bytes allow. -/
def alloc (w h : UInt32) (type : PixelType) : Except Failure Pixmap := do
  allocWithStride w h type (.ofNat (← minStride type w))

/-- Bytes that a buffer needs for `h` rows of `w` pixels. -/
def neededSize (w h : UInt32) (type : PixelType) (stride : Nat) : Except Fault Nat :=
  if w = 0 ∨ h = 0 then .ok 0 else size64 ((h.toNat - 1) * stride + type.rowBytes w)

/-- A pixmap over given bytes with rows `stride` bytes apart. -/
def ofDataWithStride (w h : UInt32) (type : PixelType) (stride : UInt64) (bytes : Bytes) :
    Except Failure Pixmap := do
  checkStride type w stride.toNat
  let needed ← neededSize w h type stride.toNat
  if bytes.size < needed then refuse (.dataTooSmall bytes.size needed)
  return ⟨plainFrame w h type stride.toNat, bytes⟩

/-- A pixmap over given bytes with rows as close as whole bytes allow. -/
def ofData (w h : UInt32) (type : PixelType) (bytes : Bytes) : Except Failure Pixmap := do
  ofDataWithStride w h type (.ofNat (← minStride type w)) bytes

/-- The first `n` bytes, followed by zeros where there are fewer. -/
def fitBytes (b : Bytes) (n : Nat) : Bytes := b.extract 0 n ++ Array.replicate (n - b.size) 0

/-- Changes the size of a pixmap that owns its buffer. The bytes stay in their places as far as
the new buffer reaches, whatever rows they belong to. -/
def resize (p : Pixmap) (w h : UInt32) : Except Failure Pixmap := do
  let stride ← minStride p.pixelType w
  let size := stride * h.toNat
  if sizeLimit ≤ size then refuse (.tooLarge w h p.pixelType)
  if maxSize < size then throw (.fault .outOfMemory)
  return { p with width := w, height := h, stride := stride, bytes := fitBytes p.bytes size }

/-! Single pixels and rows. -/

def get (p : Pixmap) (point : Point) : Except Fault Pixel := p.read point p.bytes

/-- Replaces byte `i` of the data. -/
def poke (p : Pixmap) (i : Nat) (v : UInt8) : Except Fault Pixmap :=
  if p.start + i < p.bytes.size then
    .ok { p with bytes := p.bytes.setIfInBounds (p.start + i) v }
  else .error .outOfBounds

/-- The bytes of raw row `y`, with the ones it shares with others at its ends. -/
def row (p : Pixmap) (y : UInt32) : Except Fault Bytes := do
  let first ← size64 (y.toNat * p.stride)
  let n := byteCount (p.offset + p.width.toNat * p.bpp)
  if first + n ≤ p.size then
    return p.bytes.extract (p.start + first) (p.start + first + n)
  else .error .outOfBounds

/-! Drawing. -/

/-- Lets `paint` change the buffer, in coordinates of space `s`. -/
@[inline] def draw (p : Pixmap) (s : Space) (paint : Frame → Bytes → Except Fault Bytes) :
    Except Fault Pixmap :=
  match p with
  | ⟨frame, bytes⟩ =>
    match paint (frame.seen s) bytes with
    | .ok bytes => .ok ⟨frame, bytes⟩
    | .error e => .error e

/-- Takes over the buffer of a view after it was drawn on. -/
def absorb (p view : Pixmap) : Pixmap := { p with bytes := view.bytes }

end Pixmap

end Raster
