import Raster.Draw.Fill
import Raster.Pixmap
import Raster.PixelType.Color

/- Copies of rectangles between pixmaps.

   A rectangle of the source is given by inclusive corners in any order, or by origin
   and size, and goes to a point of the destination. A checked copy refuses a rectangle
   that does not fit; a clipped copy takes the part that does. Pixels are converted where
   the types differ. The corners are 32-bit numbers, so that sums and differences of them
   are exact. -/
namespace Raster

/-- A source rectangle with ordered inclusive corners and the point its first corner goes to. -/
structure BlitRect where
  x0 : Int
  y0 : Int
  x1 : Int
  y1 : Int
  x2 : Int
  y2 : Int
  deriving DecidableEq, Repr

namespace BlitRect

def ofCorners (p q dest : Point) : BlitRect :=
  ⟨min p.x.toInt q.x.toInt, min p.y.toInt q.y.toInt, max p.x.toInt q.x.toInt,
    max p.y.toInt q.y.toInt, dest.x.toInt, dest.y.toInt⟩

/-- The rectangle lies in a source of size `sw`, `sh` and its copy in a destination of size
`dw`, `dh`. -/
def Fits (r : BlitRect) (sw sh dw dh : UInt32) : Prop :=
  0 ≤ r.x0 ∧ 0 ≤ r.y0 ∧ r.x1 < sw.toNat ∧ r.y1 < sh.toNat ∧ 0 ≤ r.x2 ∧ 0 ≤ r.y2 ∧
    r.x2 + (r.x1 - r.x0) < dw.toNat ∧ r.y2 + (r.y1 - r.y0) < dh.toNat

instance (r : BlitRect) (sw sh dw dh : UInt32) : Decidable (r.Fits sw sh dw dh) := by
  unfold Fits; infer_instance

/-- What is refused when the rectangle does not fit. -/
def misfit (r : BlitRect) : Error := .doesNotFit (.ofInt r.x0) (.ofInt r.y0) (.ofInt r.x1) (.ofInt r.y1)

/-- One axis of a clipped copy: the inclusive source range and its destination. -/
structure Axis where
  first : Int
  last : Int
  dest : Int
  deriving DecidableEq, Repr

/-- The part of a range from `first` to `last` that lies in a source of size `sw` and whose copy
from `dest` on lies in a destination of size `dw`. A start before the source is moved into it while
the destination stays. -/
def Axis.clip (a : Axis) (sw dw : Nat) : Option Axis :=
  if dw ≤ a.dest then none
  else
    let first := max (if a.dest < 0 then a.first - a.dest else a.first) 0
    let dest := max a.dest 0
    let last := min a.last (sw - 1)
    if last < first then none
    else some ⟨first, min last (first + (dw - dest) - 1), dest⟩

/-- The part of the rectangle that lies in the source and whose copy lies in the destination. -/
def clip (r : BlitRect) (sw sh dw dh : UInt32) : Option BlitRect := do
  let x ← Axis.clip ⟨r.x0, r.x1, r.x2⟩ sw.toNat dw.toNat
  let y ← Axis.clip ⟨r.y0, r.y1, r.y2⟩ sh.toNat dh.toNat
  return ⟨x.first, y.first, x.last, y.last, x.dest, y.dest⟩

end BlitRect

/-- The far corner of a rectangle with some size, no further than a 32-bit number goes. -/
def farCorner (p : Point) (w h : UInt32) : Point :=
  let far (v : Int32) (n : UInt32) : Int32 := .ofInt (min (v.toInt + n.toNat - 1) Bounds.int32.high)
  ⟨far p.x w, far p.y h⟩

namespace Frame
open Bounds (int32)

/-- Copies `n` bytes of the source to the buffer, both counted from the start of a frame. -/
def copyBytes (f : Frame) (src : Pixmap) (i j n : Nat) (b : Bytes) : Except Fault Bytes :=
  if src.start + j + n ≤ src.bytes.size ∧ f.start + i + n ≤ b.size then
    .ok (b.copyRun src.bytes (f.start + i) (src.start + j) n)
  else .error .outOfBounds

/-- A coordinate counted from a 32-bit one. -/
def offsetBy (v i : Int) : Except Fault Int32 :=
  return .ofInt (← int32.check ((Int32.ofInt v).toInt + i))

/-- The count of rows from `a` to `b`, their distance taken as a number of 64 bits: rows that end
before they start count nearly `2 ^ 64`. -/
def rowCount (a b : Int) : Int := (b - a) % 0x10000000000000000 + 1

/-- Copies row by row, for one type whose pixels are whole bytes in both pixmaps. -/
def blitRows (f : Frame) (src : Pixmap) (r : BlitRect) (b : Bytes) : Except Fault Bytes :=
  let size := src.bpp / 8
  let n := (r.x1 - r.x0 + 1).toNat * size
  forRange 0 (rowCount r.y0 r.y1) b fun row b =>
    f.copyBytes src ((r.y2 + row).toNat * f.stride + r.x2.toNat * size)
      ((r.y0 + row).toNat * src.stride + r.x0.toNat * size) n b

/-- Copies pixel by pixel: `get` reads the source and `put` writes the buffer. -/
@[inline] def blitPixels (rows columns : Int) (r : BlitRect)
    (get : Int32 → Int32 → Except Fault Pixel)
    (put : Int32 → Int32 → Pixel → Bytes → Except Fault Bytes) (b : Bytes) :
    Except Fault Bytes :=
  forRange 0 rows b fun row b =>
    forRange 0 columns b fun col b => do
      let v ← get (← offsetBy r.x0 col) (← offsetBy r.y0 row)
      put (← offsetBy r.x2 col) (← offsetBy r.y2 row) v b

/-- The bound of a loop over 32-bit integers from `a` to `b`. -/
def loopSpan (a b : Int) : Int := (Int32.ofInt (b - a)).toInt + 1

/-- Copies a rectangle that fits, in raw coordinates. -/
def blitRaw (f : Frame) (src : Pixmap) (r : BlitRect) (b : Bytes) : Except Fault Bytes :=
  if src.pixelType = f.pixelType ∧ src.isAligned ∧ f.isAligned then f.blitRows src r b
  else
    blitPixels (loopSpan r.y0 r.y1) (Int32.ofInt (r.x1 - r.x0 + 1)).toInt r
      (fun x y => return src.pixelType.convert (← src.readRaw x y src.bytes) f.pixelType)
      f.writeRaw b

/-- Copies a rectangle that fits, in user coordinates. -/
def blitUser (f : Frame) (src : Pixmap) (r : BlitRect) (b : Bytes) : Except Fault Bytes :=
  if src.orientation = .identity ∧ f.orientation = .identity then f.blitRaw src r b
  else
    blitPixels (loopSpan r.y0 r.y1) (loopSpan r.x0 r.x1) r
      (fun x y => return src.pixelType.convert (← src.get ⟨x, y⟩) f.pixelType)
      (fun x y v b => f.write ⟨x, y⟩ v b) b

/-- Copies the part of a rectangle that fits. -/
def blitClipped (f : Frame) (src : Pixmap) (p q dest : Point) (b : Bytes) : Except Fault Bytes :=
  match (BlitRect.ofCorners p q dest).clip src.userWidth src.userHeight f.userWidth f.userHeight with
  | some r => f.blitUser src r b
  | none => .ok b

/-- Copies the part of a rectangle of some size that fits. -/
def blitClippedOf (f : Frame) (src : Pixmap) (p : Point) (w h : UInt32) (dest : Point) (b : Bytes) :
    Except Fault Bytes :=
  if w = 0 ∨ h = 0 then .ok b else f.blitClipped src p (farCorner p w h) dest b

end Frame

namespace Pixmap

/-- The pixmap as seen in a space. -/
def seen (p : Pixmap) (s : Space) : Pixmap := { p with toFrame := p.toFrame.seen s }

/-- Copies the rectangle of `src` between corners `p` and `q` to `dest`, or refuses it. -/
def blit (d src : Pixmap) (s : Space) (p q dest : Point) : Except Failure Pixmap :=
  let r := BlitRect.ofCorners p q dest
  let source := src.seen s
  let target := d.toFrame.seen s
  if r.Fits source.userWidth source.userHeight target.userWidth target.userHeight then
    d.draw s fun f b => f.blitUser source r b
  else refuse r.misfit

/-- Copies the rectangle of `src` with origin `p` and some size to `dest`, or refuses it. -/
def blitOf (d src : Pixmap) (s : Space) (p : Point) (w h : UInt32) (dest : Point) :
    Except Failure Pixmap :=
  if w = 0 ∨ h = 0 then .ok d else d.blit src s p (farCorner p w h) dest

/-- Copies the whole of `src` to `dest`, or refuses it. -/
def blitAll (d src : Pixmap) (dest : Point) : Except Failure Pixmap :=
  d.blitOf src .user ⟨0, 0⟩ src.userWidth src.userHeight dest

end Pixmap

end Raster
