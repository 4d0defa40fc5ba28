import Raster.Draw.Circle

/- Ellipses with axes along the frame.

   The walk of the circle with weighted squares: the excess is
   `b ^ 2 * x ^ 2 + a ^ 2 * y ^ 2 - a ^ 2 * b ^ 2`, which needs 128 bits. A half axis
   of zero leaves a straight line. -/
namespace Raster.Frame

/-- The walk along an ellipse with half axes `a` and `b + 1`. -/
def ellipseWalk (a b : Nat) : QuadrantWalk where
  bounds := .int128
  across := (b + 1) * (b + 1)
  down := a * a
  across_pos := Nat.mul_pos (Nat.succ_pos b) (Nat.succ_pos b)

/-- Walks an ellipse around a raw center, or draws the line that is left of it. -/
def walkEllipse (f : Frame) (xc yc : Int) (a b : Nat) (visit : Visitor Bytes) (v : Pixel)
    (bytes : Bytes) : Except Fault Bytes :=
  match a, b with
  | 0, b => f.spanColumn xc (yc - b) (yc + b) v bytes
  | a, 0 => f.spanRow (xc - a) (xc + a) yc v bytes
  | a, b + 1 =>
    if f.misses xc yc a (b + 1) then .ok bytes
    else (ellipseWalk a b).run visit (b + 1) (-(((b + 1) * (b + 1) : Nat) : Int) * a) bytes

/-- The raw half axes of user half axes. -/
def rawAxes (f : Frame) (a b : UInt32) : UInt32 × UInt32 := f.orientation.exchange (a, b)

/-- The outline of an ellipse with half width `a` and half height `b`. -/
def ellipse (f : Frame) (c : Point) (a b : UInt32) (v : Pixel) (bytes : Bytes) :
    Except Fault Bytes := do
  let (xc, yc) ← f.rawPoint c.x.toInt c.y.toInt
  let (a, b) := f.rawAxes a b
  f.walkEllipse xc yc a.toNat b.toNat (f.outlineVisitor .all xc yc v) v bytes

/-- A filled ellipse. -/
def fillEllipse (f : Frame) (c : Point) (a b : UInt32) (v : Pixel) (bytes : Bytes) :
    Except Fault Bytes := do
  let (xc, yc) ← f.rawPoint c.x.toInt c.y.toInt
  let (a, b) := f.rawAxes a b
  f.walkEllipse xc yc a.toNat b.toNat (f.insideVisitor xc yc v) v bytes

end Raster.Frame
