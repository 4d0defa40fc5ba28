import Raster.Draw.QuadrantWalk
import Raster.Draw.Run

/- Circles.

   Outline, filled circle and single quadrants, all by one walk along a quarter circle
   whose points are repeated in the other quadrants. A circle whose box misses the frame
   is not walked. -/
namespace Raster

/-- A choice of quadrants. -/
structure Quadrants where
  upRight : Bool
  upLeft : Bool
  downLeft : Bool
  downRight : Bool
  deriving DecidableEq, Repr

namespace Quadrants

def all : Quadrants := ⟨true, true, true, true⟩

/-- The quadrants of the four low bits of `n`, from up right against the clock. -/
def ofBits (n : Nat) : Quadrants := ⟨n.testBit 0, n.testBit 1, n.testBit 2, n.testBit 3⟩

def bits (q : Quadrants) : Nat :=
  q.upRight.toNat + 2 * q.upLeft.toNat + 4 * q.downLeft.toNat + 8 * q.downRight.toNat

def isEmpty (q : Quadrants) : Bool := !(q.upRight || q.upLeft || q.downLeft || q.downRight)

/-- Exchanges the axes. -/
def transpose (q : Quadrants) : Quadrants := ⟨q.downLeft, q.upLeft, q.upRight, q.downRight⟩

/-- Exchanges left and right. -/
def mirrorX (q : Quadrants) : Quadrants := ⟨q.upLeft, q.upRight, q.downRight, q.downLeft⟩

/-- Exchanges up and down. -/
def mirrorY (q : Quadrants) : Quadrants := ⟨q.downRight, q.downLeft, q.upLeft, q.upRight⟩

/-- The raw quadrants in which user quadrants are stored. -/
def raw (q : Quadrants) (o : Orientation) : Quadrants :=
  let q := if o.swapAxes then q.transpose else q
  let q := if o.mirrorX then q.mirrorX else q
  if o.mirrorY then q.mirrorY else q

end Quadrants

namespace Frame

/-- The box of half width `a` and half height `b` around a raw center misses the frame. -/
def misses (f : Frame) (xc yc a b : Int) : Bool :=
  xc + a < 0 || yc + b < 0 || f.width.toNat ≤ xc - a || f.height.toNat ≤ yc - b

/-- Sets the points at distance `x`, `y` from the center in some quadrants. -/
def plotQuadrants (f : Frame) (q : Quadrants) (xc yc : Int) (v : Pixel) (x y : Int) (b : Bytes) :
    Except Fault Bytes := do
  let b ← (if q.upLeft then f.writeClipped (xc - x) (yc - y) v b else .ok b)
  let b ← (if q.upRight then f.writeClipped (xc + x) (yc - y) v b else .ok b)
  let b ← (if q.downLeft then f.writeClipped (xc - x) (yc + y) v b else .ok b)
  if q.downRight then f.writeClipped (xc + x) (yc + y) v b else .ok b

/-- Sets the two rows at distance `y` from the center over the half width `x`. -/
def plotRows (f : Frame) (xc yc : Int) (v : Pixel) (x y : Int) (b : Bytes) :
    Except Fault Bytes := do
  let b ← f.spanRow (xc - x) (xc + x) (yc - y) v b
  f.spanRow (xc - x) (xc + x) (yc + y) v b

/-- Draws the outline in some quadrants. -/
def outlineVisitor (f : Frame) (q : Quadrants) (xc yc : Int) (v : Pixel) : Visitor Bytes where
  point x y b := f.plotQuadrants q xc yc v x y b
  row _ _ b := .ok b

/-- Draws the inside row by row. -/
def insideVisitor (f : Frame) (xc yc : Int) (v : Pixel) : Visitor Bytes where
  point _ _ b := .ok b
  row x y b := f.plotRows xc yc v x y b

/-- The walk along a circle, whose excess is `x ^ 2 + y ^ 2 - r ^ 2`. -/
def circleWalk : QuadrantWalk := ⟨.int64, 1, 1, Nat.one_pos⟩

/-- Quadrants of the circle with radius `r` around a raw center. -/
def arcs (f : Frame) (q : Quadrants) (xc yc : Int) (r : Nat) (v : Pixel) (b : Bytes) :
    Except Fault Bytes :=
  if q.isEmpty then .ok b
  else if r = 0 then f.writeClipped xc yc v b
  else if f.misses xc yc r r then .ok b
  else circleWalk.run (f.outlineVisitor q xc yc v) r (-r) b

/-- The inside of the circle with radius `r` around a raw center. -/
def disc (f : Frame) (xc yc : Int) (r : Nat) (v : Pixel) (b : Bytes) : Except Fault Bytes :=
  if f.misses xc yc r r then .ok b
  else circleWalk.run (f.insideVisitor xc yc v) r (-r) b

/-- Selected quadrants of a circle. -/
def circleSegments (f : Frame) (c : Point) (r : Int32) (q : Quadrants) (v : Pixel) (b : Bytes) :
    Except Fault Bytes := do
  let (xc, yc) ← f.rawPoint c.x.toInt c.y.toInt
  f.arcs (q.raw f.orientation) xc yc r.toInt.natAbs v b

/-- A circle. Of a negative radius the absolute value counts. -/
def circle (f : Frame) (c : Point) (r : Int32) (v : Pixel) (b : Bytes) : Except Fault Bytes := do
  let (xc, yc) ← f.rawPoint c.x.toInt c.y.toInt
  f.arcs .all xc yc r.toInt.natAbs v b

/-- A filled circle. -/
def fillCircle (f : Frame) (c : Point) (r : Int32) (v : Pixel) (b : Bytes) :
    Except Fault Bytes := do
  let (xc, yc) ← f.rawPoint c.x.toInt c.y.toInt
  f.disc xc yc r.toInt.natAbs v b

end Frame

end Raster
