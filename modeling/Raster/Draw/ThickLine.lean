import Raster.Draw.Line
import Raster.Draw.Rect
import Raster.Draw.Ring
import Raster.Hypotenuse

/- Thick lines.

   A line of radius `r` is the quadrilateral that the line sweeps when it is shifted by
   `r` along its normal, both ways. Each row takes the part of it within 0.49 of the
   row's center, rounded to whole pixels; positions are double precision numbers. A
   point becomes a square, and radius zero leaves a plain line. -/
namespace Raster

/-- A position between pixels. -/
structure Place where
  x : Float
  y : Float

namespace Place

/-- The column at which the edge from `p` to `q` crosses row position `y`, properly. -/
def crossing? (p q : Place) (y : Float) : Option Float :=
  if (p.y < y && q.y > y) || (p.y > y && q.y < y) then
    some (p.x + (q.x - p.x) * (y - p.y) / (q.y - p.y))
  else none

end Place

/-- A range of columns that grows to hold what it is given; at first it is empty. -/
structure Extent where
  low : Float
  high : Float

namespace Extent

def empty : Extent := ⟨1.0 / 0.0, -1.0 / 0.0⟩

def hold (e : Extent) (x : Float) : Extent :=
  ⟨if x < e.low then x else e.low, if e.high < x then x else e.high⟩

def hold? (e : Extent) : Option Float → Extent
  | some x => e.hold x
  | none => e

/-- What the edge to `q` adds to the extent of a band between two row positions. -/
def addEdge (top bottom : Float) (e : Extent) (edge : Place × Place) : Extent :=
  let (p, q) := edge
  let e := if top ≤ q.y && q.y ≤ bottom then e.hold q.x else e
  (e.hold? (p.crossing? q top)).hold? (p.crossing? q bottom)

/-- The columns of a convex polygon between two row positions. -/
def ofBand (corners : List Place) (top bottom : Float) : Extent :=
  (neighbours corners).foldl (addEdge top bottom) empty

end Extent

/-- The nearest integer to a position, halves up. -/
def nearestInt (x : Float) : Int := (Parts.ofFloat (x + 0.5)).floor

namespace Frame

/-- The corners of a line widened by `r` on each side. -/
def thickCorners (s : Segment) (r : UInt32) : List Place :=
  let x0 := Float.ofInt s.x0
  let y0 := Float.ofInt s.y0
  let x1 := Float.ofInt s.x1
  let y1 := Float.ofInt s.y1
  let len := hypotenuse (s.x1 - s.x0) (s.y1 - s.y0)
  let nx := -(y1 - y0) * r.toFloat / len
  let ny := (x1 - x0) * r.toFloat / len
  [⟨x0 + nx, y0 + ny⟩, ⟨x1 + nx, y1 + ny⟩, ⟨x1 - nx, y1 - ny⟩, ⟨x0 - nx, y0 - ny⟩]

/-- Fills the rows of a convex polygon. -/
def fillConvex (f : Frame) (corners : List Place) (v : Pixel) (b : Bytes) : Except Fault Bytes :=
  let rows := corners.foldl (fun e p => e.hold p.y) Extent.empty
  let first := max (Parts.ofFloat (rows.low - 0.49)).ceil 0
  let last := min (Parts.ofFloat (rows.high + 0.49)).floor (f.height.toNat - 1)
  forRange first (last + 1) b fun y b =>
    let row := Float.ofInt y
    let e := Extent.ofBand corners (row - 0.49) (row + 0.49)
    if e.low ≤ e.high then f.spanRow (nearestInt e.low) (nearestInt e.high) y v b else .ok b

/-- The line between two raw points with radius `r`. -/
def thickSegment (f : Frame) (s : Segment) (r : UInt32) (v : Pixel) (b : Bytes) :
    Except Fault Bytes :=
  if r = 0 then f.segment s v b
  else if s.x0 = s.x1 ∧ s.y0 = s.y1 then
    f.box (s.x0 - r.toNat) (s.y0 - r.toNat) (s.x0 + r.toNat) (s.y0 + r.toNat) v b
  else f.fillConvex (thickCorners s r) v b

/-- The line between two points, widened by `r` pixels on each side. -/
def thickLine (f : Frame) (p q : Point) (r : UInt32) (v : Pixel) (b : Bytes) :
    Except Fault Bytes := do
  f.thickSegment (← f.rawSegment p q) r v b

end Frame

end Raster
