import Raster.Draw.Run
import Raster.Quotient

/- Straight lines.

   A line is clipped to the frame first: an end outside moves to where the line meets
   the side it lies beyond, computed from the ends as given by exact quotients rounded
   to the nearest pixel. What is left is walked from both ends at once toward the
   middle, so that neither end is preferred. -/
namespace Raster

/-- A line between raw points. -/
structure Segment where
  x0 : Int
  y0 : Int
  x1 : Int
  y1 : Int
  deriving DecidableEq, Repr

/-- The sides of a box beyond which a point lies. -/
structure Sides where
  left : Bool
  right : Bool
  above : Bool
  below : Bool
  deriving DecidableEq, Repr

namespace Sides

/-- The sides of the box from the origin to `w`, `h` beyond which `p` lies. -/
def of (w h : Int) (p : Int × Int) : Sides :=
  ⟨decide (p.1 < 0), decide (w ≤ p.1), decide (p.2 < 0), decide (h ≤ p.2)⟩

def isInside (s : Sides) : Bool := !(s.left || s.right || s.above || s.below)

/-- Both points lie beyond one side. -/
def meets (s t : Sides) : Bool :=
  (s.left && t.left) || (s.right && t.right) || (s.above && t.above) || (s.below && t.below)

end Sides

namespace Segment

/-- The column at which the line passes row `y`. -/
def columnAt (s : Segment) (y : Int) : Except Fault Int := do
  let n ← Bounds.int128.check ((s.x1 - s.x0) * (y - s.y0))
  return s.x0 + (← roundQuotient n (s.y1 - s.y0))

/-- The row at which the line passes column `x`. -/
def rowAt (s : Segment) (x : Int) : Except Fault Int := do
  let n ← Bounds.int128.check ((s.y1 - s.y0) * (x - s.x0))
  return s.y0 + (← roundQuotient n (s.x1 - s.x0))

/-- The point of the line at a side of the box beyond which an end lies. -/
def crossing (s : Segment) (w h : Int) (sides : Sides) : Except Fault (Int × Int) :=
  if sides.below then return (← s.columnAt (h - 1), h - 1)
  else if sides.above then return (← s.columnAt 0, 0)
  else if sides.right then return (w - 1, ← s.rowAt (w - 1))
  else return (0, ← s.rowAt 0)

/-- Moves the ends `p` and `q` of the line into the box, one side at a time; `none` if the line
misses the box or is not inside after so many moves. -/
def trim (s : Segment) (w h : Int) : Nat → Int × Int → Int × Int → Except Fault (Option Segment)
  | 0, _, _ => .ok none
  | moves + 1, p, q =>
    let sp := Sides.of w h p
    let sq := Sides.of w h q
    if sp.isInside && sq.isInside then .ok (some ⟨p.1, p.2, q.1, q.2⟩)
    else if sp.meets sq then .ok none
    else if sp.isInside then do trim s w h moves p (← s.crossing w h sq)
    else do trim s w h moves (← s.crossing w h sp) q

/-- The part of the line inside the box from the origin to `w`, `h`. An end needs two moves at
most; a line that takes sixteen only grazes a corner. -/
def clip (s : Segment) (w h : Int) : Except Fault (Option Segment) :=
  if w = 0 ∨ h = 0 then .ok none else s.trim w h 16 (s.x0, s.y0) (s.x1, s.y1)

end Segment

namespace Frame

/-- Sets the pixel at a major and a minor coordinate; `steep` makes rows the major ones. -/
def plot (f : Frame) (steep : Bool) (major minor : Int) (v : Pixel) (b : Bytes) :
    Except Fault Bytes :=
  if steep then f.writeRaw (.ofInt minor) (.ofInt major) v b
  else f.writeRaw (.ofInt major) (.ofInt minor) v b

/-- A line by its ends in major and minor coordinates, the major ones ascending. -/
structure Slope where
  steep : Bool
  major0 : Int
  minor0 : Int
  major1 : Int
  minor1 : Int
  deriving DecidableEq, Repr

namespace Slope

/-- The line along its longer axis, rows if both are equally long. -/
def ofSegment (s : Segment) : Slope :=
  if (s.x1 - s.x0).natAbs ≤ (s.y1 - s.y0).natAbs then
    if s.y0 ≤ s.y1 then ⟨true, s.y0, s.x0, s.y1, s.x1⟩ else ⟨true, s.y1, s.x1, s.y0, s.x0⟩
  else
    if s.x0 ≤ s.x1 then ⟨false, s.x0, s.y0, s.x1, s.y1⟩ else ⟨false, s.x1, s.y1, s.x0, s.y0⟩

def length (s : Slope) : Int := s.major1 - s.major0
def rise (s : Slope) : Int := ((s.minor1 - s.minor0).natAbs : Int)
def direction (s : Slope) : Int := if s.minor0 < s.minor1 then 1 else -1

end Slope

/-- Walks `count` steps inward from both ends. `i` is the step, `drift` the minor distance from the
ends, `error` what is left until the next minor step. -/
def walkInward (f : Frame) (s : Slope) (v : Pixel) :
    Nat → Int → Int → Int → Bytes → Except Fault Bytes
  | 0, _, _, _, b => .ok b
  | count + 1, i, drift, error, b => do
    let b ← f.plot s.steep (s.major0 + i) (s.minor0 + drift) v b
    let b ← f.plot s.steep (s.major1 - i) (s.minor1 - drift) v b
    let error ← Bounds.int64.check (error - s.rise)
    if error < 0 then
      walkInward f s v count (i + 1) (drift + s.direction)
        (← Bounds.int64.check (error + s.length)) b
    else walkInward f s v count (i + 1) drift error b

/-- A line inside the frame. -/
def paintSegment (f : Frame) (s : Segment) (v : Pixel) (b : Bytes) : Except Fault Bytes :=
  if s.x0 = s.x1 ∧ s.y0 = s.y1 then f.writeRaw (.ofInt s.x0) (.ofInt s.y0) v b
  else if s.x0 = s.x1 then f.spanColumn s.x0 s.y0 s.y1 v b
  else if s.y0 = s.y1 then f.spanRow s.x0 s.x1 s.y0 v b
  else
    let t := Slope.ofSegment s
    f.walkInward t v (t.length / 2 + 1).toNat 0 0 (t.length / 2) b

/-- The line between two raw points. -/
def segment (f : Frame) (s : Segment) (v : Pixel) (b : Bytes) : Except Fault Bytes := do
  match ← s.clip f.width.toNat f.height.toNat with
  | some s => f.paintSegment s v b
  | none => return b

/-- The raw line between two user points. -/
def rawSegment (f : Frame) (p q : Point) : Except Fault Segment := do
  let (x0, y0) ← f.rawPoint p.x.toInt p.y.toInt
  let (x1, y1) ← f.rawPoint q.x.toInt q.y.toInt
  return ⟨x0, y0, x1, y1⟩

/-- The line between two points, both included. -/
def line (f : Frame) (p q : Point) (v : Pixel) (b : Bytes) : Except Fault Bytes := do
  f.segment (← f.rawSegment p q) v b

end Frame

end Raster
