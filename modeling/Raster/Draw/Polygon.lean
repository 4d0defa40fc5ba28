import Raster.Binary
import Raster.Draw.Line
import Raster.Draw.Ring

/- Polygons.

   The outline joins neighbouring points by lines. The inside is found row by row: an
   edge that reaches the row contributes the columns it crosses within 0.49 of the row's
   center, and what lies between the first and the second, the third and the fourth
   edge from the left is filled. Level edges are drawn on their own and do not count;
   other edges end a row early, so that a vertex between two of them counts once, but
   for those that end on the last row. -/
namespace Raster

/-- An edge that is not level, by its upper end, the last row it counts on and its extent. -/
structure Edge where
  x : Int
  top : Int
  bottom : Int
  dx : Int
  dy : Int
  deriving DecidableEq, Repr

/-- The columns that an edge covers on a row. -/
structure Span where
  left : Int
  right : Int
  deriving DecidableEq, Repr

namespace Edge

/-- The edge between two points unless it is level; `last` is the last row of the polygon. -/
def between? (last : Int) (p q : Int × Int) : Option Edge :=
  if p.2 = q.2 then none
  else
    let (u, l) := if p.2 < q.2 then (p, q) else (q, p)
    some ⟨u.1, u.2, if l.2 = last then l.2 else l.2 - 1, l.1 - u.1, l.2 - u.2⟩

/-- The column of the edge `t` rows below its upper end, half a column further and then taken
toward zero. -/
def columnAt (e : Edge) (t : Float) : Int :=
  (Parts.ofFloat (Float.ofInt e.x + Float.ofInt e.dx * t / Float.ofInt e.dy + 0.5)).truncate

/-- What the edge covers on row `y`, if it reaches it. -/
def span? (e : Edge) (y : Int) : Option Span :=
  if y < e.top ∨ e.bottom < y then none
  else
    let t := Float.ofInt (y - e.top)
    let p := e.columnAt (t - 0.49)
    let q := e.columnAt (t + 0.49)
    some ⟨min p q, max p q⟩

/-- The edges of a polygon that are not level. -/
def ofPoints (ps : List (Int × Int)) (last : Int) : List Edge :=
  (neighbours ps).filterMap fun (p, q) => between? last p q

end Edge

namespace Span

/-- The spans from left to right, those that begin together in their order. -/
def sort (l : List Span) : List Span := l.mergeSort fun s t => s.left ≤ t.left

end Span

/-- The spans of a row from left to right. -/
def rowSpans (edges : List Edge) (y : Int) : List Span := Span.sort (edges.filterMap (·.span? y))

namespace Frame

/-- The closed outline through raw points. -/
def outline (f : Frame) (ps : List (Int × Int)) (v : Pixel) (b : Bytes) : Except Fault Bytes :=
  (neighbours ps).foldlM (fun b (p, q) => f.segment ⟨p.1, p.2, q.1, q.2⟩ v b) b

/-- Draws the level edges. -/
def levelEdges (f : Frame) (ps : List (Int × Int)) (v : Pixel) (b : Bytes) : Except Fault Bytes :=
  (neighbours ps).foldlM
    (fun b (p, q) => if q.2 = p.2 then f.spanRow q.1 p.1 q.2 v b else .ok b) b

/-- Fills a row between the first and second, third and fourth span and so on. -/
def fillPairs (f : Frame) (y : Int) (v : Pixel) : List Span → Bytes → Except Fault Bytes
  | s :: t :: rest, b => do fillPairs f y v rest (← f.spanRow s.left t.right y v b)
  | _, b => .ok b

/-- The least and greatest row of the points after a first one. -/
def rowRange (p : Int × Int) (ps : List (Int × Int)) : Int × Int :=
  ps.foldl (fun (lo, hi) q => (min lo q.2, max hi q.2)) (p.2, p.2)

/-- The inside of the polygon through raw points; of one point it is a pixel and of two a line. -/
def inside (f : Frame) (ps : List (Int × Int)) (v : Pixel) (b : Bytes) : Except Fault Bytes :=
  match ps with
  | [] => .ok b
  | [p] => f.writeClipped p.1 p.2 v b
  | [p, q] => f.segment ⟨p.1, p.2, q.1, q.2⟩ v b
  | p :: rest => do
    let b ← f.levelEdges ps v b
    let (top, bottom) := rowRange p rest
    let edges := Edge.ofPoints ps bottom
    forRange (max top 0) (min bottom (f.height.toNat - 1) + 1) b fun y b =>
      f.fillPairs y v (rowSpans edges y) b

def rawPoints (f : Frame) (ps : List Point) : Except Fault (List (Int × Int)) :=
  ps.mapM fun p => f.rawPoint p.x.toInt p.y.toInt

/-- The closed outline through some points. -/
def polygon (f : Frame) (ps : List Point) (v : Pixel) (b : Bytes) : Except Fault Bytes := do
  f.outline (← f.rawPoints ps) v b

/-- A filled polygon. -/
def fillPolygon (f : Frame) (ps : List Point) (v : Pixel) (b : Bytes) : Except Fault Bytes := do
  f.inside (← f.rawPoints ps) v b

def triangle (f : Frame) (p q r : Point) (v : Pixel) (b : Bytes) : Except Fault Bytes :=
  f.polygon [p, q, r] v b

def fillTriangle (f : Frame) (p q r : Point) (v : Pixel) (b : Bytes) : Except Fault Bytes :=
  f.fillPolygon [p, q, r] v b

end Frame

end Raster
