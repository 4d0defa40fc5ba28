import Raster.Draw.Run

/- Rectangles with sides along the axes.

   `border` and `box` work between two raw corners in any order, both included. A user
   rectangle is a raw one under any orientation. -/
namespace Raster.Frame

/-- The outline between raw corners. -/
def border (f : Frame) (x0 y0 x1 y1 : Int) (v : Pixel) (b : Bytes) : Except Fault Bytes := do
  let b ← f.spanRow x0 x1 y0 v b
  let b ← f.spanRow x0 x1 y1 v b
  let b ← f.spanColumn x0 y0 y1 v b
  f.spanColumn x1 y0 y1 v b

/-- The inside between raw corners. -/
def box (f : Frame) (x0 y0 x1 y1 : Int) (v : Pixel) (b : Bytes) : Except Fault Bytes :=
  let first := max (min y0 y1) 0
  let last := min (max y0 y1) (f.height.toNat - 1)
  forRange first (last + 1) b fun y b => f.spanRow x0 x1 y v b

/-- Paints by raw corners what is given by user corners. -/
@[inline] def byCorners (f : Frame)
    (paint : Int → Int → Int → Int → Pixel → Bytes → Except Fault Bytes)
    (x0 y0 x1 y1 : Int) (v : Pixel) (b : Bytes) : Except Fault Bytes := do
  let (x0, y0) ← f.rawPoint x0 y0
  let (x1, y1) ← f.rawPoint x1 y1
  paint x0 y0 x1 y1 v b

/-- Paints by corners what is given by origin and size, nothing if it is empty. -/
@[inline] def bySize (paint : Int → Int → Int → Int → Pixel → Bytes → Except Fault Bytes)
    (p : Point) (w h : UInt32) (v : Pixel) (b : Bytes) : Except Fault Bytes :=
  if w = 0 ∨ h = 0 then .ok b
  else
    paint p.x.toInt p.y.toInt (p.x.toInt + w.toNat - 1) (p.y.toInt + h.toNat - 1) v b

/-- The outline of a rectangle between two corners. -/
def rect (f : Frame) (p q : Point) (v : Pixel) (b : Bytes) : Except Fault Bytes :=
  f.byCorners f.border p.x.toInt p.y.toInt q.x.toInt q.y.toInt v b

/-- The outline of a rectangle of some size. -/
def rectOf (f : Frame) (p : Point) (w h : UInt32) (v : Pixel) (b : Bytes) : Except Fault Bytes :=
  bySize (f.byCorners f.border) p w h v b

/-- A filled rectangle between two corners. -/
def fillRect (f : Frame) (p q : Point) (v : Pixel) (b : Bytes) : Except Fault Bytes :=
  f.byCorners f.box p.x.toInt p.y.toInt q.x.toInt q.y.toInt v b

/-- A filled rectangle of some size. -/
def fillRectOf (f : Frame) (p : Point) (w h : UInt32) (v : Pixel) (b : Bytes) :
    Except Fault Bytes :=
  bySize (f.byCorners f.box) p w h v b

end Raster.Frame
