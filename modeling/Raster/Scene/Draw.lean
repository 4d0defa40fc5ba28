import Raster.Draw.Coverage
import Raster.Draw.Ellipse
import Raster.Draw.Polygon
import Raster.Draw.ThickLine
import Raster.Pixmap.Copy
import Raster.Scene.Basic

/- Drawing a scene.

   `Shape.paint` draws a shape in user coordinates, with its colours coded in the type of
   the frame. A checker is drawn on a tile of its own and copied from there; if the tile
   cannot be made it is left out. -/
namespace Raster

namespace PixelType

/-- The pixel for a solid colour. -/
def encodeRgb (t : PixelType) (c : Rgb) : Pixel := t.encode c.solid

end PixelType

/-- A position in pixels as a fixed point number, the nearest one. -/
def fixedOf (x : Float32) : Int64 := .ofInt (Parts.ofFloat32 (x * 256.0)).round

namespace Checker

/-- Cells along a side of `size` pixels. -/
def cellCount (size cell : UInt32) : Nat := (size.toNat + cell.toNat - 1) / cell.toNat

/-- Fills the cell in column `i` and row `j`. -/
def paintCell (f : Frame) (cell : UInt32) (even odd : Pixel) (i j : Int) (b : Bytes) :
    Except Fault Bytes := do
  let k ← Bounds.uint32.check (i + j)
  let x ← Bounds.uint32.check (i * cell.toNat)
  let y ← Bounds.uint32.check (j * cell.toNat)
  f.fillRectOf ⟨.ofInt x, .ofInt y⟩ cell cell (if k % 2 = 0 then even else odd) b

/-- A square pixmap of cells in two colours. -/
def tile (type : PixelType) (size cell : UInt32) (even odd : Pixel) : Except Failure Pixmap := do
  let p ← Pixmap.alloc size size type
  let cell := max cell 1
  let n : Int := cellCount size cell
  p.draw .user fun f b =>
    forRange 0 n b fun j b => forRange 0 n b fun i b => paintCell f cell even odd i j b

end Checker

namespace Shape

def paint (s : Shape) (f : Frame) (b : Bytes) : Except Fault Bytes :=
  let px (c : Rgb) : Pixel := f.pixelType.encodeRgb c
  match s with
  | line p q c => f.line p q (px c) b
  | thickLine p q r c => f.thickLine p q r (px c) b
  | rect p q c => f.rect p q (px c) b
  | fillRect p q c => f.fillRect p q (px c) b
  | circle p r c => f.circle p r (px c) b
  | fillCircle p r c => f.fillCircle p r (px c) b
  | circleSegments p r n c => f.circleSegments p r (.ofBits n.toNat) (px c) b
  | ellipse p u v c => f.ellipse p u v (px c) b
  | fillEllipse p u v c => f.fillEllipse p u v (px c) b
  | triangle p q r fill c =>
    if fill then f.fillTriangle p q r (px c) b else f.triangle p q r (px c) b
  | polygon ps fill c => if fill then f.fillPolygon ps (px c) b else f.polygon ps (px c) b
  | softLine x0 y0 x1 y1 c => f.softLine (fixedOf x0) (fixedOf y0) (fixedOf x1) (fixedOf y1) (px c) b
  | checker p size cell even odd =>
    match Checker.tile f.pixelType size cell (px even) (px odd) with
    | .ok tile => f.blitClippedOf tile ⟨0, 0⟩ size size p b
    | .error (.error _) => .ok b
    | .error (.fault e) => .error e

end Shape

namespace Scene

/-- Clears a frame to the background and draws every shape. -/
def paint (s : Scene) (f : Frame) (b : Bytes) : Except Fault Bytes := do
  let b ← f.fill (f.pixelType.encodeRgb s.background) b
  s.shapes.foldlM (fun b shape => shape.paint f b) b

/-- A new pixmap with the scene. -/
def render (s : Scene) : Except Failure Pixmap := do
  let p ← Pixmap.alloc s.width s.height s.pixelType
  let p := { p with gamma := s.gamma.map fun e => ⟨e, s.pixelType⟩ }
  p.draw .user s.paint

end Scene

end Raster
