import Raster.Decimal.Shortest
import Raster.Json.Printer
import Raster.Scene.Basic

/- Scenes as JSON.

   A scene is an object of its fields; a shape is an object that begins with its tag.
   Single precision numbers take the fewest digits that read back, and one that is not
   finite is written as null, as the JSON library documents. -/
namespace Raster

/-- Numbers in a scene: positional from `1e-6` up to `1e13`, ties to the even digit. -/
def Decimal.sceneStyle : Style := ⟨-6, 12, true, false⟩

namespace Json

def float (x : Float32) : Json :=
  match Parts.ofFloat32 x with
  | .finite negative b => number (Decimal.sceneStyle.numeral negative b)
  | _ => null

def ofPoint (p : Point) : Json := array [int p.x.toInt, int p.y.toInt]

def ofRgb (c : Rgb) : Json := array [nat c.red.toNat, nat c.green.toNat, nat c.blue.toNat]

end Json

namespace Shape

/-- The tag of a shape and its fields. -/
def fields : Shape → String × List (String × Json)
  | line p q c => ("line", [("from", .ofPoint p), ("to", .ofPoint q), ("color", .ofRgb c)])
  | thickLine p q r c =>
    ("thick_line",
      [("from", .ofPoint p), ("to", .ofPoint q), ("radius", .nat r.toNat), ("color", .ofRgb c)])
  | rect p q c => ("rect", [("from", .ofPoint p), ("to", .ofPoint q), ("color", .ofRgb c)])
  | fillRect p q c =>
    ("fill_rect", [("from", .ofPoint p), ("to", .ofPoint q), ("color", .ofRgb c)])
  | circle p r c =>
    ("circle", [("center", .ofPoint p), ("radius", .int r.toInt), ("color", .ofRgb c)])
  | fillCircle p r c =>
    ("fill_circle", [("center", .ofPoint p), ("radius", .int r.toInt), ("color", .ofRgb c)])
  | circleSegments p r n c =>
    ("circle_seg",
      [("center", .ofPoint p), ("radius", .int r.toInt), ("segments", .nat n.toNat),
        ("color", .ofRgb c)])
  | ellipse p a b c =>
    ("ellipse",
      [("center", .ofPoint p), ("a", .nat a.toNat), ("b", .nat b.toNat), ("color", .ofRgb c)])
  | fillEllipse p a b c =>
    ("fill_ellipse",
      [("center", .ofPoint p), ("a", .nat a.toNat), ("b", .nat b.toNat), ("color", .ofRgb c)])
  | triangle p q r fill c =>
    ("triangle",
      [("points", .array [.ofPoint p, .ofPoint q, .ofPoint r]), ("fill", .bool fill),
        ("color", .ofRgb c)])
  | polygon ps fill c =>
    ("polygon",
      [("points", .array (ps.map .ofPoint)), ("fill", .bool fill), ("color", .ofRgb c)])
  | softLine x0 y0 x1 y1 c =>
    ("aa_line",
      [("from", .array [.float x0, .float y0]), ("to", .array [.float x1, .float y1]),
        ("color", .ofRgb c)])
  | checker p size cell even odd =>
    ("checker",
      [("at", .ofPoint p), ("size", .nat size.toNat), ("cell", .nat cell.toNat),
        ("colors", .array [.ofRgb even, .ofRgb odd])])

def encode (s : Shape) : Json := .record (("shape", .text s.fields.1) :: s.fields.2)

end Shape

namespace Scene

def encode (s : Scene) : Json :=
  .record [
    ("name", .text s.name),
    ("width", .nat s.width.toNat),
    ("height", .nat s.height.toNat),
    ("pixel_type", .text s.pixelType.name),
    ("background", .ofRgb s.background),
    ("gamma", (s.gamma.map Json.float).getD .null),
    ("shapes", .array (s.shapes.map Shape.encode))]

/-- The scene as text. -/
def toJson (s : Scene) : String := s.encode.pretty

end Scene

end Raster
