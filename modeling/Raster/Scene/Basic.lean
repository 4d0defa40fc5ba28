import Raster.Frame
import Raster.PixelType.Color

/- Scenes.

   A scene is a canvas and the shapes that are drawn on it one after another, with
   colours that do not depend on the pixel type. -/
namespace Raster

/-- Something to draw. -/
inductive Shape where
  | line (start stop : Point) (color : Rgb)
  | thickLine (start stop : Point) (radius : UInt32) (color : Rgb)
  | rect (start stop : Point) (color : Rgb)
  | fillRect (start stop : Point) (color : Rgb)
  | circle (center : Point) (radius : Int32) (color : Rgb)
  | fillCircle (center : Point) (radius : Int32) (color : Rgb)
  /-- The low four bits of `segments` choose quadrants. -/
  | circleSegments (center : Point) (radius : Int32) (segments : UInt8) (color : Rgb)
  | ellipse (center : Point) (a b : UInt32) (color : Rgb)
  | fillEllipse (center : Point) (a b : UInt32) (color : Rgb)
  | triangle (p q r : Point) (fill : Bool) (color : Rgb)
  | polygon (points : List Point) (fill : Bool) (color : Rgb)
  /-- A line with partial coverage, between positions in pixels. -/
  | softLine (x0 y0 x1 y1 : Float32) (color : Rgb)
  /-- A square of two colours in cells, with its corner at a point. -/
  | checker (corner : Point) (size cell : UInt32) (even odd : Rgb)
  deriving DecidableEq

structure Scene where
  name : String
  width : UInt32
  height : UInt32
  pixelType : PixelType
  background : Rgb
  gamma : Option Float32
  shapes : List Shape
  deriving DecidableEq

namespace Scene

/-- A scene without shapes on a black canvas. -/
def empty (name : String) (width height : UInt32) : Scene :=
  ⟨name, width, height, .rgb888, ⟨0, 0, 0⟩, none, []⟩

def addShapes (s : Scene) (shapes : List Shape) : Scene := { s with shapes := s.shapes ++ shapes }

end Scene

end Raster
