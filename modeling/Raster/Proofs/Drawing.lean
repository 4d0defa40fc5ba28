import Raster.Proofs.BufferSize

/- The drawings as data. A `Drawing` is a plain primitive with its arguments but for the
   pixel, a `SoftDrawing` one with partial coverage; `paint` draws it in the coordinates
   of a frame. What holds of every drawing can so be said once, and a run of a program
   can be written down as a list. -/
namespace Raster

inductive Drawing where
  | fill
  | pixel (p : Point)
  /-- A raw point of any size, whatever the space. -/
  | clippedPixel (x y : Int)
  | hline (x0 x1 y : Int32)
  | hlineOf (x y : Int32) (w : UInt32)
  | vline (x y0 y1 : Int32)
  | vlineOf (x y : Int32) (h : UInt32)
  | line (p q : Point)
  | thickLine (p q : Point) (radius : UInt32)
  | rect (p q : Point)
  | rectOf (p : Point) (w h : UInt32)
  | fillRect (p q : Point)
  | fillRectOf (p : Point) (w h : UInt32)
  | circle (center : Point) (radius : Int32)
  | fillCircle (center : Point) (radius : Int32)
  | circleSegments (center : Point) (radius : Int32) (segments : Quadrants)
  | ellipse (center : Point) (a b : UInt32)
  | fillEllipse (center : Point) (a b : UInt32)
  | triangle (p q r : Point)
  | fillTriangle (p q r : Point)
  | polygon (points : List Point)
  | fillPolygon (points : List Point)

/-- A drawing between positions with eight fraction bits. -/
inductive SoftDrawing where
  | point (x y : Int64)
  | hline (x0 x1 y : Int64)
  | vline (x y0 y1 : Int64)
  | line (x0 y0 x1 y1 : Int64)
  | rect (x0 y0 x1 y1 : Int64)
  | rectOf (x y w h : Int64)

namespace Drawing

def paint (d : Drawing) (v : Pixel) (f : Frame) (b : Bytes) : Except Fault Bytes :=
  match d with
  | fill => f.fill v b
  | pixel p => f.write p v b
  | clippedPixel x y => f.writeClipped x y v b
  | hline x0 x1 y => f.hline x0 x1 y v b
  | hlineOf x y w => f.hlineOf x y w v b
  | vline x y0 y1 => f.vline x y0 y1 v b
  | vlineOf x y h => f.vlineOf x y h v b
  | line p q => f.line p q v b
  | thickLine p q r => f.thickLine p q r v b
  | rect p q => f.rect p q v b
  | rectOf p w h => f.rectOf p w h v b
  | fillRect p q => f.fillRect p q v b
  | fillRectOf p w h => f.fillRectOf p w h v b
  | circle c r => f.circle c r v b
  | fillCircle c r => f.fillCircle c r v b
  | circleSegments c r q => f.circleSegments c r q v b
  | ellipse c s t => f.ellipse c s t v b
  | fillEllipse c s t => f.fillEllipse c s t v b
  | triangle p q r => f.triangle p q r v b
  | fillTriangle p q r => f.fillTriangle p q r v b
  | polygon ps => f.polygon ps v b
  | fillPolygon ps => f.fillPolygon ps v b

theorem sized_paint (d : Drawing) (v : Pixel) (f : Frame) {b : Bytes} {n : Nat} (h : b.size = n) :
    Sized n (d.paint v f b) := by
  cases d with
  | fill => exact Frame.sized_fill h ..
  | pixel => exact Frame.sized_write h ..
  | clippedPixel => exact Frame.sized_writeClipped h ..
  | hline => exact Frame.sized_userRow h ..
  | hlineOf => exact Frame.sized_hlineOf h ..
  | vline => exact Frame.sized_userColumn h ..
  | vlineOf => exact Frame.sized_vlineOf h ..
  | line => exact Frame.sized_line h ..
  | thickLine => exact Frame.sized_thickLine h ..
  | rect => exact Frame.sized_byCorners Frame.sized_border h ..
  | rectOf => exact Frame.sized_rectOf h ..
  | fillRect => exact Frame.sized_byCorners Frame.sized_box h ..
  | fillRectOf => exact Frame.sized_fillRectOf h ..
  | circle => exact Ensures.bind_any (fun _ => Frame.sized_arcs h ..)
  | fillCircle => exact Ensures.bind_any (fun _ => Frame.sized_disc h ..)
  | circleSegments => exact Ensures.bind_any (fun _ => Frame.sized_arcs h ..)
  | ellipse => exact Frame.sized_ellipse h ..
  | fillEllipse => exact Frame.sized_fillEllipse h ..
  | triangle => exact Frame.sized_polygon h ..
  | fillTriangle => exact Frame.sized_fillPolygon h ..
  | polygon => exact Frame.sized_polygon h ..
  | fillPolygon => exact Frame.sized_fillPolygon h ..

end Drawing

namespace SoftDrawing

def paint (d : SoftDrawing) (v : Pixel) (f : Frame) (b : Bytes) : Except Fault Bytes :=
  match d with
  | point x y => f.softPoint x y v b
  | hline x0 x1 y => f.softHline x0 x1 y v b
  | vline x y0 y1 => f.softVline x y0 y1 v b
  | line x0 y0 x1 y1 => f.softLine x0 y0 x1 y1 v b
  | rect x0 y0 x1 y1 => f.softRect x0 y0 x1 y1 v b
  | rectOf x y w h => f.softRectOf x y w h v b

theorem sized_paint (d : SoftDrawing) (v : Pixel) (f : Frame) {b : Bytes} {n : Nat}
    (h : b.size = n) : Sized n (d.paint v f b) := by
  cases d with
  | point => exact Frame.sized_softPoint h ..
  | hline => exact Frame.sized_softHline h ..
  | vline => exact Frame.sized_softVline h ..
  | line => exact Frame.sized_softLine h ..
  | rect => exact Frame.sized_softRectAt h ..
  | rectOf => exact Frame.sized_softRectOf h ..

end SoftDrawing

end Raster
