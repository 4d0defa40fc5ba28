import Raster.Frame
import Raster.Quotient

/- Drawing with partial coverage.

   Coordinates are fixed point numbers with eight fraction bits; pixel `i` is the unit
   box around `i`. A pixel of which an area covers a part is mixed by that part, and one
   that is not covered is left alone. A slanted line shares each step along its longer
   axis between the two pixels nearest to it on the other axis. -/
namespace Raster

namespace Fixed

/-- The pixel that holds `v`. -/
def pixelOf (v : Int) : Except Fault Int := return floor (← Bounds.int64.check (v + half))

/-- The length of the range from `a` to `b` inside pixel `i`. -/
def overlap (a b i : Int) : Except Fault Int := do
  let lo ← Bounds.int64.check (ofInt i - half)
  let hi ← Bounds.int64.check (lo + one)
  let d ← Bounds.int64.check (min b hi - max a lo)
  return max d 0

/-- The weight in 255 parts of a pixel covered by two lengths. -/
def coverageWeight (cx cy : Int) : UInt8 := UInt8.ofNat (min (cx * cy / 256) 255).toNat

end Fixed

namespace Frame
open Bounds Fixed

/-- Mixes a pixel into the one at a raw point, if it has weight and lies in the frame. -/
def mixRaw (f : Frame) (x y : Int) (v : Pixel) (weight : UInt8) (b : Bytes) :
    Except Fault Bytes :=
  if weight = 0 ∨ ¬ f.Contains x y then .ok b
  else do
    let old ← f.readRaw (.ofInt x) (.ofInt y) b
    f.writeRaw (.ofInt x) (.ofInt y) (mix f.pixelType f.gamma v old weight) b

/-- Mixes the pixels of row `y` in the columns `first` to `last` by the share of them that lies
between `x0` and `x1`, times `cy`. -/
def mixRow (f : Frame) (x0 x1 first last cy y : Int) (v : Pixel) (b : Bytes) :
    Except Fault Bytes :=
  forRange first (last + 1) b fun x b => do
    f.mixRaw x y v (coverageWeight (← overlap x0 x1 x) cy) b

/-- Mixes every pixel by the part of it between the raw positions `x0`, `y0` and `x1`, `y1`. -/
def area (f : Frame) (x0 y0 x1 y1 : Int) (v : Pixel) (b : Bytes) : Except Fault Bytes := do
  let (x0, x1) := (min x0 x1, max x0 x1)
  let (y0, y1) := (min y0 y1, max y0 y1)
  let firstX := max (← pixelOf x0) 0
  let lastX := min (← pixelOf x1) (f.width.toNat - 1)
  let firstY := max (← pixelOf y0) 0
  let lastY := min (← pixelOf y1) (f.height.toNat - 1)
  forRange firstY (lastY + 1) b fun y b => do
    let cy ← overlap y0 y1 y
    if cy = 0 then return b else f.mixRow x0 x1 firstX lastX cy y v b

/-- Mixes the pixel at a major and a minor raw coordinate; `steep` makes rows the major ones. -/
def mixAlong (f : Frame) (steep : Bool) (major minor : Int) (v : Pixel) (weight : UInt8)
    (b : Bytes) : Except Fault Bytes :=
  if steep then f.mixRaw minor major v weight b else f.mixRaw major minor v weight b

/-- A slanted line by its ends in major and minor fixed point coordinates. -/
structure Slant where
  steep : Bool
  major0 : Int
  minor0 : Int
  major1 : Int
  minor1 : Int
  deriving DecidableEq, Repr

namespace Slant

/-- The absolute value of `v`, which has to fit as well. -/
def magnitude (v : Int) : Except Fault Int := do int64.check (← int64.check v).natAbs

/-- The line along its longer axis, columns if both are equally long, with ascending major ends. -/
def between (x0 y0 x1 y1 : Int) : Except Fault Slant := do
  let h ← magnitude (y1 - y0)
  let w ← magnitude (x1 - x0)
  return if w < h then
    if y1 < y0 then ⟨true, y1, x1, y0, x0⟩ else ⟨true, y0, x0, y1, x1⟩
  else
    if x1 < x0 then ⟨false, x1, y1, x0, y0⟩ else ⟨false, x0, y0, x1, y1⟩

/-- The minor position of the line at the center of pixel `i` along the major axis. -/
def minorAt (s : Slant) (length rise i : Int) : Except Fault Int := do
  let n ← int128.check ((← int64.check (ofInt i - s.major0)) * rise)
  return wrap64 (← int128.check (s.minor0 + (← roundQuotient n length)))

/-- Mixes the two pixels beside the line at step `i` of the major axis. -/
def mixStep (f : Frame) (s : Slant) (length rise : Int) (minorSize : Nat) (v : Pixel) (i : Int)
    (b : Bytes) : Except Fault Bytes := do
  let cover ← overlap s.major0 s.major1 i
  if cover = 0 then return b
  let m ← s.minorAt length rise i
  let j := floor m
  if j < -1 ∨ minorSize ≤ j then return b
  let rest ← int64.check (m - ofInt j)
  let b ← f.mixAlong s.steep i j v (coverageWeight cover (one - rest)) b
  f.mixAlong s.steep i (j + 1) v (coverageWeight cover rest) b

end Slant

/-- The line between two raw positions; one without length draws nothing. -/
def slant (f : Frame) (x0 y0 x1 y1 : Int) (v : Pixel) (b : Bytes) : Except Fault Bytes := do
  let s ← Slant.between x0 y0 x1 y1
  let length ← int64.check (s.major1 - s.major0)
  let rise ← int64.check (s.minor1 - s.minor0)
  if length = 0 then return b
  let (majorSize, minorSize) :=
    if s.steep then (f.height.toNat, f.width.toNat) else (f.width.toNat, f.height.toNat)
  let first := max (← pixelOf s.major0) 0
  let last := min (← pixelOf s.major1) (majorSize - 1)
  forRange first (last + 1) b (s.mixStep f length rise minorSize v)

/-- The raw position of a user position. -/
def rawFixedPoint (f : Frame) (x y : Int) : Except Fault (Int × Int) :=
  f.orientation.rawFixedPoint f.width f.height x y

/-- The row of unit height around `y` from `x0` to `x1`, at raw positions. -/
def softRow (f : Frame) (x0 x1 y : Int) (v : Pixel) (b : Bytes) : Except Fault Bytes := do
  f.area x0 (← int64.check (y - half)) x1 (← int64.check (y + half)) v b

/-- The column of unit width around `x` from `y0` to `y1`, at raw positions. -/
def softColumn (f : Frame) (x y0 y1 : Int) (v : Pixel) (b : Bytes) : Except Fault Bytes := do
  f.area (← int64.check (x - half)) y0 (← int64.check (x + half)) y1 v b

/-- The box between two raw positions, widened by half a unit on every side. -/
def softBox (f : Frame) (x0 y0 x1 y1 : Int) (v : Pixel) (b : Bytes) : Except Fault Bytes := do
  f.area (← int64.check (min x0 x1 - half)) (← int64.check (min y0 y1 - half))
    (← int64.check (max x0 x1 + half)) (← int64.check (max y0 y1 + half)) v b

/-- The unit square around a position. -/
def softPoint (f : Frame) (x y : Int64) (v : Pixel) (b : Bytes) : Except Fault Bytes := do
  let (x, y) ← f.rawFixedPoint x.toInt y.toInt
  f.softBox x y x y v b

/-- A horizontal line one unit thick. -/
def softHline (f : Frame) (x0 x1 y : Int64) (v : Pixel) (b : Bytes) : Except Fault Bytes := do
  let p ← f.rawFixedPoint x0.toInt y.toInt
  let q ← f.rawFixedPoint x1.toInt y.toInt
  if f.orientation.swapAxes then f.softColumn p.1 p.2 q.2 v b else f.softRow p.1 q.1 p.2 v b

/-- A vertical line one unit thick. -/
def softVline (f : Frame) (x y0 y1 : Int64) (v : Pixel) (b : Bytes) : Except Fault Bytes := do
  let p ← f.rawFixedPoint x.toInt y0.toInt
  let q ← f.rawFixedPoint x.toInt y1.toInt
  if f.orientation.swapAxes then f.softRow p.1 q.1 p.2 v b else f.softColumn p.1 p.2 q.2 v b

/-- The line between two positions. -/
def softLine (f : Frame) (x0 y0 x1 y1 : Int64) (v : Pixel) (b : Bytes) : Except Fault Bytes := do
  let (x0, y0) ← f.rawFixedPoint x0.toInt y0.toInt
  let (x1, y1) ← f.rawFixedPoint x1.toInt y1.toInt
  f.slant x0 y0 x1 y1 v b

/-- The filled rectangle between two positions, from half a unit before the one to half a unit
after the other. -/
def softRectAt (f : Frame) (x0 y0 x1 y1 : Int) (v : Pixel) (b : Bytes) : Except Fault Bytes := do
  let (x0, y0) ← f.rawFixedPoint x0 y0
  let (x1, y1) ← f.rawFixedPoint x1 y1
  f.softBox x0 y0 x1 y1 v b

def softRect (f : Frame) (x0 y0 x1 y1 : Int64) (v : Pixel) (b : Bytes) : Except Fault Bytes :=
  f.softRectAt x0.toInt y0.toInt x1.toInt y1.toInt v b

/-- The position `size - 1` after `v`. -/
def farEnd (v size : Int) : Except Fault Int := do
  int64.check ((← int64.check (v + size)) - one)

/-- The filled rectangle of some size, nothing if it is empty. -/
def softRectOf (f : Frame) (x y w h : Int64) (v : Pixel) (b : Bytes) : Except Fault Bytes :=
  if w ≤ 0 ∨ h ≤ 0 then .ok b
  else do
    let x1 ← farEnd x.toInt w.toInt
    let y1 ← farEnd y.toInt h.toInt
    f.softRectAt x.toInt y.toInt x1 y1 v b

end Frame

end Raster
