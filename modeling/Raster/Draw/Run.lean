import Raster.Frame

/- Runs of pixels.

   `spanRow` and `spanColumn` set the pixels of a raw row or column between two ends,
   in either order, as far as they lie in the frame. `hline` and `vline` do so in user
   coordinates. Where pixels are whole bytes a row is stamped at once. -/
namespace Raster.Frame

/-- The size `n` as a 32-bit integer, the bound of loops that address pixels one by one. -/
def loopEnd (n : Nat) : Int := (Int32.ofNat n).toInt

/-- Stamps `count` pixels of whole bytes from raw column `x` of row `y` on. -/
def stampRow (f : Frame) (x y count : Nat) (v : Pixel) (b : Bytes) : Except Fault Bytes := do
  let size := f.bpp / 8
  let first ← size64 (y * f.stride + x * size)
  if f.start + first + count * size ≤ b.size then
    return b.stamp (f.start + first) size v.toNat count
  else .error .outOfBounds

/-- Sets the pixels of raw row `y` from `x0` to `x1`, both included. -/
def spanRow (f : Frame) (x0 x1 y : Int) (v : Pixel) (b : Bytes) : Except Fault Bytes :=
  if y < 0 ∨ f.height.toNat ≤ y then .ok b
  else
    let first := max (min x0 x1) 0
    let last := min (max x0 x1) (f.width.toNat - 1)
    if last < first then .ok b
    else if f.isAligned then
      f.stampRow first.toNat y.toNat (last - first + 1).toNat v b
    else
      forRange first (last + 1) b fun x b => f.writeRaw (.ofInt x) (.ofInt y) v b

/-- Sets the pixels of raw column `x` from `y0` to `y1`, both included. -/
def spanColumn (f : Frame) (x y0 y1 : Int) (v : Pixel) (b : Bytes) : Except Fault Bytes :=
  if x < 0 ∨ f.width.toNat ≤ x then .ok b
  else
    let first := max (min y0 y1) 0
    let last := min (max y0 y1) (f.height.toNat - 1)
    forRange first (last + 1) b fun y b => f.writeRaw (.ofInt x) (.ofInt y) v b

/-- Sets the pixels of user row `y` from `x0` to `x1`, a column of the buffer where the axes are
swapped. -/
def userRow (f : Frame) (x0 x1 y : Int) (v : Pixel) (b : Bytes) : Except Fault Bytes := do
  let p ← f.rawPoint x0 y
  let q ← f.rawPoint x1 y
  if f.orientation.swapAxes then f.spanColumn p.1 p.2 q.2 v b
  else f.spanRow p.1 q.1 p.2 v b

/-- Sets the pixels of user column `x` from `y0` to `y1`. -/
def userColumn (f : Frame) (x y0 y1 : Int) (v : Pixel) (b : Bytes) : Except Fault Bytes := do
  let p ← f.rawPoint x y0
  let q ← f.rawPoint x y1
  if f.orientation.swapAxes then f.spanRow p.1 q.1 p.2 v b
  else f.spanColumn p.1 p.2 q.2 v b

/-- The horizontal line from `x0` to `x1`, both included. -/
def hline (f : Frame) (x0 x1 y : Int32) (v : Pixel) (b : Bytes) : Except Fault Bytes :=
  f.userRow x0.toInt x1.toInt y.toInt v b

/-- The horizontal line of `w` pixels from `x` on. -/
def hlineOf (f : Frame) (x y : Int32) (w : UInt32) (v : Pixel) (b : Bytes) : Except Fault Bytes :=
  if w = 0 then .ok b else f.userRow x.toInt (x.toInt + w.toNat - 1) y.toInt v b

/-- The vertical line from `y0` to `y1`, both included. -/
def vline (f : Frame) (x y0 y1 : Int32) (v : Pixel) (b : Bytes) : Except Fault Bytes :=
  f.userColumn x.toInt y0.toInt y1.toInt v b

/-- The vertical line of `h` pixels from `y` on. -/
def vlineOf (f : Frame) (x y : Int32) (h : UInt32) (v : Pixel) (b : Bytes) : Except Fault Bytes :=
  if h = 0 then .ok b else f.userColumn x.toInt y.toInt (y.toInt + h.toNat - 1) v b

end Raster.Frame
