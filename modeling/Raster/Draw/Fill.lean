import Raster.Draw.Run

/- Filling a whole frame.

   `fill` sets every pixel. Pixels of whole bytes are stamped row by row; smaller ones
   are written eight bits at a time as far as whole bytes go and then one by one; the
   rest is written pixel by pixel. -/
namespace Raster.Frame

/-- The byte that holds the pixel `v` as often as it fits. -/
def fullByte (f : Frame) (v : Pixel) : Nat :=
  (List.range (8 / f.bpp)).foldl (fun acc i => splice acc (f.lowBit (i * f.bpp)) f.bpp v.toNat) 0

/-- Writes `count` times the byte `v` from the start of row `y` on. -/
def stampBytes (f : Frame) (y count v : Nat) (b : Bytes) : Except Fault Bytes := do
  let first ← size64 (y * f.stride)
  if f.start + first + count ≤ b.size then return b.stamp (f.start + first) 1 v count
  else .error .outOfBounds

/-- Writes the pixels of all rows from column `x` on one by one. -/
def fillFrom (f : Frame) (x : Int) (v : Pixel) (b : Bytes) : Except Fault Bytes :=
  forRange 0 (loopEnd f.height.toNat) b fun y b =>
    forRange x (loopEnd f.width.toNat) b fun x b => f.writeRaw (.ofInt x) (.ofInt y) v b

def fill (f : Frame) (v : Pixel) (b : Bytes) : Except Fault Bytes :=
  if f.isEmpty then .ok b
  else if f.isAligned then
    forRange 0 f.height.toNat b fun y b => f.stampRow 0 y.toNat f.width.toNat v b
  else if f.offset = 0 ∧ f.bpp < 8 then do
    let perByte := 8 / f.bpp
    let full := f.width.toNat / perByte
    let byte := f.fullByte v
    let b ← forRange 0 f.height.toNat b fun y b => f.stampBytes y.toNat full byte b
    f.fillFrom (loopEnd (full * perByte)) v b
  else f.fillFrom 0 v b

end Raster.Frame
