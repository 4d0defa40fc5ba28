import Raster.Pixmap

/- Views of a rectangle.

   A view looks at the buffer of its parent through a frame of its own: the rectangle is
   carried to raw coordinates, the frame starts at the byte that holds its first pixel
   and keeps stride, type, orientation and gamma of the parent. -/
namespace Raster

namespace Frame

/-- The raw rectangle with origin `x`, `y` and size `w`, `h` lies in the frame. -/
def Includes (f : Frame) (x y : Int) (w h : UInt32) : Prop :=
  0 ≤ x ∧ 0 ≤ y ∧ x + w.toNat ≤ f.width.toNat ∧ y + h.toNat ≤ f.height.toNat

instance (f : Frame) (x y : Int) (w h : UInt32) : Decidable (f.Includes x y w h) :=
  inferInstanceAs (Decidable (_ ∧ _ ∧ _ ∧ _))

/-- The frame of a user rectangle, over a buffer that holds `size` bytes from the start of `f` on. -/
def sub (f : Frame) (size : Nat) (p : Point) (w h : UInt32) : Except Failure Frame := do
  let ((x, y), (rw, rh)) ←
    f.orientation.rawRect f.width f.height p.x.toInt p.y.toInt w h
  if f.Includes x y rw rh then
    let byte ← f.byteOf x.toNat y.toNat
    return { f with
      start := f.start + min byte size
      width := rw
      height := rh
      offset := f.columnBit x.toNat % 8 }
  else refuse (.outsideParent p.x p.y w h f.userWidth f.userHeight)

end Frame

namespace Pixmap

/-- The view of a user rectangle. -/
def view (p : Pixmap) (corner : Point) (w h : UInt32) : Except Failure Pixmap := do
  return { p with toFrame := ← p.toFrame.sub p.size corner w h }

end Pixmap

end Raster
