import Raster.Blit

/- Copies, conversions and comparison of whole pixmaps.

   `Pixmap.copy` lays the raw pixels out afresh in a buffer of their own,
   `Pixmap.convert` what the user sees in another pixel type. Two pixmaps are equal if
   the user sees the same pixels of the same type in both. -/
namespace Raster

/-- What a copy takes over. -/
structure CopyParts where
  pixels : Bool
  orientation : Bool
  gamma : Bool
  deriving DecidableEq, Repr

namespace CopyParts

def all : CopyParts := ⟨true, true, true⟩

/-- The parts of the three low bits of `n`. -/
def ofBits (n : Nat) : CopyParts := ⟨n.testBit 0, n.testBit 1, n.testBit 2⟩

end CopyParts

/-- Whether `test` holds for `count` integers from `i` on, asked in order up to the first that
fails. -/
@[specialize] def allCount (test : Int → Except Fault Bool) : Nat → Int → Except Fault Bool
  | 0, _ => .ok true
  | n + 1, i =>
    match test i with
    | .ok true => allCount test n (i + 1)
    | .ok false => .ok false
    | .error e => .error e

namespace Frame

/-- Copies the rows of `src` over the rows of a frame as wide, byte by byte. -/
def takeRows (f : Frame) (src : Pixmap) (b : Bytes) : Except Fault Bytes :=
  forRange 0 src.height.toNat b fun y b => do
    let row ← src.row (.ofNat y.toNat)
    if f.stride ≤ row.size ∧ f.start + y.toNat * f.stride + f.stride ≤ b.size then
      return b.copyRun row (f.start + y.toNat * f.stride) 0 f.stride
    else .error .outOfBounds

/-- Copies the raw pixels of `src` one by one. -/
def takePixels (f : Frame) (src : Pixmap) (b : Bytes) : Except Fault Bytes :=
  forRange 0 (loopEnd src.height.toNat) b fun y b =>
    forRange 0 (loopEnd src.width.toNat) b fun x b => do
      f.writeRaw (.ofInt x) (.ofInt y) (← src.readRaw (.ofInt x) (.ofInt y) src.bytes) b

end Frame

namespace Pixmap

/-- A new pixmap with rows as close as whole bytes allow and the chosen parts of `p`. -/
def copy (p : Pixmap) (parts : CopyParts) : Except Failure Pixmap := do
  let new ← alloc p.width p.height p.pixelType
  let new ←
    if parts.pixels && !p.isEmpty then
      new.draw .raw fun f b => if p.offset = 0 then f.takeRows p b else f.takePixels p b
    else pure new
  return { new with
    orientation := if parts.orientation then p.orientation else new.orientation
    gamma := if parts.gamma then p.gamma else new.gamma }

/-- A new pixmap of another type with what the user sees, in plain orientation. -/
def convert (p : Pixmap) (type : PixelType) : Except Failure Pixmap :=
  if type = p.pixelType ∧ p.orientation = .identity then p.copy ⟨true, false, false⟩
  else do
    let new ← alloc p.userWidth p.userHeight type
    new.blitAll p ⟨0, 0⟩

/-- Clears `d` and copies to its corner what fits of `p`. -/
def convertInto (p d : Pixmap) : Except Fault Pixmap :=
  d.draw .user fun f b => do
    let b ← f.fill 0 b
    f.blitClippedOf p ⟨0, 0⟩ p.userWidth p.userHeight ⟨0, 0⟩ b

/-- The user sees the same pixel at `x`, `y` in both. -/
def agreeAt (p q : Pixmap) (x y : Int) : Except Fault Bool := do
  return (← p.get ⟨.ofInt x, .ofInt y⟩) == (← q.get ⟨.ofInt x, .ofInt y⟩)

/-- The user sees the same in both. -/
def equal (p q : Pixmap) : Except Fault Bool :=
  if p.pixelType ≠ q.pixelType ∨ p.userWidth ≠ q.userWidth ∨ p.userHeight ≠ q.userHeight then
    .ok false
  else
    allCount (fun y => allCount (fun x => p.agreeAt q x y) (Frame.loopEnd p.userWidth.toNat).toNat 0)
      (Frame.loopEnd p.userHeight.toNat).toNat 0

end Pixmap

end Raster
