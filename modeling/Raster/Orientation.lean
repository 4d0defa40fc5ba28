import Raster.Fixed

/- Orientations of a pixmap.

   Users address a pixmap in user coordinates; what is stored has raw coordinates. An
   `Orientation` leads from the first to the second: the axes are swapped, then each
   axis may be mirrored within the raw size. -/
namespace Raster

structure Orientation where
  swapAxes : Bool
  mirrorX : Bool
  mirrorY : Bool
  deriving DecidableEq, Repr

/-- Turns and reflections of what the user sees. -/
inductive Symmetry where
  /-- A quarter turn clockwise. -/
  | quarterTurn
  | halfTurn
  /-- A quarter turn against the clock. -/
  | threeQuarterTurn
  /-- Upside down. -/
  | flip
  /-- Left to right. -/
  | mirror
  deriving DecidableEq, Repr

namespace Orientation

/-- User and raw coordinates agree. -/
def identity : Orientation := ⟨false, false, false⟩

/-- The orientation as bits: swapped axes 1, mirrored x 2, mirrored y 4. -/
def bits (o : Orientation) : Nat :=
  o.swapAxes.toNat + 2 * o.mirrorX.toNat + 4 * o.mirrorY.toNat

/-- The orientation of the three low bits of `n`. -/
def ofBits (n : Nat) : Orientation := ⟨n.testBit 0, n.testBit 1, n.testBit 2⟩

/-- The orientation after a symmetry. -/
def rotated (o : Orientation) : Symmetry → Orientation
  | .quarterTurn => ⟨!o.swapAxes, !o.mirrorY, o.mirrorX⟩
  | .threeQuarterTurn => ⟨!o.swapAxes, o.mirrorY, !o.mirrorX⟩
  | .halfTurn => { o with mirrorX := !o.mirrorX, mirrorY := !o.mirrorY }
  | .flip => { o with mirrorY := !o.mirrorY }
  | .mirror => { o with mirrorX := !o.mirrorX }

/-- A pair in the order of the other space. -/
@[inline] def exchange {α : Type} (o : Orientation) (p : α × α) : α × α :=
  if o.swapAxes then (p.2, p.1) else p

/-- The user size of a raw size. -/
def userSize (o : Orientation) (w h : UInt32) : UInt32 × UInt32 := o.exchange (w, h)

/-- `v` counted from the far end `last`, where `on` asks for it. -/
@[inline] def mirrored (on : Bool) (last v : Int) : Except Fault Int :=
  if on then Bounds.int64.check (last - v) else .ok v

/-- The raw point of a user point, in a buffer of raw size `w` and `h`. -/
def rawPoint (o : Orientation) (w h : UInt32) (x y : Int) : Except Fault (Int × Int) := do
  let (x, y) := o.exchange (x, y)
  let x ← mirrored o.mirrorX (w.toNat - 1) x
  let y ← mirrored o.mirrorY (h.toNat - 1) y
  return (x, y)

/-- The user point of a raw point. -/
def userPoint (o : Orientation) (w h : UInt32) (x y : Int) : Except Fault (Int × Int) := do
  let x ← mirrored o.mirrorX (w.toNat - 1) x
  let y ← mirrored o.mirrorY (h.toNat - 1) y
  return o.exchange (x, y)

/-- The raw point of a user point in fixed point coordinates. -/
def rawFixedPoint (o : Orientation) (w h : UInt32) (x y : Int) : Except Fault (Int × Int) := do
  let (x, y) := o.exchange (x, y)
  let x ← mirrored o.mirrorX (Fixed.ofInt (w.toNat - 1)) x
  let y ← mirrored o.mirrorY (Fixed.ofInt (h.toNat - 1)) y
  return (x, y)

/-- Where a run of `size` from `v` on starts when counted from the far end `last`. -/
@[inline] def mirroredRun (on : Bool) (last v size : Int) : Except Fault Int :=
  if on then do Bounds.int64.check ((← Bounds.int64.check (last - v)) - size) else .ok v

/-- The raw origin and size of a user rectangle with origin `x`, `y` and size `rw`, `rh`. -/
def rawRect (o : Orientation) (w h : UInt32) (x y : Int) (rw rh : UInt32) :
    Except Fault ((Int × Int) × (UInt32 × UInt32)) := do
  let (x, y) := o.exchange (x, y)
  let (rw, rh) := o.exchange (rw, rh)
  let x ← mirroredRun o.mirrorX w.toNat x rw.toNat
  let y ← mirroredRun o.mirrorY h.toNat y rh.toNat
  return ((x, y), (rw, rh))

end Orientation

end Raster
