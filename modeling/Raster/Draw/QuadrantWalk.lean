import Raster.Fault

/- The walk along a quarter of an ellipse.

   A walk goes down the rows `height`, …, `0` of a quadrant. On each row it moves out
   column by column until `across * x ^ 2 + down * y ^ 2` reaches the size of the curve,
   of which it keeps only the excess, adding differences of squares. A `Visitor` sees
   every point of the curve and the half width of every row. -/
namespace Raster

structure QuadrantWalk where
  /-- Where the excess has to stay. -/
  bounds : Bounds
  /-- The weight of squares of columns. -/
  across : Nat
  /-- The weight of squares of rows. -/
  down : Nat
  across_pos : 0 < across

/-- What is done at a point of the curve and at the end of a row. -/
structure Visitor (σ : Type) where
  point : Int → Int → σ → Except Fault σ
  row : Int → Int → σ → Except Fault σ

namespace QuadrantWalk

variable {σ : Type}

/-- Moves out on row `y` from column `x` while the excess is negative. -/
@[specialize] def advance (w : QuadrantWalk) (visit : Visitor σ) (y : Int) (x : Nat)
    (excess : Int) (s : σ) : Except Fault (Nat × Int × σ) :=
  if excess < 0 then
    let gain : Int := w.across * (2 * x + 1)
    if w.bounds.Holds gain ∧ w.bounds.Holds (excess + gain) then
      match visit.point x y s with
      | .ok s => advance w visit y (x + 1) (excess + gain) s
      | .error e => .error e
    else .error .overflow
  else .ok (x, excess, s)
termination_by (-excess).toNat
decreasing_by
  have h : 0 < (w.across : Int) * (2 * x + 1) :=
    Int.mul_pos (by have := w.across_pos; omega) (by omega)
  omega

/-- Walks the rows below `n`, highest first, from column `x` on. -/
@[specialize] def rows (w : QuadrantWalk) (visit : Visitor σ) :
    Nat → Nat → Int → σ → Except Fault σ
  | 0, _, _, s => .ok s
  | y + 1, x, excess, s => do
    let (x, excess, s) ← w.advance visit y x excess s
    let loss ← w.bounds.check (w.down * (1 - 2 * y))
    let excess ← w.bounds.check (excess + loss)
    let s ← visit.point (x - 1) y s
    let s ← visit.row (x - 1) y s
    rows w visit y x excess s

/-- The whole walk from row `height` down, with the excess at its first point. -/
@[inline] def run (w : QuadrantWalk) (visit : Visitor σ) (height : Nat) (excess : Int) (s : σ) :
    Except Fault σ :=
  w.rows visit (height + 1) 0 excess s

end QuadrantWalk

end Raster
