import Raster.Proofs.Drawing
import Raster.Proofs.EllipseShape

/- Ellipses on turned pixmaps. The half axes are exchanged with the axes, but the walk goes
   down the rows of the buffer, which are then columns of the user: a turned ellipse is the
   transpose of the ellipse with exchanged half axes. The two differ in some points, because
   the size of the curve is increased by the half width but not by the half height. So what
   the user sees depends on the orientation just in these points (`ellipse_upright_iff`). -/
namespace Raster

/-- The ellipse around a point, filled or not. -/
def Drawing.oval (filled : Bool) (center : Point) (a b : UInt32) : Drawing :=
  if filled then .fillEllipse center a b else .ellipse center a b

namespace Frame
variable {f : Frame} {bytes : Bytes}

theorem Addressable.oval_paints (hf : f.Addressable bytes.size) (filled : Bool) (c : Point)
    (a b : UInt32) (v : Pixel) :
    Yields ((Drawing.oval filled c a b).paint v f bytes)
      (f.Paints (fun x y => Ellipse filled (f.rawAxes a b).1.toNat (f.rawAxes a b).2.toNat
        (x - (f.toRaw c.x.toInt c.y.toInt).1).natAbs (y - (f.toRaw c.x.toInt c.y.toInt).2).natAbs)
        (fun _ _ => f.stored v) bytes) := by
  have hwalk := hf.walkEllipse_paints filled v (f.toRaw c.x.toInt c.y.toInt).1
    (f.toRaw c.x.toInt c.y.toInt).2 (UInt32.toNat_lt (f.rawAxes a b).1).le
    (UInt32.toNat_lt (f.rawAxes a b).2).le
  cases filled with
  | true =>
    show Yields (f.fillEllipse c a b v bytes) _
    rw [fillEllipse, rawPoint_point, ok_bind]
    exact hwalk
  | false =>
    show Yields (f.ellipse c a b v bytes) _
    rw [ellipse, rawPoint_point, ok_bind]
    exact hwalk

end Frame

namespace Pixmap

/-- The pixmap `q` has no orientation and shows what the user sees of `p`. -/
structure Upright (p q : Pixmap) : Prop where
  orientation : q.orientation = .identity
  pixelType : q.pixelType = p.pixelType
  width : q.userWidth = p.userWidth
  height : q.userHeight = p.userHeight
  get : ∀ t, q.get t = p.get t

/-- The user point `t` is painted by an ellipse around `c`. -/
def InOval (p : Pixmap) (filled : Bool) (c : Point) (a b : UInt32) (t : Point) : Prop :=
  if p.orientation.swapAxes then
    Ellipse filled b.toNat a.toNat (t.y.toInt - c.y.toInt).natAbs (t.x.toInt - c.x.toInt).natAbs
  else
    Ellipse filled a.toNat b.toNat (t.x.toInt - c.x.toInt).natAbs (t.y.toInt - c.y.toInt).natAbs

instance (p : Pixmap) (filled : Bool) (c : Point) (a b : UInt32) (t : Point) :
    Decidable (p.InOval filled c a b t) := by
  unfold InOval; infer_instance

/-- An ellipse is always drawn, and sets the points of the user that it covers. -/
theorem Addressable.draw_oval {p : Pixmap} (hp : p.Addressable) (filled : Bool) (c : Point)
    (a b : UInt32) (v : Pixel) :
    ∃ p', p.draw .user ((Drawing.oval filled c a b).paint v) = .ok p' ∧
      ∀ t, p'.get t = if p.ContainsUser t.x.toInt t.y.toInt ∧ p.InOval filled c a b t then
        .ok (UInt32.ofNat (p.stored v)) else p.get t := by
  obtain ⟨bytes, hdraw, hpaint⟩ := Frame.Addressable.oval_paints hp filled c a b v
  refine ⟨{ p with bytes := bytes }, p.draw_ok hdraw, fun t => ?_⟩
  have hshape : Ellipse filled (p.rawAxes a b).1.toNat (p.rawAxes a b).2.toNat
      ((p.toRaw t.x.toInt t.y.toInt).1 - (p.toRaw c.x.toInt c.y.toInt).1).natAbs
      ((p.toRaw t.x.toInt t.y.toInt).2 - (p.toRaw c.x.toInt c.y.toInt).2).natAbs ↔
        p.InOval filled c a b t := by
    obtain ⟨hx, hy⟩ := p.natAbs_toRaw_sub t.x.toInt t.y.toInt c.x.toInt c.y.toInt
    rw [hx, hy]
    unfold InOval Frame.rawAxes Orientation.exchange
    split <;> rfl
  split
  · rename_i hin
    exact hp.get_painted hpaint hin.1 (hshape.2 hin.2)
  · rename_i hout
    exact hp.get_unpainted hpaint (fun ht hin => hout ⟨ht, hshape.1 hin⟩)

/-- Seen by the user, an ellipse on a turned pixmap agrees with the one on an upright pixmap but for
points that one of them covers and the other does not, unless these have its value already. -/
theorem ellipse_upright_iff {p q : Pixmap} (hp : p.Addressable) (hq : q.Addressable)
    (h : p.Upright q) (filled : Bool) (c : Point) (a b : UInt32) (v : Pixel) :
    ∃ p' q', p.draw .user ((Drawing.oval filled c a b).paint v) = .ok p' ∧
      q.draw .user ((Drawing.oval filled c a b).paint v) = .ok q' ∧
      ((∀ t, p'.get t = q'.get t) ↔ (p.orientation.swapAxes = true →
        ∀ t, p.ContainsUser t.x.toInt t.y.toInt →
          ¬ (p.InOval filled c a b t ↔ q.InOval filled c a b t) →
            p.get t = .ok (UInt32.ofNat (p.stored v)))) := by
  obtain ⟨p', hdraw, hget⟩ := hp.draw_oval filled c a b v
  obtain ⟨q', hdraw', hget'⟩ := hq.draw_oval filled c a b v
  refine ⟨p', q', hdraw, hdraw', ?_⟩
  have hframe : ∀ t : Point, q.ContainsUser t.x.toInt t.y.toInt ↔ p.ContainsUser t.x.toInt t.y.toInt := by
    intro t
    simp only [Frame.ContainsUser, h.width, h.height]
  have hstored : q.stored v = p.stored v := by
    simp only [Frame.stored, Frame.bpp, h.pixelType]
  have hpoint : ∀ t, p'.get t = q'.get t ↔ (p.ContainsUser t.x.toInt t.y.toInt →
      ¬ (p.InOval filled c a b t ↔ q.InOval filled c a b t) →
        p.get t = .ok (UInt32.ofNat (p.stored v))) := by
    intro t
    simp only [hget, hget', hframe, hstored, h.get]
    by_cases ht : p.ContainsUser t.x.toInt t.y.toInt <;>
      by_cases hin : p.InOval filled c a b t <;> by_cases hin' : q.InOval filled c a b t <;>
        simp [ht, hin, hin', eq_comm]
  simp only [hpoint]
  constructor
  · exact fun hall _ => hall
  · intro hall t ht hne
    by_cases hswap : p.orientation.swapAxes = true
    · exact hall hswap t ht hne
    · -- without swapped axes both shapes are the same
      refine absurd ?_ hne
      have hturn : q.orientation.swapAxes = false := by rw [h.orientation]; rfl
      simp only [InOval, hturn, hswap]

/-- The ellipse with half axes 3 and 1 on 3 by 7 pixels that are turned by a quarter. -/
theorem ellipse_upright_turned : ∃ p q : Pixmap, p.Addressable ∧ q.Addressable ∧ p.Upright q ∧
    ∃ p' q', p.draw .user ((Drawing.oval false ⟨3, 1⟩ 3 1).paint 1) = .ok p' ∧
      q.draw .user ((Drawing.oval false ⟨3, 1⟩ 3 1).paint 1) = .ok q' ∧
      ¬ ∀ t, p'.get t = q'.get t := by
  let p : Pixmap := ⟨⟨0, 3, 7, 3, 0, .g8, .rotated .identity .quarterTurn, none⟩, Array.replicate 21 0⟩
  let q : Pixmap := ⟨⟨0, 7, 3, 7, 0, .g8, .identity, none⟩, Array.replicate 21 0⟩
  have hp : p.Addressable := by
    refine ⟨⟨?_, ?_, ?_, ?_, ?_, ?_, ?_⟩, ?_, ?_⟩ <;> decide
  have hq : q.Addressable := by
    refine ⟨⟨?_, ?_, ?_, ?_, ?_, ?_, ?_⟩, ?_, ?_⟩ <;> decide
  have hupright : p.Upright q := by
    refine ⟨rfl, rfl, rfl, rfl, fun t => ?_⟩
    have hblank : ∀ x : Nat, x < 7 → ∀ y : Nat, y < 3 →
        q.userPixel q.bytes x y = p.userPixel p.bytes x y := by decide
    have hframe : q.ContainsUser t.x.toInt t.y.toInt ↔ p.ContainsUser t.x.toInt t.y.toInt := Iff.rfl
    rw [hq.get_eq, hp.get_eq]
    by_cases ht : p.ContainsUser t.x.toInt t.y.toInt
    · obtain ⟨hx, hy, hw, hh⟩ := id ht
      change t.x.toInt < 7 at hw
      change t.y.toInt < 3 at hh
      have hpixel := hblank t.x.toInt.toNat (by omega) t.y.toInt.toNat (by omega)
      rw [Int.toNat_of_nonneg hx, Int.toNat_of_nonneg hy] at hpixel
      rw [if_pos ht, if_pos (hframe.2 ht), hpixel]
    · rw [if_neg ht, if_neg (fun h => ht (hframe.1 h))]
  obtain ⟨p', q', hdraw, hdraw', hiff⟩ := ellipse_upright_iff hp hq hupright false ⟨3, 1⟩ 3 1 1
  refine ⟨p, q, hp, hq, hupright, p', q', hdraw, hdraw', fun hall => ?_⟩
  have hset := hiff.1 hall rfl ⟨1, 0⟩ (by decide) (by decide)
  exact absurd hset (by decide)

end Pixmap

end Raster
