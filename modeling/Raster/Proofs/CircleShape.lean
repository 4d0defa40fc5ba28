import Mathlib.Tactic.Linarith
import Mathlib.Tactic.Tauto
import Raster.Proofs.Colouring
import Raster.Proofs.CurveShape

/- The shape of a circle. The points inside the walk along a circle are those of `Disc`,
   the border of the walk is `Rim`: a point inside with a neighbour outside. Both sets are
   the same after an exchange of the axes and after mirroring, and chosen quadrants move
   with the axes (`selects_toRaw`). So outline, quadrants and filled circle look alike in
   every orientation (`circle_colours`). -/
namespace Raster

/-- The offset lies nearer to the center than half way from distance `r` to the next one. -/
def Disc (r : Nat) (dx dy : Int) : Prop := dx * dx + dy * dy < r * r + r

instance (r : Nat) (dx dy : Int) : Decidable (Disc r dx dy) := inferInstanceAs (Decidable (_ < _))

/-- The offset lies in the disc, and one of its four neighbours does not. -/
def Rim (r : Nat) (dx dy : Int) : Prop :=
  Disc r dx dy ∧
    ¬ (Disc r (dx + 1) dy ∧ Disc r (dx - 1) dy ∧ Disc r dx (dy + 1) ∧ Disc r dx (dy - 1))

instance (r : Nat) (dx dy : Int) : Decidable (Rim r dx dy) := inferInstanceAs (Decidable (_ ∧ _))

theorem disc_comm (r : Nat) (dx dy : Int) : Disc r dx dy ↔ Disc r dy dx := by
  unfold Disc
  rw [Int.add_comm]

theorem rim_comm (r : Nat) (dx dy : Int) : Rim r dx dy ↔ Rim r dy dx := by
  simp only [Rim, disc_comm r dx, disc_comm r (dx + 1), disc_comm r (dx - 1)]
  tauto

/-- The disc is no wider than its radius. -/
theorem Disc.natAbs_le {r : Nat} {dx dy : Int} (h : Disc r dx dy) : dx.natAbs ≤ r ∧ dy.natAbs ≤ r := by
  have hle : ∀ dx dy : Int, Disc r dx dy → dx.natAbs ≤ r := by
    intro dx dy h
    by_contra hr
    have hsquare : ((r : Int) + 1) * (r + 1) ≤ dx * dx := by
      rw [← Int.natAbs_mul_self' dx]
      exact Int.mul_le_mul (by omega) (by omega) (by omega) (by omega)
    have hy := mul_self_nonneg dy
    unfold Disc at h
    linarith
  exact ⟨hle dx dy h, hle dy dx ((disc_comm r dx dy).1 h)⟩

/-! Quadrants in the buffer. -/

namespace Quadrants
variable (q : Quadrants) (dx dy : Int)

theorem selects_transpose : q.transpose.Selects dy dx ↔ q.Selects dx dy := by
  simp only [Selects, transpose]
  tauto

theorem selects_mirrorX : q.mirrorX.Selects (-dx) dy ↔ q.Selects dx dy := by
  simp only [Selects, mirrorX, Int.neg_nonneg, Int.neg_nonpos_iff]
  tauto

theorem selects_mirrorY : q.mirrorY.Selects dx (-dy) ↔ q.Selects dx dy := by
  simp only [Selects, mirrorY, Int.neg_nonneg, Int.neg_nonpos_iff]
  tauto

end Quadrants

namespace Frame
variable {f : Frame} {b : Bytes}

/-- Raw quadrants select the raw offsets of the user offsets that user quadrants select. -/
theorem selects_toRaw (f : Frame) (q : Quadrants) (x y x' y' : Int) :
    (q.raw f.orientation).Selects ((f.toRaw x y).1 - (f.toRaw x' y').1)
      ((f.toRaw x y).2 - (f.toRaw x' y').2) ↔ q.Selects (x - x') (y - y') := by
  have hturn : ∀ last v v' : Int, last - v - (last - v') = -(v - v') := fun last v v' => by omega
  unfold toRaw
  obtain ⟨swap, mx, my⟩ := f.orientation
  cases swap <;> cases mx <;> cases my <;>
    simp only [Quadrants.raw, Orientation.toRaw, Orientation.reflect, Orientation.exchange,
      Bool.false_eq_true, if_false, if_true, hturn, Quadrants.selects_transpose,
      Quadrants.selects_mirrorX, Quadrants.selects_mirrorY]

theorem inside_circleWalk (r : Nat) (dx dy : Int) :
    circleWalk.Inside r r dx.natAbs dy.natAbs ↔ Disc r dx dy := by
  have hexcess : circleWalk.excessAt r dx.natAbs dy.natAbs < 0 ↔ Disc r dx dy := by
    simp only [QuadrantWalk.excessAt, circleWalk, Disc, Int.natAbs_mul_self', Nat.cast_one, one_mul]
    constructor <;> intro h <;> linarith
  exact ⟨fun h => hexcess.1 h.2, fun h => ⟨h.natAbs_le.2, hexcess.2 h⟩⟩

/-- Of the neighbours in a row the outer one is the first to lie outside. -/
theorem inside_outward (r : Nat) (dx dy : Int) :
    circleWalk.Inside r r (dx.natAbs + 1) dy.natAbs ↔ Disc r (dx + 1) dy ∧ Disc r (dx - 1) dy := by
  have hout := inside_circleWalk r (dx.natAbs + 1) dy
  rw [show ((dx.natAbs : Int) + 1).natAbs = dx.natAbs + 1 by omega] at hout
  rw [hout]
  have habs : (dx.natAbs : Int) = dx ∨ (dx.natAbs : Int) = -dx := by omega
  have hpos : (0 : Int) ≤ dx.natAbs := Int.natCast_nonneg _
  unfold Disc
  rcases habs with h | h <;> rw [h] at hpos ⊢
  · exact ⟨fun hin => ⟨hin, by linarith⟩, fun hin => hin.1⟩
  · exact ⟨fun hin => ⟨by linarith, by linarith⟩, fun hin => by linarith [hin.2]⟩

theorem border_circleWalk (r : Nat) (dx dy : Int) :
    circleWalk.Border r r dx.natAbs dy.natAbs ↔ Rim r dx dy := by
  have hcolumn : circleWalk.Inside r r dx.natAbs (dy.natAbs + 1) ↔
      Disc r dx (dy + 1) ∧ Disc r dx (dy - 1) := by
    have hrow := inside_outward r dy dx
    rw [disc_comm r (dy + 1), disc_comm r (dy - 1)] at hrow
    rw [← hrow]
    have hswap := inside_circleWalk r dx (dy.natAbs + 1)
    have hswap' := inside_circleWalk r (dy.natAbs + 1) dx
    rw [show ((dy.natAbs : Int) + 1).natAbs = dy.natAbs + 1 by omega] at hswap hswap'
    rw [hswap, hswap', disc_comm]
  rw [QuadrantWalk.Border, inside_circleWalk, inside_outward, hcolumn, Rim, and_assoc]

/-! Painting around a raw center. -/

section Addressable
variable (hf : f.Addressable b.size) (xc yc : Int) {r : Nat} (hr : r ≤ 2 ^ 31) (v : Pixel)

theorem not_disc_of_misses (hmiss : f.misses xc yc r r = true) {x y : Int} (hxy : f.Contains x y) :
    ¬ Disc r (x - xc) (y - yc) := by
  intro hin
  obtain ⟨hx, hy⟩ := hin.natAbs_le
  obtain ⟨h₀, h₁, h₂, h₃⟩ := hxy
  simp only [misses, Bool.or_eq_true, decide_eq_true_eq] at hmiss
  omega

theorem circleWalk_start (r : Nat) : -(r : Int) = circleWalk.excessAt r 0 r := by
  simp only [QuadrantWalk.excessAt, circleWalk]
  ring

include hf hr

theorem Addressable.arcs_paints (hr₀ : r ≠ 0) (q : Quadrants) :
    Yields (f.arcs q xc yc r v b)
      (f.Paints (fun x y => Rim r (x - xc) (y - yc) ∧ q.Selects (x - xc) (y - yc))
        (fun _ _ => f.stored v) b) := by
  unfold arcs
  by_cases hempty : q.isEmpty = true
  · rw [if_pos hempty]
    simp only [Quadrants.isEmpty, Bool.not_eq_eq_eq_not, Bool.not_true, Bool.or_eq_false_iff] at hempty
    refine Yields.ok (Paints.none (fun x y _ hin => ?_))
    simp [Quadrants.Selects, hempty] at hin
  rw [if_neg hempty, if_neg hr₀]
  by_cases hmiss : f.misses xc yc r r = true
  · rw [if_pos hmiss]
    exact Yields.ok (Paints.none (fun x y hxy hin => not_disc_of_misses xc yc hmiss hxy hin.1.1))
  · rw [if_neg hmiss]
    apply (hf.outlineVisitor_paints v xc yc (circleWalk_room hr) (by omega) (circleWalk_start r)
      (by omega) q).mono
    intro c hc
    exact hc.area (fun x y _ => and_congr_left (fun _ => border_circleWalk r _ _))

theorem Addressable.disc_paints (hr₀ : r ≠ 0) :
    Yields (f.disc xc yc r v b)
      (f.Paints (fun x y => Disc r (x - xc) (y - yc)) (fun _ _ => f.stored v) b) := by
  unfold disc
  by_cases hmiss : f.misses xc yc r r = true
  · rw [if_pos hmiss]
    exact Yields.ok (Paints.none (fun x y hxy hin => not_disc_of_misses xc yc hmiss hxy hin))
  · rw [if_neg hmiss]
    apply (hf.insideVisitor_paints v xc yc (circleWalk_room hr) (by omega) (circleWalk_start r)
      (by omega)).mono
    intro c hc
    exact hc.area (fun x y _ => inside_circleWalk r _ _)

end Addressable

/-! In user coordinates. -/

theorem disc_toRaw (f : Frame) (r : Nat) (x y x' y' : Int) :
    Disc r ((f.toRaw x y).1 - (f.toRaw x' y').1) ((f.toRaw x y).2 - (f.toRaw x' y').2) ↔
      Disc r (x - x') (y - y') := by
  obtain ⟨hx, hy⟩ := f.natAbs_toRaw_sub x y x' y'
  rw [← inside_circleWalk, hx, hy, inside_circleWalk]
  split
  · exact disc_comm ..
  · rfl

theorem rim_toRaw (f : Frame) (r : Nat) (x y x' y' : Int) :
    Rim r ((f.toRaw x y).1 - (f.toRaw x' y').1) ((f.toRaw x y).2 - (f.toRaw x' y').2) ↔
      Rim r (x - x') (y - y') := by
  obtain ⟨hx, hy⟩ := f.natAbs_toRaw_sub x y x' y'
  rw [← border_circleWalk, hx, hy, border_circleWalk]
  split
  · exact rim_comm ..
  · rfl

theorem natAbs_toInt_ne_zero {r : Int32} (hr : r ≠ 0) : r.toInt.natAbs ≠ 0 :=
  fun h => hr (Int32.toInt_inj.1 (Int.natAbs_eq_zero.1 h))

theorem Addressable.circle_paints (hf : f.Addressable b.size) (c : Point) {r : Int32} (hr : r ≠ 0)
    (v : Pixel) :
    Yields (f.circle c r v b) (f.Paints (fun x y => Rim r.toInt.natAbs
      (x - (f.toRaw c.x.toInt c.y.toInt).1) (y - (f.toRaw c.x.toInt c.y.toInt).2))
      (fun _ _ => f.stored v) b) := by
  rw [circle, rawPoint_point, ok_bind]
  apply (hf.arcs_paints _ _ (natAbs_toInt_le r) v (natAbs_toInt_ne_zero hr) .all).mono
  intro d hd
  exact hd.area (fun x y _ => and_iff_left (Quadrants.selects_all _ _))

theorem Addressable.circleSegments_paints (hf : f.Addressable b.size) (c : Point) {r : Int32}
    (hr : r ≠ 0) (q : Quadrants) (v : Pixel) :
    Yields (f.circleSegments c r q v b) (f.Paints (fun x y =>
      Rim r.toInt.natAbs (x - (f.toRaw c.x.toInt c.y.toInt).1) (y - (f.toRaw c.x.toInt c.y.toInt).2) ∧
        (q.raw f.orientation).Selects (x - (f.toRaw c.x.toInt c.y.toInt).1)
          (y - (f.toRaw c.x.toInt c.y.toInt).2)) (fun _ _ => f.stored v) b) := by
  rw [circleSegments, rawPoint_point, ok_bind]
  exact hf.arcs_paints _ _ (natAbs_toInt_le r) v (natAbs_toInt_ne_zero hr) _

theorem Addressable.fillCircle_paints (hf : f.Addressable b.size) (c : Point) {r : Int32}
    (hr : r ≠ 0) (v : Pixel) :
    Yields (f.fillCircle c r v b) (f.Paints (fun x y => Disc r.toInt.natAbs
      (x - (f.toRaw c.x.toInt c.y.toInt).1) (y - (f.toRaw c.x.toInt c.y.toInt).2))
      (fun _ _ => f.stored v) b) := by
  rw [fillCircle, rawPoint_point, ok_bind]
  exact hf.disc_paints _ _ (natAbs_toInt_le r) v (natAbs_toInt_ne_zero hr)

end Frame

namespace Pixmap

/-- In every orientation a circle, chosen quadrants of it and the filled circle set just the points
of the rim, of the rim in these quadrants and of the disc. -/
theorem circle_colours {p : Pixmap} (hp : p.Addressable) (s : Space) (c : Point) {r : Int32}
    (hr : r ≠ 0) (q : Quadrants) (v : Pixel) :
    Yields (p.draw s fun f b => f.circle c r v b) (p.Colours s (fun x y =>
        Rim r.toInt.natAbs (x - c.x.toInt) (y - c.y.toInt)) v) ∧
      Yields (p.draw s fun f b => f.circleSegments c r q v b) (p.Colours s (fun x y =>
        Rim r.toInt.natAbs (x - c.x.toInt) (y - c.y.toInt) ∧
          q.Selects (x - c.x.toInt) (y - c.y.toInt)) v) ∧
      Yields (p.draw s fun f b => f.fillCircle c r v b) (p.Colours s (fun x y =>
        Disc r.toInt.natAbs (x - c.x.toInt) (y - c.y.toInt)) v) := by
  have hf : (p.toFrame.seen s).Addressable p.bytes.size := Frame.Addressable.seen hp s
  refine ⟨?_, ?_, ?_⟩
  · refine hp.draw_colours (hf.circle_paints c hr v) (fun x y _ => ?_)
    exact Frame.rim_toRaw ..
  · refine hp.draw_colours (hf.circleSegments_paints c hr q v) (fun x y _ => ?_)
    rw [Frame.rim_toRaw, Frame.selects_toRaw]
  · refine hp.draw_colours (hf.fillCircle_paints c hr v) (fun x y _ => ?_)
    exact Frame.disc_toRaw ..

/-- The upper right quarter of a circle on 5 by 7 pixels that are turned by a quarter. -/
theorem circle_colours_turned : ∃ p q : Pixmap, p.Addressable ∧
    (p.draw .user fun f b => f.circleSegments ⟨2, 2⟩ (-2) ⟨true, false, false, false⟩ 1 b) = .ok q ∧
      q.get ⟨3, 0⟩ = .ok 1 ∧ q.get ⟨4, 2⟩ = .ok 1 ∧ q.get ⟨4, 3⟩ = .ok 0 := by
  let p : Pixmap := ⟨⟨0, 5, 7, 5, 0, .g8, .rotated .identity .quarterTurn, none⟩, Array.replicate 35 0⟩
  have hp : p.Addressable := by
    refine ⟨⟨?_, ?_, ?_, ?_, ?_, ?_, ?_⟩, ?_, ?_⟩ <;> decide
  obtain ⟨-, ⟨q, hq, hcolours⟩, -⟩ :=
    circle_colours hp .user ⟨2, 2⟩ (show (-2 : Int32) ≠ 0 by decide) ⟨true, false, false, false⟩ 1
  refine ⟨p, q, hp, hq, ?_, ?_, ?_⟩
  · exact hcolours.get_in ⟨3, 0⟩ (by decide) (by decide)
  · exact hcolours.get_in ⟨4, 2⟩ (by decide) (by decide)
  · refine (hcolours.get_out ⟨4, 3⟩ (by decide)).trans ?_
    decide

end Pixmap

end Raster
