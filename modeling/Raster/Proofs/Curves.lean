import Raster.Draw.Ellipse
import Raster.Proofs.Inks
import Raster.Proofs.QuadrantWalk

/- Circles and ellipses. Their walk stays within its bounds for all radii of 32 bits
   (`circleWalk_room`, `ellipseWalk_room`), whatever the visitor draws; the visitors of
   outline and inside clip every point and row that they are shown. -/
namespace Raster.Frame

variable {f : Frame} {v : Pixel} {b : Bytes}

section Visitors
variable {n : Nat} (hf : f.Addressable n) (v : Pixel)
include hf

theorem Addressable.plotQuadrants_draws (hb : b.size = n) (q : Quadrants) (xc yc x y : Int) :
    f.Draws v b (f.plotQuadrants q xc yc v x y b) := by
  have hplot : ∀ (on : Bool) (x y : Int) (c : Bytes), c.size = n →
      f.Draws v c (if on then f.writeClipped x y v c else .ok c) := fun on x y c hc =>
    Draws.ite (fun _ => hf.writeClipped_draws v hc x y) (fun _ => Draws.ok f v c)
  refine (hplot _ _ _ b hb).bind (fun b₁ h₁ => ?_)
  refine (hplot _ _ _ b₁ (h₁.trans hb)).bind (fun b₂ h₂ => ?_)
  refine (hplot _ _ _ b₂ (h₂.trans (h₁.trans hb))).bind (fun b₃ h₃ => ?_)
  exact hplot _ _ _ b₃ (h₃.trans (h₂.trans (h₁.trans hb)))

theorem Addressable.plotRows_draws (hb : b.size = n) (xc yc x y : Int) :
    f.Draws v b (f.plotRows xc yc v x y b) := by
  refine (hf.spanRow_draws v hb ..).bind (fun c hc => ?_)
  exact hf.spanRow_draws v (hc.trans hb) ..

/-- What a visitor of a walk has to do that the walk inks. -/
structure VisitDraws (f : Frame) (v : Pixel) (n : Nat) (visit : Visitor Bytes) : Prop where
  point : ∀ x y b, b.size = n → f.Draws v b (visit.point x y b)
  row : ∀ x y b, b.size = n → f.Draws v b (visit.row x y b)

theorem Addressable.outlineVisitor_draws (q : Quadrants) (xc yc : Int) :
    f.VisitDraws v n (f.outlineVisitor q xc yc v) :=
  ⟨fun _ _ _ hb => hf.plotQuadrants_draws v hb .., fun _ _ b _ => Draws.ok f v b⟩

theorem Addressable.insideVisitor_draws (xc yc : Int) :
    f.VisitDraws v n (f.insideVisitor xc yc v) :=
  ⟨fun _ _ b _ => Draws.ok f v b, fun _ _ _ hb => hf.plotRows_draws v hb ..⟩

end Visitors

/-- Circles of 32 bits stay far below 64 bits. -/
theorem circleWalk_room {r : Nat} (hr : r ≤ 2 ^ 31) : circleWalk.Room r r (2 ^ 34) where
  holds e he := by
    simp only [circleWalk, Bounds.Holds, Bounds.int64]
    omega
  gain_le := by
    simp only [circleWalk]
    omega
  loss_le := by
    simp only [circleWalk]
    omega

/-- Ellipses of 32 bits stay far below 128 bits. -/
theorem ellipseWalk_room {a h : Nat} (ha : a ≤ 2 ^ 32) (hh : h + 1 ≤ 2 ^ 32) :
    (ellipseWalk a h).Room a (h + 1) (2 ^ 99) := by
  have hacross : (h + 1) * (h + 1) ≤ 2 ^ 32 * 2 ^ 32 := Nat.mul_le_mul hh hh
  have hdown : a * a ≤ 2 ^ 32 * 2 ^ 32 := Nat.mul_le_mul ha ha
  refine ⟨fun e he => ?_, ?_, ?_⟩
  · simp only [ellipseWalk, Bounds.Holds, Bounds.int128]
    omega
  · have hgain : (h + 1) * (h + 1) * (2 * a + 1) ≤ 2 ^ 32 * 2 ^ 32 * (2 * 2 ^ 32 + 1) :=
      Nat.mul_le_mul hacross (by omega)
    simp only [ellipseWalk]
    omega
  · have hloss : a * a * (2 * (h + 1) + 1) ≤ 2 ^ 32 * 2 ^ 32 * (2 * 2 ^ 32 + 1) :=
      Nat.mul_le_mul hdown (by omega)
    simp only [ellipseWalk]
    omega

/-- The excess at the top of an ellipse. -/
theorem ellipseWalk_start {a h : Nat} (ha : a ≤ 2 ^ 32) (hh : h + 1 ≤ 2 ^ 32) :
    -((2 ^ 99 : Nat) : Int) ≤ -(((h + 1) * (h + 1) : Nat) : Int) * a ∧
      -(((h + 1) * (h + 1) : Nat) : Int) * a = (ellipseWalk a h).excessAt a 0 (h + 1 : Nat) := by
  have hacross : (h + 1) * (h + 1) ≤ 2 ^ 32 * 2 ^ 32 := Nat.mul_le_mul hh hh
  have hstart : (h + 1) * (h + 1) * a ≤ 2 ^ 32 * 2 ^ 32 * 2 ^ 32 := Nat.mul_le_mul hacross ha
  constructor
  · rw [Int.neg_mul, ← Int.natCast_mul]
    omega
  · simp only [QuadrantWalk.excessAt, ellipseWalk]
    push_cast
    ring

section Walk
variable {n : Nat} {visit : Visitor Bytes} (hvisit : f.VisitDraws v n visit)
include hvisit

theorem VisitDraws.run {w : QuadrantWalk} {reach height limit : Nat} {excess : Int}
    (hr : w.Room reach height limit) (hlow : -(limit : Int) ≤ excess) (hhigh : excess ≤ 0)
    (he : excess = w.excessAt reach 0 height) (hb : b.size = n) :
    f.Draws v b (w.run visit height excess b) := by
  refine hr.run_yields (fun x y c hc => ?_) (fun x y c hc => ?_) hlow he hhigh (Inks.refl f v b)
  · exact (hvisit.point x y c (hc.keeps.size_eq.trans hb)).mono (fun d hd => hc.trans hd)
  · exact (hvisit.row x y c (hc.keeps.size_eq.trans hb)).mono (fun d hd => hc.trans hd)

theorem VisitDraws.circle {r : Nat} (hr : r ≤ 2 ^ 31) (hb : b.size = n) :
    f.Draws v b (circleWalk.run visit r (-r) b) := by
  refine hvisit.run (circleWalk_room hr) (by omega) (by omega) ?_ hb
  simp only [QuadrantWalk.excessAt, circleWalk]
  ring

theorem VisitDraws.ellipse {a h : Nat} (ha : a ≤ 2 ^ 32) (hh : h + 1 ≤ 2 ^ 32) (hb : b.size = n) :
    f.Draws v b ((ellipseWalk a h).run visit (h + 1) (-(((h + 1) * (h + 1) : Nat) : Int) * a) b) := by
  obtain ⟨hlow, hstart⟩ := ellipseWalk_start ha hh
  have hneg : -(((h + 1) * (h + 1) : Nat) : Int) * a ≤ 0 := by
    rw [Int.neg_mul, ← Int.natCast_mul]
    omega
  exact hvisit.run (ellipseWalk_room ha hh) hlow hneg hstart hb

end Walk

section Addressable
variable {n : Nat} (hf : f.Addressable n) (v : Pixel)
include hf

theorem Addressable.arcs_draws (hb : b.size = n) (q : Quadrants) (xc yc : Int) {r : Nat}
    (hr : r ≤ 2 ^ 31) : f.Draws v b (f.arcs q xc yc r v b) := by
  refine Draws.ite (fun _ => Draws.ok f v b) (fun _ => ?_)
  refine Draws.ite (fun _ => hf.writeClipped_draws v hb ..) (fun _ => ?_)
  refine Draws.ite (fun _ => Draws.ok f v b) (fun _ => ?_)
  exact (hf.outlineVisitor_draws v q xc yc).circle hr hb

theorem Addressable.disc_draws (hb : b.size = n) (xc yc : Int) {r : Nat} (hr : r ≤ 2 ^ 31) :
    f.Draws v b (f.disc xc yc r v b) := by
  refine Draws.ite (fun _ => Draws.ok f v b) (fun _ => ?_)
  exact (hf.insideVisitor_draws v xc yc).circle hr hb

theorem Addressable.walkEllipse_draws (hb : b.size = n) {visit : Visitor Bytes}
    (hvisit : f.VisitDraws v n visit) (xc yc : Int) {a h : Nat} (ha : a ≤ 2 ^ 32)
    (hh : h ≤ 2 ^ 32) : f.Draws v b (f.walkEllipse xc yc a h visit v b) := by
  unfold walkEllipse
  split
  · exact hf.spanColumn_draws v hb ..
  · exact hf.spanRow_draws v hb ..
  · refine Draws.ite (fun _ => Draws.ok f v b) (fun _ => ?_)
    exact hvisit.ellipse ha hh hb

/-- Around the raw point of a user point. -/
theorem Addressable.circleSegments_draws (hb : b.size = n) (c : Point) (r : Int32) (q : Quadrants) :
    f.Draws v b (f.circleSegments c r q v b) := by
  rw [circleSegments, rawPoint_point, ok_bind]
  exact hf.arcs_draws v hb _ _ _ (natAbs_toInt_le r)

theorem Addressable.circle_draws (hb : b.size = n) (c : Point) (r : Int32) :
    f.Draws v b (f.circle c r v b) := by
  rw [circle, rawPoint_point, ok_bind]
  exact hf.arcs_draws v hb _ _ _ (natAbs_toInt_le r)

theorem Addressable.fillCircle_draws (hb : b.size = n) (c : Point) (r : Int32) :
    f.Draws v b (f.fillCircle c r v b) := by
  rw [fillCircle, rawPoint_point, ok_bind]
  exact hf.disc_draws v hb _ _ (natAbs_toInt_le r)

theorem Addressable.ellipse_draws (hb : b.size = n) (c : Point) (p q : UInt32) :
    f.Draws v b (f.ellipse c p q v b) := by
  rw [ellipse, rawPoint_point, ok_bind]
  exact hf.walkEllipse_draws v hb (hf.outlineVisitor_draws v ..) _ _
    (UInt32.toNat_lt _).le (UInt32.toNat_lt _).le

theorem Addressable.fillEllipse_draws (hb : b.size = n) (c : Point) (p q : UInt32) :
    f.Draws v b (f.fillEllipse c p q v b) := by
  rw [fillEllipse, rawPoint_point, ok_bind]
  exact hf.walkEllipse_draws v hb (hf.insideVisitor_draws v ..) _ _
    (UInt32.toNat_lt _).le (UInt32.toNat_lt _).le

end Addressable

end Raster.Frame
