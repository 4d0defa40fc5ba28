import Mathlib.Tactic.Linarith
import Mathlib.Tactic.Zify
import Raster.Proofs.CurveShape

/- The shape of an ellipse. The points inside the walk along an ellipse are those of
   `Oval`, so that outline and filled ellipse paint `Ellipse` around the center
   (`walkEllipse_paints`). -/
namespace Raster

/-- The points at distance `x` and `y` from the center that a filled ellipse with half axes `a` and
`b` covers. If one of them is zero a line is left. -/
def Oval (a b x y : Nat) : Prop :=
  if a = 0 ∨ b = 0 then x ≤ a ∧ y ≤ b
  else y ≤ b ∧ b * b * (x * x) + a * a * (y * y) < b * b * (a * (a + 1))

instance (a b x y : Nat) : Decidable (Oval a b x y) := by unfold Oval; infer_instance

/-- The points of an ellipse, all of them or those of its outline. -/
def Ellipse (filled : Bool) (a b x y : Nat) : Prop :=
  Oval a b x y ∧ (filled = true ∨ ¬ (Oval a b (x + 1) y ∧ Oval a b x (y + 1)))

instance (filled : Bool) (a b x y : Nat) : Decidable (Ellipse filled a b x y) := by
  unfold Ellipse; infer_instance

theorem Oval.bounds {a b x y : Nat} (h : Oval a b x y) : x ≤ a ∧ y ≤ b := by
  unfold Oval at h
  split at h
  · exact h
  · refine ⟨Nat.le_of_not_lt (fun hx => ?_), h.1⟩
    have hsquare : a * (a + 1) ≤ x * x := Nat.mul_le_mul (by omega) hx
    have hmul : b * b * (a * (a + 1)) ≤ b * b * (x * x) := Nat.mul_le_mul_left _ hsquare
    omega

/-- The line that is left of an ellipse is its own outline. -/
theorem ellipse_of_zero {filled : Bool} {a b x y : Nat} (h : a = 0 ∨ b = 0) :
    Ellipse filled a b x y ↔ x ≤ a ∧ y ≤ b := by
  simp only [Ellipse, Oval, if_pos h]
  exact ⟨fun hin => hin.1, fun hin => ⟨hin, Or.inr (by omega)⟩⟩

namespace Frame
variable {f : Frame} {b : Bytes}

theorem inside_ellipseWalk {a h : Nat} (ha : a ≠ 0) (x y : Nat) :
    (ellipseWalk a h).Inside a (h + 1) x y ↔ Oval a (h + 1) x y := by
  unfold QuadrantWalk.Inside QuadrantWalk.excessAt Oval
  rw [if_neg (by omega)]
  refine and_congr_right (fun _ => ?_)
  simp only [ellipseWalk]
  constructor
  · intro hneg
    zify
    push_cast at hneg ⊢
    linarith
  · intro hlt
    zify at hlt
    push_cast at hlt ⊢
    linarith

/-- The drawing of outline or filled ellipse around a raw center. -/
def ellipseVisitor (f : Frame) (filled : Bool) (xc yc : Int) (v : Pixel) : Visitor Bytes :=
  if filled then f.insideVisitor xc yc v else f.outlineVisitor .all xc yc v

theorem Addressable.walkEllipse_paints (hf : f.Addressable b.size) (filled : Bool) (v : Pixel)
    (xc yc : Int) {p q : Nat} (hp : p ≤ 2 ^ 32) (hq : q ≤ 2 ^ 32) :
    Yields (f.walkEllipse xc yc p q (f.ellipseVisitor filled xc yc v) v b)
      (f.Paints (fun x y => Ellipse filled p q (x - xc).natAbs (y - yc).natAbs)
        (fun _ _ => f.stored v) b) := by
  match p, q with
  | 0, q =>
    apply (hf.spanColumn_paints xc (yc - q) (yc + q) v).mono
    intro c hc
    refine hc.area (fun x y _ => ?_)
    rw [ellipse_of_zero (Or.inl rfl)]
    omega
  | a + 1, 0 =>
    apply (hf.spanRow_paints (xc - (a + 1 : Nat)) (xc + (a + 1 : Nat)) yc v).mono
    intro c hc
    refine hc.area (fun x y _ => ?_)
    rw [ellipse_of_zero (Or.inr rfl)]
    omega
  | a + 1, h + 1 =>
    simp only [walkEllipse]
    split
    · rename_i hmiss
      refine Yields.ok (Paints.none (fun x y hxy hin => ?_))
      obtain ⟨hx, hy⟩ := hin.1.bounds
      obtain ⟨h₀, h₁, h₂, h₃⟩ := hxy
      simp only [misses, Bool.or_eq_true, decide_eq_true_eq] at hmiss
      omega
    · obtain ⟨hlow, hstart⟩ := ellipseWalk_start hp hq
      have hroom := ellipseWalk_room hp hq
      have hneg : -(((h + 1) * (h + 1) : Nat) : Int) * (a + 1 : Nat) < 0 := by
        rw [Int.neg_mul, ← Int.natCast_mul]
        exact Int.neg_neg_of_pos (Int.natCast_pos.2
          (Nat.mul_pos (Nat.mul_pos (Nat.succ_pos h) (Nat.succ_pos h)) (Nat.succ_pos a)))
      cases filled with
      | true =>
        apply (hf.insideVisitor_paints v xc yc hroom hlow hstart hneg).mono
        intro c hc
        refine hc.area (fun x y _ => ?_)
        rw [inside_ellipseWalk (Nat.succ_ne_zero a)]
        exact (and_iff_left (Or.inl rfl)).symm
      | false =>
        apply (hf.outlineVisitor_paints v xc yc hroom hlow hstart hneg .all).mono
        intro c hc
        refine hc.area (fun x y _ => ?_)
        rw [and_iff_left (Quadrants.selects_all _ _)]
        simp only [QuadrantWalk.Border, inside_ellipseWalk (Nat.succ_ne_zero a), Ellipse,
          Bool.false_eq_true, false_or]

end Frame

end Raster
