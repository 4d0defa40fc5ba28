import Raster.Proofs.Curves
import Raster.Proofs.Runs

/- The shape of a curve. What the walk along a quarter of a curve draws around a center is
   fixed by the points inside the curve: its outline are those with a point outside next
   to them, as far as they lie in the chosen quadrants (`outlineVisitor_paints`), its rows
   are all of them (`insideVisitor_paints`). -/
namespace Raster

namespace QuadrantWalk
variable {w : QuadrantWalk} {reach height n x y k m : Nat}

/-- The point lies inside the curve, the next point outwards in its row or in its column does
not. -/
def Border (w : QuadrantWalk) (reach height x y : Nat) : Prop :=
  w.Inside reach height x y ∧
    ¬ (w.Inside reach height (x + 1) y ∧ w.Inside reach height x (y + 1))

/-- The column of the center lies inside on every row. -/
theorem column_pos (hneg : w.excessAt reach 0 height < 0) (hy : y ≤ height)
    (hx : ∀ k, k < x ↔ w.Inside reach height k y) : 0 < x := by
  have hmono := excessAt_mono w reach (Nat.le_refl 0) hy
  exact (hx 0).2 ⟨hy, Int.lt_of_le_of_lt hmono hneg⟩

/-- The point of the border was visited before the walk came to column `x` of the row below
row `n`. -/
def Seen (w : QuadrantWalk) (reach height n x k m : Nat) : Prop :=
  w.Border reach height k m ∧ (n ≤ m ∨ m + 1 = n ∧ k < x ∧ ¬ w.Inside reach height k n)

theorem not_seen_start : ¬ w.Seen reach height (height + 1) 0 k m := by
  intro ⟨hborder, hseen⟩
  have hle := hborder.1.1
  omega

theorem seen_end : w.Seen reach height 0 x k m ↔ w.Border reach height k m :=
  ⟨fun h => h.1, fun h => ⟨h, Or.inl (Nat.zero_le m)⟩⟩

/-- A visit further out on a row. -/
theorem seen_point (hin : w.Inside reach height x y) (hout : ¬ w.Inside reach height x (y + 1)) :
    w.Seen reach height (y + 1) (x + 1) k m ↔
      w.Seen reach height (y + 1) x k m ∨ (k = x ∧ m = y) := by
  constructor
  · rintro ⟨hborder, hrow | ⟨hrow, hk, hnext⟩⟩
    · exact Or.inl ⟨hborder, Or.inl hrow⟩
    · rcases Nat.lt_succ_iff_lt_or_eq.1 hk with hlt | heq
      · exact Or.inl ⟨hborder, Or.inr ⟨hrow, hlt, hnext⟩⟩
      · exact Or.inr ⟨heq, by omega⟩
  · rintro (⟨hborder, hrow | ⟨hrow, hk, hnext⟩⟩ | ⟨rfl, rfl⟩)
    · exact ⟨hborder, Or.inl hrow⟩
    · exact ⟨hborder, Or.inr ⟨hrow, by omega, hnext⟩⟩
    · exact ⟨⟨hin, fun h => hout h.2⟩, Or.inr ⟨rfl, by omega, hout⟩⟩

/-- The visit at the end of a row. -/
theorem seen_row (hx : ∀ k, k < x ↔ w.Inside reach height k y) :
    w.Seen reach height y x k m ↔ w.Seen reach height (y + 1) x k m ∨ (k + 1 = x ∧ m = y) := by
  constructor
  · rintro ⟨hborder, hrow | ⟨-, hk, hnext⟩⟩
    · rcases Nat.eq_or_lt_of_le hrow with rfl | hlt
      · have hk := (hx k).2 hborder.1
        by_cases hnext : w.Inside reach height k (y + 1)
        · have hlast : ¬ k + 1 < x := fun hlt => hborder.2 ⟨(hx (k + 1)).1 hlt, hnext⟩
          exact Or.inr ⟨by omega, rfl⟩
        · exact Or.inl ⟨hborder, Or.inr ⟨rfl, hk, hnext⟩⟩
      · exact Or.inl ⟨hborder, Or.inl hlt⟩
    · exact absurd ((hx k).1 hk) hnext
  · rintro (⟨hborder, hrow | ⟨hrow, hk, hnext⟩⟩ | ⟨hk, rfl⟩)
    · exact ⟨hborder, Or.inl (by omega)⟩
    · exact ⟨hborder, Or.inl (by omega)⟩
    · exact ⟨⟨(hx k).1 (by omega), fun h => absurd ((hx (k + 1)).2 h.1) (by omega)⟩,
        Or.inl (Nat.le_refl m)⟩

/-- A row of the inside. -/
theorem inside_row (hx : ∀ k, k < x ↔ w.Inside reach height k y) :
    y ≤ m ∧ w.Inside reach height k m ↔
      (y + 1 ≤ m ∧ w.Inside reach height k m) ∨ (k < x ∧ m = y) := by
  constructor
  · intro ⟨hle, hin⟩
    rcases Nat.eq_or_lt_of_le hle with rfl | hlt
    · exact Or.inr ⟨(hx k).2 hin, rfl⟩
    · exact Or.inl ⟨hlt, hin⟩
  · rintro (⟨hle, hin⟩ | ⟨hk, rfl⟩)
    · exact ⟨by omega, hin⟩
    · exact ⟨Nat.le_refl m, (hx k).1 hk⟩

end QuadrantWalk

/-- The offset from the center lies in a chosen quadrant, its sides included. -/
def Quadrants.Selects (q : Quadrants) (dx dy : Int) : Prop :=
  (q.upRight = true ∧ 0 ≤ dx ∧ dy ≤ 0) ∨ (q.upLeft = true ∧ dx ≤ 0 ∧ dy ≤ 0) ∨
    (q.downLeft = true ∧ dx ≤ 0 ∧ 0 ≤ dy) ∨ (q.downRight = true ∧ 0 ≤ dx ∧ 0 ≤ dy)

instance (q : Quadrants) (dx dy : Int) : Decidable (q.Selects dx dy) :=
  inferInstanceAs (Decidable (_ ∨ _))

theorem Quadrants.selects_all (dx dy : Int) : all.Selects dx dy := by
  simp only [Selects, all, true_and]
  omega

namespace Frame
variable {f : Frame} {b : Bytes}

section Walk
variable (hf : f.Addressable b.size) (v : Pixel) (xc yc : Int)
include hf

/-- A point in the chosen quadrants. -/
theorem Addressable.plotQuadrants_paints (q : Quadrants) {x y : Int} (hx : 0 ≤ x) (hy : 0 ≤ y) :
    Yields (f.plotQuadrants q xc yc v x y b)
      (f.Paints (fun x' y' => ((x' - xc).natAbs = x.natAbs ∧ (y' - yc).natAbs = y.natAbs) ∧
        q.Selects (x' - xc) (y' - yc)) (fun _ _ => f.stored v) b) := by
  have hplot : ∀ (on : Bool) (x y : Int) (c : Bytes), f.Addressable c.size →
      Yields (if on then f.writeClipped x y v c else .ok c)
        (f.Paints (fun x' y' => on = true ∧ x' = x ∧ y' = y) (fun _ _ => f.stored v) c) := by
    intro on x y c hc
    cases on with
    | false => exact Yields.ok (Paints.none (fun _ _ _ h => nomatch h.1))
    | true => exact (hc.writeClipped_paints x y v).mono (fun d hd => hd.area (fun _ _ _ => by simp))
  apply (hplot q.upLeft (xc - x) (yc - y) b hf).bind
  intro b₁ h₁
  have hf₁ : f.Addressable b₁.size := h₁.keeps.size_eq ▸ hf
  apply (hplot q.upRight (xc + x) (yc - y) b₁ hf₁).bind
  intro b₂ h₂
  have hf₂ : f.Addressable b₂.size := h₂.keeps.size_eq ▸ hf₁
  apply (hplot q.downLeft (xc - x) (yc + y) b₂ hf₂).bind
  intro b₃ h₃
  have hf₃ : f.Addressable b₃.size := h₃.keeps.size_eq ▸ hf₂
  apply (hplot q.downRight (xc + x) (yc + y) b₃ hf₃).mono
  intro c h₄
  apply (((h₁.trans h₂).trans h₃).trans h₄).area
  intro x' y' _
  constructor
  · rintro (((⟨hq, h⟩ | ⟨hq, h⟩) | ⟨hq, h⟩) | ⟨hq, h⟩)
    · exact ⟨by omega, Or.inr (Or.inl ⟨hq, by omega⟩)⟩
    · exact ⟨by omega, Or.inl ⟨hq, by omega⟩⟩
    · exact ⟨by omega, Or.inr (Or.inr (Or.inl ⟨hq, by omega⟩))⟩
    · exact ⟨by omega, Or.inr (Or.inr (Or.inr ⟨hq, by omega⟩))⟩
  · rintro ⟨h, ⟨hq, h'⟩ | ⟨hq, h'⟩ | ⟨hq, h'⟩ | ⟨hq, h'⟩⟩
    · exact Or.inl (Or.inl (Or.inr ⟨hq, by omega⟩))
    · exact Or.inl (Or.inl (Or.inl ⟨hq, by omega⟩))
    · exact Or.inl (Or.inr ⟨hq, by omega⟩)
    · exact Or.inr ⟨hq, by omega⟩

/-- The rows on both sides of the center. -/
theorem Addressable.plotRows_paints (x y : Int) :
    Yields (f.plotRows xc yc v x y b)
      (f.Paints (fun x' y' => (x' - xc).natAbs ≤ x.natAbs ∧ (y' - yc).natAbs = y.natAbs)
        (fun _ _ => f.stored v) b) := by
  apply (hf.spanRow_paints (xc - x) (xc + x) (yc - y) v).bind
  intro b₁ h₁
  have hf₁ : f.Addressable b₁.size := h₁.keeps.size_eq ▸ hf
  apply (hf₁.spanRow_paints (xc - x) (xc + x) (yc + y) v).mono
  intro c h₂
  apply (h₁.trans h₂).area
  intro x' y' _
  omega

variable {w : QuadrantWalk} {reach height limit : Nat} {excess : Int}
  (hr : w.Room reach height limit) (hlow : -(limit : Int) ≤ excess)
  (he : excess = w.excessAt reach 0 height) (hneg : excess < 0)
include hr hlow he hneg

/-- The outline is the border of the curve in the chosen quadrants. -/
theorem Addressable.outlineVisitor_paints (q : Quadrants) :
    Yields (w.run (f.outlineVisitor q xc yc v) height excess b)
      (f.Paints (fun x y => w.Border reach height (x - xc).natAbs (y - yc).natAbs ∧
        q.Selects (x - xc) (y - yc)) (fun _ _ => f.stored v) b) := by
  refine (hr.run_path (I := fun n x c => f.Paints
      (fun x' y' => w.Seen reach height n x (x' - xc).natAbs (y' - yc).natAbs ∧
        q.Selects (x' - xc) (y' - yc))
      (fun _ _ => f.stored v) b c) ?_ ?_ hlow he (Int.le_of_lt hneg)
    (Paints.none (fun _ _ _ h => QuadrantWalk.not_seen_start h.1))).mono ?_
  · intro x y c hin hout hc
    have hfc : f.Addressable c.size := hc.keeps.size_eq ▸ hf
    apply (hfc.plotQuadrants_paints v xc yc q (Int.natCast_nonneg x) (Int.natCast_nonneg y)).mono
    intro d hd
    refine (hc.trans hd).area (fun x' y' _ => ?_)
    rw [QuadrantWalk.seen_point hin hout, Int.natAbs_natCast, Int.natAbs_natCast, or_and_right]
  · intro x y c hy hx hc
    have hfc : f.Addressable c.size := hc.keeps.size_eq ▸ hf
    have hpos := QuadrantWalk.column_pos (he ▸ hneg) hy hx
    apply (hfc.plotQuadrants_paints v xc yc q (show 0 ≤ (x : Int) - 1 by omega)
      (Int.natCast_nonneg y)).bind
    intro d hd
    refine Yields.ok ((hc.trans hd).area (fun x' y' _ => ?_))
    rw [QuadrantWalk.seen_row hx, or_and_right]
    exact or_congr_right (and_congr_left (fun _ => by omega))
  · intro c ⟨x, hc⟩
    exact hc.area (fun _ _ _ => and_congr_left (fun _ => QuadrantWalk.seen_end))

/-- The rows are all of the curve. -/
theorem Addressable.insideVisitor_paints :
    Yields (w.run (f.insideVisitor xc yc v) height excess b)
      (f.Paints (fun x y => w.Inside reach height (x - xc).natAbs (y - yc).natAbs)
        (fun _ _ => f.stored v) b) := by
  refine (hr.run_path (I := fun n _ c => f.Paints
      (fun x' y' => n ≤ (y' - yc).natAbs ∧ w.Inside reach height (x' - xc).natAbs (y' - yc).natAbs)
      (fun _ _ => f.stored v) b c) ?_ ?_ hlow he (Int.le_of_lt hneg) (Paints.none ?_)).mono ?_
  · intro x y c _ _ hc
    exact Yields.ok hc
  · intro x y c hy hx hc
    have hfc : f.Addressable c.size := hc.keeps.size_eq ▸ hf
    have hpos := QuadrantWalk.column_pos (he ▸ hneg) hy hx
    apply (hfc.plotRows_paints v xc yc ((x : Int) - 1) y).mono
    intro d hd
    refine (hc.trans hd).area (fun x' y' _ => ?_)
    rw [QuadrantWalk.inside_row hx]
    exact or_congr_right (by omega)
  · intro x y _ ⟨hle, hin⟩
    have hrow := hin.1
    omega
  · intro c ⟨_, hc⟩
    exact hc.area (fun _ _ _ => and_iff_right (Nat.zero_le _))

end Walk

end Frame

end Raster
