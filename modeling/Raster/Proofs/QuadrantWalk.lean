import Mathlib.Algebra.Order.Ring.Int
import Mathlib.Tactic.Ring
import Raster.Draw.QuadrantWalk
import Raster.Proofs.Outcome

/- The walk along a quarter of an ellipse. On a curve that reaches column `reach` the
   excess that the walk keeps is `excessAt` of the point where it is (`excessAt_right`,
   `excessAt_down`), negative only up to that column (`le_of_excessAt_neg`). So the walk
   never goes beyond the next one and its numbers stay small: it always answers. The
   points with a negative excess are `Inside`; on every row the walk goes from the first
   column outside on the row above to the first one outside on this row
   (`Room.run_path`). What every visit preserves holds in the end (`Room.run_yields`). -/
namespace Raster.QuadrantWalk

variable {σ : Type} {w : QuadrantWalk} {visit : Visitor σ}
  {reach height limit x n : Nat} {y excess : Int} {s : σ}

/-- The excess at a point of a curve that is widest between columns `reach` and `reach + 1`. -/
def excessAt (w : QuadrantWalk) (reach : Nat) (x y : Int) : Int :=
  w.across * (x * x) + w.down * (y * y) - w.across * (reach * (reach + 1))

/-- The point in column `x` of row `y` lies inside the curve. -/
def Inside (w : QuadrantWalk) (reach height x y : Nat) : Prop :=
  y ≤ height ∧ w.excessAt reach x y < 0

/-- Numbers up to `limit` are in bounds, and no step of a walk changes the excess by more. -/
structure Room (w : QuadrantWalk) (reach height limit : Nat) : Prop where
  holds : ∀ e : Int, e.natAbs ≤ limit → w.bounds.Holds e
  gain_le : w.across * (2 * reach + 1) + w.down ≤ limit
  loss_le : w.down * (2 * height + 1) ≤ limit

theorem excessAt_right (w : QuadrantWalk) (reach : Nat) (x y : Int) :
    w.excessAt reach x y + w.across * (2 * x + 1) = w.excessAt reach (x + 1) y := by
  simp only [excessAt]
  ring

theorem excessAt_down (w : QuadrantWalk) (reach : Nat) (x y : Int) :
    w.excessAt reach x y + w.down * (1 - 2 * y) = w.excessAt reach x (y - 1) := by
  simp only [excessAt]
  ring

theorem le_of_excessAt_neg (h : w.excessAt reach x y < 0) : x ≤ reach := by
  by_contra hx
  have hpos : (0 : Int) < w.across := by
    have ha := w.across_pos
    omega
  have hy : 0 ≤ (w.down : Int) * (y * y) := Int.mul_nonneg (Int.natCast_nonneg _) (mul_self_nonneg y)
  have hsquare : (reach : Int) * (reach + 1) ≤ x * x :=
    Int.mul_le_mul (by omega) (by omega) (by omega) (by omega)
  have hmul : (w.across : Int) * (reach * (reach + 1)) ≤ w.across * (x * x) :=
    Int.mul_le_mul_of_nonneg_left hsquare (Int.le_of_lt hpos)
  simp only [excessAt] at h
  omega

theorem excessAt_mono (w : QuadrantWalk) (reach : Nat) {x x' y y' : Nat} (hx : x ≤ x')
    (hy : y ≤ y') :
    w.excessAt reach x y ≤ w.excessAt reach x' y' := by
  have hcolumns : w.across * (x * x) ≤ w.across * (x' * x') :=
    Nat.mul_le_mul_left _ (Nat.mul_le_mul hx hx)
  have hrows : w.down * (y * y) ≤ w.down * (y' * y') := Nat.mul_le_mul_left _ (Nat.mul_le_mul hy hy)
  simp only [excessAt]
  have hsum : ((w.across * (x * x) + w.down * (y * y) : Nat) : Int) ≤
      ((w.across * (x' * x') + w.down * (y' * y') : Nat) : Int) := by omega
  push_cast at hsum
  omega

/-- What lies further in than a point inside lies inside. -/
theorem Inside.mono {x x' y y' : Nat} (h : w.Inside reach height x' y') (hx : x ≤ x')
    (hy : y ≤ y') : w.Inside reach height x y :=
  ⟨Nat.le_trans hy h.1, Int.lt_of_le_of_lt (excessAt_mono w reach hx hy) h.2⟩

section Room
variable (hr : w.Room reach height limit)
include hr

/-- A step to the next column gains no more than the last one. -/
theorem Room.gain_bounds (hx : x ≤ reach) :
    0 < (w.across : Int) * (2 * x + 1) ∧
      (w.across : Int) * (2 * x + 1) + w.down ≤ limit := by
  have hpos : (0 : Int) < w.across := by
    have ha := w.across_pos
    omega
  have hle : (w.across : Int) * (2 * x + 1) ≤ w.across * (2 * reach + 1) :=
    Int.mul_le_mul_of_nonneg_left (by omega) (Int.le_of_lt hpos)
  have hgain : (w.across : Int) * (2 * reach + 1) + w.down ≤ limit := by exact_mod_cast hr.gain_le
  exact ⟨Int.mul_pos hpos (by omega), by omega⟩

/-- A step to the row below `y` loses no more than the first one. -/
theorem Room.loss_bounds {y : Nat} (hy : y ≤ height) :
    -(limit : Int) ≤ w.down * (1 - 2 * y) ∧ (w.down : Int) * (1 - 2 * y) ≤ w.down ∧
      (0 < y → (w.down : Int) * (1 - 2 * y) + w.down ≤ 0) := by
  have hloss : (w.down : Int) * (2 * height + 1) ≤ limit := by exact_mod_cast hr.loss_le
  have hdown := Int.natCast_nonneg w.down
  refine ⟨?_, ?_, fun hpos => ?_⟩
  · have hle := Int.mul_le_mul_of_nonneg_left (show 1 - 2 * (y : Int) ≥ -(2 * height + 1) by omega) hdown
    rw [Int.mul_neg] at hle
    omega
  · have hle := Int.mul_le_mul_of_nonneg_left (show 1 - 2 * (y : Int) ≤ 1 by omega) hdown
    omega
  · have hle := Int.mul_le_mul_of_nonneg_left (show 1 - 2 * (y : Int) ≤ -1 by omega) hdown
    omega

/-- Moving out goes on to the first column with an excess that is not negative. -/
theorem Room.advance_path {J : Nat → σ → Prop}
    (hpoint : ∀ k s, x ≤ k → w.excessAt reach k y < 0 → J k s →
      Yields (visit.point k y s) (J (k + 1)))
    (hx : x ≤ reach + 1) (he : excess = w.excessAt reach x y) (hlow : -(limit : Int) ≤ excess)
    (hhigh : excess + w.down ≤ limit) (hs : J x s) :
    Yields (w.advance visit y x excess s) (fun (x', e, s') =>
      x' ≤ reach + 1 ∧ e = w.excessAt reach x' y ∧ 0 ≤ e ∧ e + w.down ≤ limit ∧
        (∀ k, x ≤ k → k < x' → w.excessAt reach k y < 0) ∧ J x' s') := by
  obtain ⟨m, hm⟩ : ∃ m, reach + 1 = x + m := ⟨reach + 1 - x, by omega⟩
  induction m generalizing x excess s with
  | zero =>
    have hpos : ¬ excess < 0 := by
      intro h
      rw [he] at h
      have hle := le_of_excessAt_neg h
      omega
    rw [advance, if_neg hpos]
    exact Yields.ok ⟨hx, he, by omega, hhigh, fun k h₀ h₁ => absurd h₁ (by omega), hs⟩
  | succ m ih =>
    rw [advance]
    by_cases h : excess < 0
    · have hle : x ≤ reach := le_of_excessAt_neg (he ▸ h)
      obtain ⟨hgain₀, hgain₁⟩ := hr.gain_bounds hle
      dsimp only
      generalize hg : (w.across : Int) * (2 * x + 1) = gain at *
      rw [if_pos h, if_pos ⟨hr.holds _ (by omega), hr.holds _ (by omega)⟩]
      obtain ⟨s', hs', hJ⟩ := hpoint x s (Nat.le_refl x) (he ▸ h) hs
      rw [hs']
      have hnext : excess + gain = w.excessAt reach ((x + 1 : Nat) : Int) y := by
        rw [he, ← hg, excessAt_right]
        rfl
      apply (ih (fun k s hk => hpoint k s (by omega)) (by omega) hnext (by omega) (by omega) hJ
        (by omega)).mono
      intro (x', e, t) ⟨h₁, h₂, h₃, h₄, hneg, ht⟩
      refine ⟨h₁, h₂, h₃, h₄, fun k hk₀ hk₁ => ?_, ht⟩
      rcases Nat.eq_or_lt_of_le hk₀ with rfl | hlt
      · exact he ▸ h
      · exact hneg k hlt hk₁
    · rw [if_neg h]
      exact Yields.ok ⟨hx, he, by omega, hhigh, fun k h₀ h₁ => absurd h₁ (by omega), hs⟩

section Path
variable {I : Nat → Nat → σ → Prop}
  (hpoint : ∀ x y s, w.Inside reach height x y → ¬ w.Inside reach height x (y + 1) →
    I (y + 1) x s → Yields (visit.point x y s) (I (y + 1) (x + 1)))
  (hend : ∀ x y s, y ≤ height → (∀ k, k < x ↔ w.Inside reach height k y) → I (y + 1) x s →
    Yields (visit.point ((x : Int) - 1) y s >>= visit.row ((x : Int) - 1) y) (I y x))
include hpoint hend

/-- The walk down the rows below `n`. `I n x` holds where these rows are left and the walk has come
to column `x` of the first one. -/
theorem Room.rows_path (hn : n ≤ height + 1) (hx : ∀ k, k < x ↔ w.Inside reach height k n)
    (hs : I n x s)
    (h : 0 < n → excess = w.excessAt reach x (n - 1) ∧ -(limit : Int) ≤ excess ∧
      excess + w.down ≤ limit) :
    Yields (w.rows visit n x excess s) (fun s => ∃ x, I 0 x s) := by
  induction n generalizing x excess s with
  | zero => exact Yields.ok ⟨x, hs⟩
  | succ y ih =>
    obtain ⟨he, hlow, hhigh⟩ := h (Nat.succ_pos y)
    rw [Int.natCast_succ, Int.add_sub_cancel] at he
    have hreach : x ≤ reach + 1 := by
      rcases Nat.eq_zero_or_pos x with rfl | hpos
      · exact Nat.zero_le _
      · have hlast := le_of_excessAt_neg ((hx (x - 1)).1 (by omega)).2
        omega
    apply (hr.advance_path (J := I (y + 1)) (fun k s hk hneg => hpoint k y s ⟨by omega, hneg⟩
      (fun hin => absurd ((hx k).2 hin) (by omega))) hreach he hlow hhigh hs).bind
    intro (x', e, s') ⟨hx', he', he₀, he₁, hneg, hs'⟩
    have hcolumn : ∀ k, k < x' ↔ w.Inside reach height k y := by
      intro k
      constructor
      · intro hk
        rcases Nat.lt_or_ge k x with hlt | hge
        · exact ((hx k).1 hlt).mono (Nat.le_refl k) (Nat.le_succ y)
        · exact ⟨by omega, hneg k hge hk⟩
      · intro hin
        refine Nat.lt_of_not_le (fun hle => ?_)
        have hmono := excessAt_mono w reach hle (Nat.le_refl y)
        have hlt := hin.2
        omega
    obtain ⟨hloss₀, hloss₁, hloss₂⟩ := hr.loss_bounds (show y ≤ height by omega)
    have hdown := w.excessAt_down reach x' y
    dsimp only
    generalize (w.down : Int) * (1 - 2 * y) = loss at *
    have hcheck : w.bounds.check loss = .ok loss :=
      Bounds.check_of_holds (hr.holds _ (by omega))
    have hcheck' : w.bounds.check (e + loss) = .ok (e + loss) :=
      Bounds.check_of_holds (hr.holds _ (by omega))
    rw [hcheck, ok_bind, hcheck', ok_bind, ← bind_assoc]
    apply (hend x' y s' (by omega) hcolumn hs').bind
    intro t ht
    refine ih (by omega) hcolumn ht (fun hy => ⟨?_, by omega, ?_⟩)
    · rw [he', hdown]
    · have hneg := hloss₂ hy
      omega

/-- The whole walk. -/
theorem Room.run_path (hlow : -(limit : Int) ≤ excess)
    (he : excess = w.excessAt reach 0 height) (hhigh : excess ≤ 0) (hs : I (height + 1) 0 s) :
    Yields (w.run visit height excess s) (fun s => ∃ x, I 0 x s) := by
  refine hr.rows_path hpoint hend (Nat.le_refl _) (fun k => ?_) hs (fun _ => ⟨?_, hlow, ?_⟩)
  · constructor
    · intro hk
      omega
    · intro hin
      have hle := hin.1
      omega
  · rw [Int.natCast_succ, Int.add_sub_cancel]
    exact he
  · have hgain := hr.gain_le
    omega

end Path

/-- A walk that fits its bounds always answers and keeps what every visit keeps. -/
theorem Room.run_yields {I : σ → Prop} (hpoint : ∀ x y s, I s → Yields (visit.point x y s) I)
    (hrow : ∀ x y s, I s → Yields (visit.row x y s) I) (hlow : -(limit : Int) ≤ excess)
    (he : excess = w.excessAt reach 0 height) (hhigh : excess ≤ 0) (hs : I s) :
    Yields (w.run visit height excess s) I := by
  apply (hr.run_path (I := fun _ _ => I) (fun x y s _ _ => hpoint x y s)
    (fun x y s _ _ hs => (hpoint _ _ s hs).bind (fun t => hrow _ _ t)) hlow he hhigh hs).mono
  intro s ⟨_, hs⟩
  exact hs

end Room

end Raster.QuadrantWalk
