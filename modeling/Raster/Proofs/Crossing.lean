import Mathlib.Tactic.NormNum
import Mathlib.Tactic.Ring
import Raster.Draw.Line
import Raster.Proofs.Rounding

/- Where a line meets the sides of a box. `Segment.columnNear` and `Segment.rowNear` are
   the rounded meeting points as total functions of the ends as given; both ends count
   alike (`columnAt_swap`). Which pixel they are is decided by the side of the line on
   which a point of the grid lies (`Segment.turn`). All that clipping needs of them is
   `Passage`: a meeting point lies between the ends, and what the line does at one side
   of a corner of the box bounds what it does at the other. -/
namespace Raster

/-- A side of an axis of `n` pixels. -/
inductive Side where
  | low
  | high
  deriving DecidableEq, Repr

namespace Side

def opposite : Side → Side
  | low => high
  | high => low

/-- The last coordinate before the side. -/
def edge (σ : Side) (n : Int) : Int :=
  match σ with
  | low => 0
  | high => n - 1

/-- How far `v` lies beyond the last coordinate before the side. -/
def excess (σ : Side) (n v : Int) : Int :=
  match σ with
  | low => -v
  | high => v - (n - 1)

def Beyond (σ : Side) (n v : Int) : Prop := 0 < σ.excess n v

instance (σ : Side) (n v : Int) : Decidable (σ.Beyond n v) := inferInstanceAs (Decidable (_ < _))

variable {σ τ : Side} {n v : Int}

theorem Beyond.unique (hn : 0 < n) (hσ : σ.Beyond n v) (hτ : τ.Beyond n v) : σ = τ := by
  cases σ <;> cases τ <;> simp only [Beyond, excess] at * <;> first | rfl | omega

theorem eq_opposite (h : τ ≠ σ) : τ = σ.opposite := by
  cases σ <;> cases τ <;> first | rfl | contradiction

theorem opposite_ne (σ : Side) : σ.opposite ≠ σ := by cases σ <;> decide


theorem Beyond.not_opposite (hn : 0 < n) (h : σ.Beyond n v) : ¬ σ.opposite.Beyond n v :=
  fun h' => opposite_ne σ (h'.unique hn h)

theorem not_beyond_edge (hn : 0 < n) (σ τ : Side) : ¬ τ.Beyond n (σ.edge n) := by
  cases σ <;> cases τ <;> simp only [Beyond, excess, edge] <;> omega

theorem not_opposite_of_excess (hn : 0 < n) (h : 0 ≤ σ.excess n v) : ¬ σ.opposite.Beyond n v := by
  cases σ <;> simp only [Beyond, excess, opposite] at * <;> omega

/-- Neither beyond the side nor before its edge. -/
theorem eq_edge (h : ¬ σ.Beyond n v) (h' : 0 ≤ σ.excess n v) : v = σ.edge n := by
  cases σ <;> simp only [Beyond, excess, edge] at * <;> omega

end Side

namespace Segment

/-- The line from its second end to its first. -/
def swap (s : Segment) : Segment := ⟨s.x1, s.y1, s.x0, s.y0⟩

/-- The line with rows and columns exchanged. -/
def transpose (s : Segment) : Segment := ⟨s.y0, s.x0, s.y1, s.x1⟩

/-- The column nearest to the line in row `y`. -/
def columnNear (s : Segment) (y : Int) : Int :=
  s.x0 + nearest ((s.x1 - s.x0) * (y - s.y0)) (s.y1 - s.y0)

/-- The row nearest to the line in column `x`. -/
def rowNear (s : Segment) (x : Int) : Int :=
  s.y0 + nearest ((s.y1 - s.y0) * (x - s.x0)) (s.x1 - s.x0)

/-- The ends are not further away than mirrored 32-bit coordinates can be. -/
structure Near (s : Segment) : Prop where
  x0 : s.x0.natAbs ≤ 2 ^ 33
  y0 : s.y0.natAbs ≤ 2 ^ 33
  x1 : s.x1.natAbs ≤ 2 ^ 33
  y1 : s.y1.natAbs ≤ 2 ^ 33

/-- Twice the area of the triangle of the line and a point, positive on one side of the line. -/
def turn (s : Segment) (x y : Int) : Int :=
  (s.x0 - x) * (s.y1 - s.y0) + (s.x1 - s.x0) * (y - s.y0)

variable {s : Segment} {x y : Int}

theorem Near.swap (hs : s.Near) : s.swap.Near := ⟨hs.x1, hs.y1, hs.x0, hs.y0⟩

theorem Near.transpose (hs : s.Near) : s.transpose.Near := ⟨hs.y0, hs.x0, hs.y1, hs.x1⟩

/-! No fault occurs. -/

theorem natAbs_mul_le {a b : Int} (ha : a.natAbs ≤ 2 ^ 34) (hb : b.natAbs ≤ 2 ^ 34) :
    (a * b).natAbs ≤ 2 ^ 68 := by
  rw [Int.natAbs_mul, show 2 ^ 68 = 2 ^ 34 * 2 ^ 34 by norm_num]
  exact Nat.mul_le_mul ha hb

theorem Near.columnAt_eq (hs : s.Near) (hy : y.natAbs ≤ 2 ^ 33) (hne : s.y0 ≠ s.y1) :
    s.columnAt y = .ok (s.columnNear y) := by
  obtain ⟨h₁, h₂, h₃, h₄⟩ := hs
  have hn : ((s.x1 - s.x0) * (y - s.y0)).natAbs ≤ 2 ^ 68 := natAbs_mul_le (by omega) (by omega)
  rw [columnAt, check_int128 (by omega), ok_bind,
    roundQuotient_eq (by omega) (by omega) (by omega)]
  rfl

theorem Near.rowAt_eq (hs : s.Near) (hx : x.natAbs ≤ 2 ^ 33) (hne : s.x0 ≠ s.x1) :
    s.rowAt x = .ok (s.rowNear x) :=
  hs.transpose.columnAt_eq hx hne

/-- Both ends count alike. -/
theorem columnNear_swap (hne : s.y0 ≠ s.y1) (y : Int) : s.swap.columnNear y = s.columnNear y := by
  have hn : (s.x0 - s.x1) * (y - s.y1) =
      -((s.x1 - s.x0) * (y - s.y0) + (s.x0 - s.x1) * (s.y1 - s.y0)) := by ring
  simp only [columnNear, swap]
  rw [hn, show s.y0 - s.y1 = -(s.y1 - s.y0) by omega, nearest_neg_neg,
    nearest_add_mul (by omega)]
  omega

theorem Near.columnAt_swap (hs : s.Near) (hy : y.natAbs ≤ 2 ^ 33) :
    s.swap.columnAt y = s.columnAt y := by
  by_cases hne : s.y0 = s.y1
  · -- both stop at the zero divisor
    have hstop : ∀ t : Segment, t.Near → t.y0 = t.y1 → t.columnAt y = .error .divisionByZero := by
      intro t h ht
      obtain ⟨h₁, h₂, h₃, h₄⟩ := h
      have hn : ((t.x1 - t.x0) * (y - t.y0)).natAbs ≤ 2 ^ 68 := natAbs_mul_le (by omega) (by omega)
      rw [columnAt, check_int128 (by omega), ok_bind, show t.y1 - t.y0 = 0 by omega,
        roundQuotient_zero (by omega)]
      rfl
    rw [hstop s hs hne, hstop s.swap hs.swap hne.symm]
  · rw [hs.columnAt_eq hy hne, hs.swap.columnAt_eq hy (Ne.symm hne), columnNear_swap hne]

theorem Near.rowAt_swap (hs : s.Near) (hx : x.natAbs ≤ 2 ^ 33) : s.swap.rowAt x = s.rowAt x :=
  hs.transpose.columnAt_swap hx

/-! Meeting points and the side of the line on which a pixel lies. -/

theorem columnNear_of_rising (hy : s.y0 < s.y1) :
    (0 ≤ s.turn x y → x ≤ s.columnNear y) ∧ (s.turn x y ≤ 0 → s.columnNear y ≤ x) := by
  have hturn : (s.x1 - s.x0) * (y - s.y0) = s.turn x y + (x - s.x0) * (s.y1 - s.y0) := by
    rw [turn]
    ring
  constructor
  · intro h
    have hle := le_nearest (show 0 < s.y1 - s.y0 by omega)
      (show (x - s.x0) * (s.y1 - s.y0) ≤ (s.x1 - s.x0) * (y - s.y0) by omega)
    simp only [columnNear]
    omega
  · intro h
    have hle := nearest_le (show 0 < s.y1 - s.y0 by omega)
      (show (s.x1 - s.x0) * (y - s.y0) ≤ (x - s.x0) * (s.y1 - s.y0) by omega)
    simp only [columnNear]
    omega

theorem turn_swap (s : Segment) (x y : Int) : s.swap.turn x y = -s.turn x y := by
  simp only [turn, swap]
  ring

theorem turn_first (s : Segment) : s.turn s.x0 s.y0 = 0 := by
  rw [turn]
  ring

theorem turn_second (s : Segment) : s.turn s.x1 s.y1 = 0 := by
  rw [turn]
  ring

theorem columnNear_of_falling (hy : s.y1 < s.y0) :
    (0 ≤ s.turn x y → s.columnNear y ≤ x) ∧ (s.turn x y ≤ 0 → x ≤ s.columnNear y) := by
  obtain ⟨h₁, h₂⟩ := columnNear_of_rising (s := s.swap) (x := x) (y := y) hy
  rw [turn_swap, columnNear_swap (by omega)] at h₁ h₂
  exact ⟨fun h => h₂ (by omega), fun h => h₁ (by omega)⟩

theorem turn_transpose (s : Segment) (x y : Int) : s.transpose.turn y x = -s.turn x y := by
  simp only [turn, transpose]
  ring

/-- Meeting points are not further than half a pixel from the line. -/
theorem turn_columnNear (hne : s.y0 ≠ s.y1) (y : Int) :
    2 * (s.turn (s.columnNear y) y).natAbs ≤ (s.y1 - s.y0).natAbs := by
  have hnear := nearest_near (show s.y1 - s.y0 ≠ 0 by omega) ((s.x1 - s.x0) * (y - s.y0))
  rw [show s.turn (s.columnNear y) y = (s.x1 - s.x0) * (y - s.y0) -
      nearest ((s.x1 - s.x0) * (y - s.y0)) (s.y1 - s.y0) * (s.y1 - s.y0) by
    rw [turn, columnNear]
    ring]
  exact hnear

theorem turn_rowNear (hne : s.x0 ≠ s.x1) (x : Int) :
    2 * (s.turn x (s.rowNear x)).natAbs ≤ (s.x1 - s.x0).natAbs := by
  have hnear := turn_columnNear (s := s.transpose) hne x
  rw [turn_transpose, Int.natAbs_neg] at hnear
  exact hnear

theorem rowNear_of_rising (hx : s.x0 < s.x1) :
    (0 ≤ s.turn x y → s.rowNear x ≤ y) ∧ (s.turn x y ≤ 0 → y ≤ s.rowNear x) := by
  obtain ⟨h₁, h₂⟩ := columnNear_of_rising (s := s.transpose) (x := y) (y := x) hx
  rw [turn_transpose] at h₁ h₂
  exact ⟨fun h => h₂ (by omega), fun h => h₁ (by omega)⟩

theorem rowNear_of_falling (hx : s.x1 < s.x0) :
    (0 ≤ s.turn x y → y ≤ s.rowNear x) ∧ (s.turn x y ≤ 0 → s.rowNear x ≤ y) := by
  obtain ⟨h₁, h₂⟩ := columnNear_of_falling (s := s.transpose) (x := y) (y := x) hx
  rw [turn_transpose] at h₁ h₂
  exact ⟨fun h => h₂ (by omega), fun h => h₁ (by omega)⟩

/-- Along a line that rises to the right the meeting points go to the right. -/
theorem columnNear_mono {y' : Int} (h : s.y0 < s.y1 ∧ s.x0 ≤ s.x1 ∨ s.y1 < s.y0 ∧ s.x1 ≤ s.x0)
    (hle : y ≤ y') : s.columnNear y ≤ s.columnNear y' := by
  have hrising : ∀ t : Segment, t.y0 < t.y1 → t.x0 ≤ t.x1 → t.columnNear y ≤ t.columnNear y' := by
    intro t hy hx
    have hn := Int.mul_le_mul_of_nonneg_left (show y - t.y0 ≤ y' - t.y0 by omega)
      (show 0 ≤ t.x1 - t.x0 by omega)
    have hq := nearest_mono (show 0 < t.y1 - t.y0 by omega) hn
    simp only [columnNear]
    omega
  rcases h with ⟨hy, hx⟩ | ⟨hy, hx⟩
  · exact hrising s hy hx
  · have hswap := hrising s.swap hy hx
    rwa [columnNear_swap (by omega), columnNear_swap (by omega)] at hswap

/-- Along a line that rises to the left the meeting points go to the left. -/
theorem columnNear_anti {y' : Int} (h : s.y0 < s.y1 ∧ s.x1 ≤ s.x0 ∨ s.y1 < s.y0 ∧ s.x0 ≤ s.x1)
    (hle : y ≤ y') : s.columnNear y' ≤ s.columnNear y := by
  have hrising : ∀ t : Segment, t.y0 < t.y1 → t.x1 ≤ t.x0 → t.columnNear y' ≤ t.columnNear y := by
    intro t hy hx
    have hn := Int.mul_le_mul_of_nonpos_left (show t.x1 - t.x0 ≤ 0 by omega)
      (show y - t.y0 ≤ y' - t.y0 by omega)
    have hq := nearest_mono (show 0 < t.y1 - t.y0 by omega) hn
    simp only [columnNear]
    omega
  rcases h with ⟨hy, hx⟩ | ⟨hy, hx⟩
  · exact hrising s hy hx
  · have hswap := hrising s.swap hy hx
    rwa [columnNear_swap (by omega), columnNear_swap (by omega)] at hswap

theorem columnNear_first (hne : s.y0 ≠ s.y1) : s.columnNear s.y0 = s.x0 := by
  rw [columnNear, Int.sub_self, Int.mul_zero, nearest_zero (by omega), Int.add_zero]

theorem columnNear_second (hne : s.y0 ≠ s.y1) : s.columnNear s.y1 = s.x1 := by
  rw [columnNear, nearest_mul (by omega)]
  omega

/-- Meeting points are in order along the line. -/
theorem columnNear_spans (hne : s.y0 ≠ s.y1) {a b : Int} (h₀ : min a b ≤ y) (h₁ : y ≤ max a b) :
    min (s.columnNear a) (s.columnNear b) ≤ s.columnNear y ∧
      s.columnNear y ≤ max (s.columnNear a) (s.columnNear b) := by
  have hlow : a ≤ y ∨ b ≤ y := by omega
  have hhigh : y ≤ a ∨ y ≤ b := by omega
  by_cases h : s.y0 < s.y1 ∧ s.x0 ≤ s.x1 ∨ s.y1 < s.y0 ∧ s.x1 ≤ s.x0
  · have h₂ := hlow.imp (columnNear_mono h) (columnNear_mono h)
    have h₃ := hhigh.imp (columnNear_mono h) (columnNear_mono h)
    omega
  · have h : s.y0 < s.y1 ∧ s.x1 ≤ s.x0 ∨ s.y1 < s.y0 ∧ s.x0 ≤ s.x1 := by omega
    have h₂ := hlow.imp (columnNear_anti h) (columnNear_anti h)
    have h₃ := hhigh.imp (columnNear_anti h) (columnNear_anti h)
    omega

/-- A meeting point lies between the ends. -/
theorem columnNear_between (hne : s.y0 ≠ s.y1) (h₀ : min s.y0 s.y1 ≤ y) (h₁ : y ≤ max s.y0 s.y1) :
    min s.x0 s.x1 ≤ s.columnNear y ∧ s.columnNear y ≤ max s.x0 s.x1 := by
  have hspans := columnNear_spans hne h₀ h₁
  rwa [columnNear_first hne, columnNear_second hne] at hspans

theorem rowNear_spans (hne : s.x0 ≠ s.x1) {a b : Int} (h₀ : min a b ≤ x) (h₁ : x ≤ max a b) :
    min (s.rowNear a) (s.rowNear b) ≤ s.rowNear x ∧
      s.rowNear x ≤ max (s.rowNear a) (s.rowNear b) :=
  columnNear_spans (s := s.transpose) hne h₀ h₁

theorem rowNear_between (hne : s.x0 ≠ s.x1) (h₀ : min s.x0 s.x1 ≤ x) (h₁ : x ≤ max s.x0 s.x1) :
    min s.y0 s.y1 ≤ s.rowNear x ∧ s.rowNear x ≤ max s.y0 s.y1 :=
  columnNear_between (s := s.transpose) hne h₀ h₁

/-! The sides of a box between the ends. -/

/-- The points are the ends of the line, in either order. -/
def Joins (s : Segment) (p q : Int × Int) : Prop :=
  p = (s.x0, s.y0) ∧ q = (s.x1, s.y1) ∨ p = (s.x1, s.y1) ∧ q = (s.x0, s.y0)

/-- The line passes the corner of the box between row side `r` and column side `k`: one point lies
beyond `r` only, the other beyond `k` only. -/
def AtCorner (w h : Int) (r k : Side) (p q : Int × Int) : Prop :=
  r.Beyond h p.2 ∧ ¬ k.Beyond w p.1 ∧ k.Beyond w q.1 ∧ ¬ r.Beyond h q.2

namespace Joins
variable {w h : Int} {p q : Int × Int} {r k : Side}

theorem transpose (hj : s.Joins p q) : s.transpose.Joins (p.2, p.1) (q.2, q.1) := by
  rcases hj with ⟨rfl, rfl⟩ | ⟨rfl, rfl⟩
  · exact Or.inl ⟨rfl, rfl⟩
  · exact Or.inr ⟨rfl, rfl⟩

theorem symm (hj : s.Joins p q) : s.Joins q p := by
  rcases hj with ⟨hp, hq⟩ | ⟨hp, hq⟩
  · exact Or.inr ⟨hq, hp⟩
  · exact Or.inl ⟨hq, hp⟩

theorem columnAt_eq (hj : s.Joins p q) (hs : s.Near) (hh : h.natAbs ≤ 2 ^ 32) (hp : r.Beyond h p.2)
    (hq : ¬ r.Beyond h q.2) : s.columnAt (r.edge h) = .ok (s.columnNear (r.edge h)) := by
  refine hs.columnAt_eq ?_ ?_
  · cases r <;> simp only [Side.edge] <;> omega
  · rcases hj with ⟨rfl, rfl⟩ | ⟨rfl, rfl⟩ <;> intro he <;> simp only [he] at hp hq <;> exact hq hp

theorem rowAt_eq (hj : s.Joins p q) (hs : s.Near) (hw : w.natAbs ≤ 2 ^ 32) (hp : k.Beyond w p.1)
    (hq : ¬ k.Beyond w q.1) : s.rowAt (k.edge w) = .ok (s.rowNear (k.edge w)) := by
  refine hs.rowAt_eq ?_ ?_
  · cases k <;> simp only [Side.edge] <;> omega
  · rcases hj with ⟨rfl, rfl⟩ | ⟨rfl, rfl⟩ <;> intro he <;> simp only [he] at hp hq <;> exact hq hp

/-- Where the line meets a row side it is not beyond a column side that no end is beyond. -/
theorem column_between (hj : s.Joins p q) (hp : r.Beyond h p.2) (hq : ¬ r.Beyond h q.2)
    (hk : k.Beyond w (s.columnNear (r.edge h))) : k.Beyond w p.1 ∨ k.Beyond w q.1 := by
  have hbetween := columnNear_between (s := s) (y := r.edge h)
  rcases hj with ⟨rfl, rfl⟩ | ⟨rfl, rfl⟩ <;> cases r <;> cases k <;>
    simp only [Side.Beyond, Side.excess, Side.edge] at * <;> omega

theorem row_between (hj : s.Joins p q) (hp : k.Beyond w p.1) (hq : ¬ k.Beyond w q.1)
    (hr : r.Beyond h (s.rowNear (k.edge w))) : r.Beyond h p.2 ∨ r.Beyond h q.2 := by
  have hbetween := rowNear_between (s := s) (x := k.edge w)
  rcases hj with ⟨rfl, rfl⟩ | ⟨rfl, rfl⟩ <;> cases r <;> cases k <;>
    simp only [Side.Beyond, Side.excess, Side.edge] at * <;> omega

/-- A line from beyond both sides of a corner that is beyond the column side where it meets the row
side has passed the row side where it meets the column side. -/
theorem outer (hj : s.Joins p q) (hr : r.Beyond h p.2) (hk : k.Beyond w p.1)
    (hr' : ¬ r.Beyond h q.2) (hk' : ¬ k.Beyond w q.1)
    (hout : k.Beyond w (s.columnNear (r.edge h))) : ¬ r.Beyond h (s.rowNear (k.edge w)) := by
  -- both meeting points tell on which side of the line the corner pixel lies
  have h₁ := columnNear_of_rising (s := s) (x := k.edge w) (y := r.edge h)
  have h₂ := columnNear_of_falling (s := s) (x := k.edge w) (y := r.edge h)
  have h₃ := rowNear_of_rising (s := s) (x := k.edge w) (y := r.edge h)
  have h₄ := rowNear_of_falling (s := s) (x := k.edge w) (y := r.edge h)
  rcases hj with ⟨rfl, rfl⟩ | ⟨rfl, rfl⟩ <;> cases r <;> cases k <;>
    simp only [Side.Beyond, Side.excess, Side.edge] at * <;> omega

/-- A line around a corner that is beyond the column side where it meets the row side is not before
the row side where it meets the column side, and the other way round. -/
theorem corner (hj : s.Joins p q) (hc : AtCorner w h r k p q) :
    (k.Beyond w (s.columnNear (r.edge h)) → 0 ≤ r.excess h (s.rowNear (k.edge w))) ∧
      (r.Beyond h (s.rowNear (k.edge w)) → 0 ≤ k.excess w (s.columnNear (r.edge h))) := by
  have h₁ := columnNear_of_rising (s := s) (x := k.edge w) (y := r.edge h)
  have h₂ := columnNear_of_falling (s := s) (x := k.edge w) (y := r.edge h)
  have h₃ := rowNear_of_rising (s := s) (x := k.edge w) (y := r.edge h)
  have h₄ := rowNear_of_falling (s := s) (x := k.edge w) (y := r.edge h)
  rcases hj with ⟨rfl, rfl⟩ | ⟨rfl, rfl⟩ <;> cases r <;> cases k <;>
    simp only [AtCorner, Side.Beyond, Side.excess, Side.edge] at * <;> omega

/-- Past a corner a line to beyond both sides of the next one stays beyond the column side. -/
theorem far (hh : 0 < h) (hj : s.Joins p q) (hc : AtCorner w h r k p q) (hq : r.opposite.Beyond h q.2)
    (hout : k.Beyond w (s.columnNear (r.edge h))) :
    k.Beyond w (s.columnNear (r.opposite.edge h)) := by
  have hle : 0 ≤ h - 1 := by omega
  have h₁ : _ → s.columnNear 0 ≤ s.columnNear (h - 1) := fun hs => columnNear_mono hs hle
  have h₂ : _ → s.columnNear (h - 1) ≤ s.columnNear 0 := fun hs => columnNear_anti hs hle
  rcases hj with ⟨rfl, rfl⟩ | ⟨rfl, rfl⟩ <;> cases r <;> cases k <;>
    simp only [AtCorner, Side.opposite, Side.Beyond, Side.excess, Side.edge] at * <;> omega

end Joins

end Segment

end Raster
