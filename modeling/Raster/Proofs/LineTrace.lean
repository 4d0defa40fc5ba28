import Mathlib.Algebra.Order.Field.Basic
import Mathlib.Data.Rat.Cast.Order
import Mathlib.Tactic.FieldSimp
import Mathlib.Tactic.Linarith
import Raster.Proofs.Line

/- The points that a line inside the frame covers. Against the exact line, which has rational rows,
   a line along the columns sets the nearest row in each column; halfway between two rows
   it takes the one toward the nearer end, and both in its middle (`Follows`). The walk
   from both ends sets these points and no others (`Slope.follows_iff_step`): by the
   offset of a point from the line, in units of the length, the first half of the walk
   rounds halves toward its own end and the second half does so too. `Traces` says this
   along the longer axis (`covers_iff`). -/
namespace Raster

namespace Segment

/-- The exact row of the line in column `x`. -/
def rowExact (s : Segment) (x : Int) : ℚ := s.y0 + (s.y1 - s.y0) * (x - s.x0) / (s.x1 - s.x0)

/-- The row `y` is nearest to the line in column `x` between the ends. If two rows are equally near
it lies on the side of the nearer end. -/
@[mk_iff follows_def]
structure Follows (s : Segment) (x y : Int) : Prop where
  left : min s.x0 s.x1 ≤ x
  right : x ≤ max s.x0 s.x1
  near : |y - s.rowExact x| ≤ 1 / 2
  first : |y - s.rowExact x| = 1 / 2 → (x - s.x0).natAbs < (x - s.x1).natAbs →
    0 < (y - s.rowExact x) * (s.y0 - s.rowExact x)
  second : |y - s.rowExact x| = 1 / 2 → (x - s.x1).natAbs < (x - s.x0).natAbs →
    0 < (y - s.rowExact x) * (s.y1 - s.rowExact x)

instance (s : Segment) (x y : Int) : Decidable (s.Follows x y) := decidable_of_iff' _ (follows_def ..)

/-- The line is not higher than wide. -/
def Wide (s : Segment) : Prop := (s.y1 - s.y0).natAbs ≤ (s.x1 - s.x0).natAbs

instance (s : Segment) : Decidable s.Wide := inferInstanceAs (Decidable (_ ≤ _))

/-- The point is nearest to the line on its longer axis. -/
def Traces (s : Segment) (x y : Int) : Prop :=
  if s.Wide then s.Follows x y else s.transpose.Follows y x

instance (s : Segment) (x y : Int) : Decidable (s.Traces x y) :=
  inferInstanceAs (Decidable (if s.Wide then s.Follows x y else s.transpose.Follows y x))

/-- The ends differ. -/
def Proper (s : Segment) : Prop := ¬ (s.x0 = s.x1 ∧ s.y0 = s.y1)

variable {s : Segment} {x y : Int}

/-! The distance to the line in integers. -/

theorem sub_rowExact (hx : s.x0 ≠ s.x1) (x y : Int) :
    (y : ℚ) - s.rowExact x = (s.turn x y : ℚ) / ((s.x1 - s.x0 : Int) : ℚ) := by
  have hne : (s.x1 : ℚ) - s.x0 ≠ 0 := by
    rw [sub_ne_zero]
    exact_mod_cast hx.symm
  rw [rowExact, turn]
  push_cast
  field_simp
  ring

theorem abs_sub_rowExact (hx : s.x0 ≠ s.x1) (x y : Int) :
    |(y : ℚ) - s.rowExact x| = ((s.turn x y).natAbs : ℚ) / ((s.x1 - s.x0).natAbs : ℚ) := by
  rw [sub_rowExact hx, abs_div, Nat.cast_natAbs, Nat.cast_natAbs, Int.cast_abs, Int.cast_abs]

theorem length_cast_pos (hx : s.x0 ≠ s.x1) : (0 : ℚ) < ((s.x1 - s.x0).natAbs : ℚ) := by
  exact_mod_cast (show 0 < (s.x1 - s.x0).natAbs by omega)

theorem abs_sub_rowExact_le_half (hx : s.x0 ≠ s.x1) (x y : Int) :
    |(y : ℚ) - s.rowExact x| ≤ 1 / 2 ↔ 2 * (s.turn x y).natAbs ≤ (s.x1 - s.x0).natAbs := by
  rw [abs_sub_rowExact hx, div_le_div_iff₀ (length_cast_pos hx) (by norm_num), one_mul, mul_comm]
  exact_mod_cast Iff.rfl

theorem abs_sub_rowExact_eq_half (hx : s.x0 ≠ s.x1) (x y : Int) :
    |(y : ℚ) - s.rowExact x| = 1 / 2 ↔ 2 * (s.turn x y).natAbs = (s.x1 - s.x0).natAbs := by
  rw [abs_sub_rowExact hx, div_eq_div_iff (length_cast_pos hx).ne' (by norm_num), one_mul, mul_comm]
  exact_mod_cast Iff.rfl

/-- Two rows lie on one side of the line. -/
theorem sub_rowExact_mul_pos (hx : s.x0 ≠ s.x1) (x y y' : Int) :
    0 < ((y : ℚ) - s.rowExact x) * (y' - s.rowExact x) ↔ 0 < s.turn x y * s.turn x y' := by
  have hne : ((s.x1 - s.x0 : Int) : ℚ) ≠ 0 := by exact_mod_cast (show s.x1 - s.x0 ≠ 0 by omega)
  rw [sub_rowExact hx, sub_rowExact hx, div_mul_div_comm,
    div_pos_iff_of_pos_right (mul_self_pos.2 hne)]
  exact_mod_cast Iff.rfl

theorem follows_iff (hx : s.x0 ≠ s.x1) : s.Follows x y ↔
    min s.x0 s.x1 ≤ x ∧ x ≤ max s.x0 s.x1 ∧ 2 * (s.turn x y).natAbs ≤ (s.x1 - s.x0).natAbs ∧
      (2 * (s.turn x y).natAbs = (s.x1 - s.x0).natAbs →
        ((x - s.x0).natAbs < (x - s.x1).natAbs → 0 < s.turn x y * s.turn x s.y0) ∧
          ((x - s.x1).natAbs < (x - s.x0).natAbs → 0 < s.turn x y * s.turn x s.y1)) := by
  rw [← abs_sub_rowExact_le_half hx, ← abs_sub_rowExact_eq_half hx, ← sub_rowExact_mul_pos hx,
    ← sub_rowExact_mul_pos hx]
  constructor
  · intro h
    exact ⟨h.left, h.right, h.near, fun htie => ⟨h.first htie, h.second htie⟩⟩
  · intro ⟨hleft, hright, hnear, htie⟩
    exact ⟨hleft, hright, hnear, fun h => (htie h).1, fun h => (htie h).2⟩

/-! Offsets that are whole rows. -/

/-- A multiple of `a` within half of it is zero. -/
theorem eq_zero_of_half {a k : Int} (ha : a ≠ 0) (h : 2 * (a * k).natAbs ≤ a.natAbs) : k = 0 := by
  by_contra hk
  rw [Int.natAbs_mul] at h
  have hle := Nat.mul_le_mul_left a.natAbs (show 1 ≤ k.natAbs by omega)
  omega

/-- Where the offset from the line is whole there is no tie. -/
theorem follows_of_multiple (hx : s.x0 ≠ s.x1) {k : Int} (hk : s.turn x y = (s.x1 - s.x0) * k) :
    s.Follows x y ↔ min s.x0 s.x1 ≤ x ∧ x ≤ max s.x0 s.x1 ∧ s.turn x y = 0 := by
  have hne : s.x1 - s.x0 ≠ 0 := by omega
  rw [follows_iff hx]
  constructor
  · intro ⟨hleft, hright, hnear, _⟩
    rw [hk] at hnear
    rw [hk, eq_zero_of_half hne hnear, Int.mul_zero]
    exact ⟨hleft, hright, rfl⟩
  · intro ⟨hleft, hright, hzero⟩
    rw [hzero]
    exact ⟨hleft, hright, by omega, fun htie => by omega⟩

theorem follows_level (hx : s.x0 ≠ s.x1) (hy : s.y0 = s.y1) :
    s.Follows x y ↔ y = s.y0 ∧ min s.x0 s.x1 ≤ x ∧ x ≤ max s.x0 s.x1 := by
  have hturn : s.turn x y = (s.x1 - s.x0) * (y - s.y0) := by
    rw [turn, show s.y1 - s.y0 = 0 by omega, Int.mul_zero, Int.zero_add]
  rw [follows_of_multiple hx hturn, hturn, Int.mul_eq_zero]
  omega

theorem turn_of_diagonal (hd : (s.x1 - s.x0).natAbs = (s.y1 - s.y0).natAbs) (x y : Int) :
    ∃ k, s.turn x y = (s.x1 - s.x0) * k ∧ (s.y1 - s.y0 = s.x1 - s.x0 ∧ k = s.x0 - x + (y - s.y0) ∨
      s.y1 - s.y0 = -(s.x1 - s.x0) ∧ k = x - s.x0 + (y - s.y0)) := by
  have hcase : s.y1 - s.y0 = s.x1 - s.x0 ∨ s.y1 - s.y0 = -(s.x1 - s.x0) := by omega
  rcases hcase with h | h
  · refine ⟨s.x0 - x + (y - s.y0), ?_, Or.inl ⟨h, rfl⟩⟩
    rw [turn, h]
    ring
  · refine ⟨x - s.x0 + (y - s.y0), ?_, Or.inr ⟨h, rfl⟩⟩
    rw [turn, h]
    ring

/-- Along a diagonal both axes agree. -/
theorem follows_diagonal (hx : s.x0 ≠ s.x1) (hd : (s.x1 - s.x0).natAbs = (s.y1 - s.y0).natAbs) :
    s.transpose.Follows y x ↔ s.Follows x y := by
  have hy : s.transpose.x0 ≠ s.transpose.x1 := by
    simp only [transpose]
    omega
  obtain ⟨k, hk, hcase⟩ := turn_of_diagonal hd x y
  obtain ⟨k', hk', -⟩ := turn_of_diagonal (s := s.transpose) hd.symm y x
  rw [follows_of_multiple hx hk, follows_of_multiple hy hk', turn_transpose, Int.neg_eq_zero,
    ← and_assoc, ← and_assoc]
  refine and_congr_left (fun h => ?_)
  rw [hk, Int.mul_eq_zero] at h
  simp only [transpose]
  omega

/-- Of two points near a wide line the rows are not further apart than the columns are, but for a
step in one column. -/
theorem rows_le_columns (hx : s.x0 ≠ s.x1) (hwide : s.Wide) {x' y' : Int}
    (h : 2 * (s.turn x y).natAbs ≤ (s.x1 - s.x0).natAbs)
    (h' : 2 * (s.turn x' y').natAbs ≤ (s.x1 - s.x0).natAbs) :
    (y' - y).natAbs ≤ max 1 (x' - x).natAbs := by
  have hne : s.x1 - s.x0 ≠ 0 := by omega
  have hsum : (s.x1 - s.x0) * (y' - y) =
      (s.y1 - s.y0) * (x' - x) + (s.turn x' y' - s.turn x y) := by
    rw [turn, turn]
    ring
  have hle : (s.x1 - s.x0).natAbs * (y' - y).natAbs ≤
      (s.y1 - s.y0).natAbs * (x' - x).natAbs + ((s.turn x' y').natAbs + (s.turn x y).natAbs) := by
    rw [← Int.natAbs_mul, ← Int.natAbs_mul, hsum]
    omega
  by_contra hfar
  have hrows : (s.x1 - s.x0).natAbs * ((x' - x).natAbs + 1) ≤
      (s.x1 - s.x0).natAbs * (y' - y).natAbs := Nat.mul_le_mul_left _ (by omega)
  rw [Nat.mul_add_one] at hrows
  by_cases hd : (s.x1 - s.x0).natAbs = (s.y1 - s.y0).natAbs
  · -- near a diagonal is on it
    obtain ⟨k, hk, -⟩ := turn_of_diagonal hd x y
    obtain ⟨k', hk', -⟩ := turn_of_diagonal hd x' y'
    rw [hk] at h
    rw [hk'] at h'
    rw [hk, hk', eq_zero_of_half hne h, eq_zero_of_half hne h', Int.mul_zero, ← hd] at hle
    omega
  · have hless : (s.y1 - s.y0).natAbs + 1 ≤ (s.x1 - s.x0).natAbs := by
      unfold Wide at hwide
      omega
    have hcolumns := Nat.mul_le_mul_right (x' - x).natAbs hless
    rw [Nat.add_one_mul] at hcolumns
    by_cases hcolumn : (x' - x).natAbs = 0
    · have htwo := Nat.mul_le_mul_left (s.x1 - s.x0).natAbs (show 2 ≤ (y' - y).natAbs by omega)
      rw [hcolumn] at hle
      omega
    · omega

/-! Both orders of the ends and both axes. -/

theorem follows_swap (hx : s.x0 ≠ s.x1) : s.swap.Follows x y ↔ s.Follows x y := by
  rw [follows_iff hx, follows_iff (s := s.swap) hx.symm, turn_swap, turn_swap, turn_swap]
  simp only [swap, Int.natAbs_neg, Int.neg_mul_neg]
  rw [Int.min_comm, Int.max_comm, ← Int.natAbs_neg (s.x0 - s.x1), Int.neg_sub]
  refine and_congr_right (fun _ => and_congr_right (fun _ => and_congr_right (fun _ => ?_)))
  exact forall_congr' (fun _ => and_comm)

theorem wide_total (s : Segment) : s.Wide ∨ s.transpose.Wide := Nat.le_total ..

theorem Proper.transpose (hs : s.Proper) : s.transpose.Proper := fun h => hs ⟨h.2, h.1⟩

theorem Proper.columns_ne (hs : s.Proper) (hwide : s.Wide) : s.x0 ≠ s.x1 := by
  unfold Proper Wide at *
  omega

theorem traces_of_wide (hwide : s.Wide) : s.Traces x y ↔ s.Follows x y := by
  rw [Traces, if_pos hwide]

theorem traces_of_tall (hs : s.Proper) (htall : s.transpose.Wide) :
    s.Traces x y ↔ s.transpose.Follows y x := by
  by_cases hwide : s.Wide
  · rw [traces_of_wide hwide]
    exact (follows_diagonal (hs.columns_ne hwide) (Nat.le_antisymm htall hwide)).symm
  · rw [Traces, if_neg hwide]

theorem traces_transpose (hs : s.Proper) : s.transpose.Traces y x ↔ s.Traces x y := by
  rcases s.wide_total with h | h
  · rw [traces_of_wide h, traces_of_tall hs.transpose h]
    rfl
  · rw [traces_of_wide h, traces_of_tall hs h]

end Segment

/-! The walk. -/

namespace Frame.Slope
open Segment
variable {t : Slope} {i k : Int}

/-- The line in major and minor coordinates. -/
def flat (t : Slope) : Segment := ⟨t.major0, t.minor0, t.major1, t.minor1⟩

/-- How far `k` minor steps after `i` major ones are from the line, in units of the length. -/
def offset (t : Slope) (i k : Int) : Int := t.length * k - i * t.rise

theorem direction_cases (t : Slope) : t.direction = 1 ∨ t.direction = -1 := by
  unfold direction
  split
  · exact Or.inl rfl
  · exact Or.inr rfl

theorem minor1_eq (t : Slope) : t.minor1 = t.minor0 + t.direction * t.rise := by
  unfold direction rise
  split_ifs <;> omega

theorem turn_flat (t : Slope) (i k : Int) :
    t.flat.turn (t.major0 + i) (t.minor0 + t.direction * k) = t.direction * t.offset i k := by
  simp only [turn, flat, t.minor1_eq, length, offset]
  ring

/-- The walk from the other end sees the line from its other side. -/
theorem offset_reverse (t : Slope) (i k : Int) :
    t.offset (t.length - i) (t.rise - k) = -t.offset i k := by
  simp only [offset]
  ring

/-- At a tie the line is off the row of its first end, which lies below. -/
theorem tie_first (hl : 0 < t.length) (hi : 0 ≤ i)
    (htie : 2 * (t.offset i k).natAbs = t.length.natAbs) :
    0 < t.offset i k * t.offset i 0 ↔ t.offset i k < 0 := by
  have hle : t.offset i 0 ≤ 0 := by
    have hmul := Int.mul_nonneg hi t.rise_nonneg
    rw [offset]
    omega
  have hne : t.offset i 0 ≠ 0 := by
    intro h
    have hoffset : t.offset i k = t.length * k := by
      rw [offset] at h ⊢
      omega
    rw [hoffset] at htie
    rw [eq_zero_of_half (by omega) (Nat.le_of_eq htie)] at htie
    omega
  rw [mul_pos_iff]
  omega

theorem tie_second (hl : 0 < t.length) (hi : i ≤ t.length)
    (htie : 2 * (t.offset i k).natAbs = t.length.natAbs) :
    0 < t.offset i k * t.offset i t.rise ↔ 0 < t.offset i k := by
  have hback := t.offset_reverse i k
  have hend := t.offset_reverse i t.rise
  rw [Int.sub_self] at hend
  have hfirst := tie_first hl (i := t.length - i) (k := t.rise - k) (by omega) (by omega)
  rw [hback, hend, Int.neg_mul_neg] at hfirst
  omega

/-- In the first half a tie takes the lower offset, in the second half the upper one. -/
theorem follows_flat (hl : 0 < t.length) (i k : Int) :
    t.flat.Follows (t.major0 + i) (t.minor0 + t.direction * k) ↔ 0 ≤ i ∧ i ≤ t.length ∧
      (2 * i ≤ t.length ∧ -t.length ≤ 2 * t.offset i k ∧ 2 * t.offset i k < t.length ∨
        t.length ≤ 2 * i ∧ -t.length < 2 * t.offset i k ∧ 2 * t.offset i k ≤ t.length) := by
  have hlength : t.length = t.major1 - t.major0 := rfl
  have hx : t.flat.x0 ≠ t.flat.x1 := by
    simp only [flat]
    omega
  have hfirst := t.turn_flat i 0
  have hsecond := t.turn_flat i t.rise
  rw [Int.mul_zero, Int.add_zero] at hfirst
  rw [← t.minor1_eq] at hsecond
  have hsquare : t.direction * t.direction = 1 := by
    rcases t.direction_cases with h | h <;> rw [h] <;> rfl
  have habs : (t.direction * t.offset i k).natAbs = (t.offset i k).natAbs := by
    rcases t.direction_cases with h | h <;> rw [h] <;> omega
  have hprod : ∀ a b : Int, t.direction * a * (t.direction * b) = a * b := by
    intro a b
    rw [mul_mul_mul_comm, hsquare, one_mul]
  rw [follows_iff hx, turn_flat]
  show _ ∧ _ ∧ _ ∧ (_ → (_ → 0 < _ * t.flat.turn _ t.minor0) ∧
    (_ → 0 < _ * t.flat.turn _ t.minor1)) ↔ _
  rw [hfirst, hsecond, hprod, hprod, habs]
  simp only [flat, ← hlength]
  constructor
  · intro ⟨hleft, hright, hnear, hside⟩
    by_cases htie : 2 * (t.offset i k).natAbs = t.length.natAbs
    · have ⟨h₁, h₂⟩ := hside htie
      rw [tie_first hl (by omega) htie] at h₁
      rw [tie_second hl (by omega) htie] at h₂
      omega
    · omega
  · intro ⟨h₀, h₁, hnear⟩
    refine ⟨by omega, by omega, by omega, fun htie => ?_⟩
    rw [tie_first hl h₀ htie, tie_second hl h₁ htie]
    omega

theorem drift_eq_iff (hl : 0 < t.length) : t.drift i = k ↔
    0 ≤ t.length / 2 + t.offset i k ∧ t.length / 2 + t.offset i k < t.length := by
  have hoffset : t.length / 2 + t.offset i k = t.length / 2 - i * t.rise + k * t.length := by
    rw [offset, Int.mul_comm k]
    omega
  rw [hoffset]
  constructor
  · rintro rfl
    exact error_bounds hl i
  · intro ⟨h₀, h₁⟩
    exact (eq_drift hl h₀ h₁).symm

/-- The steps from both ends to the middle follow the line. -/
theorem follows_iff_step (hl : 0 < t.length) {major minor : Int} :
    t.flat.Follows major minor ↔ ∃ i, 0 ≤ i ∧ i ≤ t.length / 2 ∧
      (major = t.major0 + i ∧ minor = t.minor0 + t.direction * t.drift i ∨
        major = t.major1 - i ∧ minor = t.minor1 - t.direction * t.drift i) := by
  have hlength : t.length = t.major1 - t.major0 := rfl
  obtain ⟨m, rfl⟩ : ∃ m, major = t.major0 + m := ⟨major - t.major0, by omega⟩
  obtain ⟨k, rfl⟩ : ∃ k, minor = t.minor0 + t.direction * k := by
    refine ⟨t.direction * (minor - t.minor0), ?_⟩
    rcases t.direction_cases with h | h <;> rw [h] <;> omega
  have hinj : ∀ a b, t.direction * a = t.direction * b ↔ b = a := by
    intro a b
    rcases t.direction_cases with h | h <;> rw [h] <;> omega
  have hup : ∀ i, t.minor0 + t.direction * k = t.minor0 + t.direction * t.drift i ↔
      t.drift i = k := by
    intro i
    rw [← hinj k]
    omega
  have hdown : ∀ i, t.minor0 + t.direction * k = t.minor1 - t.direction * t.drift i ↔
      t.drift i = t.rise - k := by
    intro i
    have hsame := hinj (t.rise - k) (t.drift i)
    rw [Int.mul_sub] at hsame
    rw [← hsame, t.minor1_eq]
    omega
  have hback := t.offset_reverse m k
  rw [follows_flat hl]
  simp only [hup, hdown, drift_eq_iff hl]
  constructor
  · rintro ⟨h₀, h₁, hnear | hnear⟩
    · exact ⟨m, h₀, by omega, Or.inl ⟨rfl, by omega⟩⟩
    · refine ⟨t.length - m, by omega, by omega, Or.inr ⟨by omega, ?_⟩⟩
      rw [hback]
      omega
  · rintro ⟨i, h₀, h₁, ⟨hm, hnear⟩ | ⟨hm, hnear⟩⟩
    · obtain rfl : m = i := by omega
      omega
    · obtain rfl : t.length - m = i := by omega
      rw [hback] at hnear
      omega

theorem exists_follows (hl : 0 < t.length) {major : Int} (h₀ : t.major0 ≤ major)
    (h₁ : major ≤ t.major1) : ∃ minor, t.flat.Follows major minor := by
  have hlength : t.length = t.major1 - t.major0 := rfl
  -- whichever half of the walk sets it
  by_cases hhalf : 2 * (major - t.major0) ≤ t.length
  · exact ⟨_, (follows_iff_step hl).2
      ⟨major - t.major0, by omega, by omega, Or.inl ⟨by omega, rfl⟩⟩⟩
  · exact ⟨_, (follows_iff_step hl).2
      ⟨t.major1 - major, by omega, by omega, Or.inr ⟨by omega, rfl⟩⟩⟩

theorem minor_between (hl : 0 < t.length) {major minor : Int} (h : t.flat.Follows major minor) :
    min t.minor0 t.minor1 ≤ minor ∧ minor ≤ max t.minor0 t.minor1 := by
  obtain ⟨i, h₀, h₁, hstep⟩ := (follows_iff_step hl).1 h
  obtain ⟨hd₀, hd₁⟩ := drift_bounds hl h₀ (show i ≤ t.length by omega)
  have hend := t.minor1_eq
  rcases t.direction_cases with h | h <;> rw [h] at hstep hend <;> omega

theorem eq_point {x y major minor : Int} : (x, y) = t.point major minor ↔
    (if t.steep then y else x) = major ∧ (if t.steep then x else y) = minor := by
  unfold point
  split <;> rw [Prod.mk.injEq]
  exact and_comm

end Frame.Slope

namespace Segment
open Raster.Frame
variable {s : Segment} {x y : Int}

/-- In each column between the ends a row follows the line. -/
theorem exists_follows (hx : s.x0 ≠ s.x1) (h₀ : min s.x0 s.x1 ≤ x) (h₁ : x ≤ max s.x0 s.x1) :
    ∃ y, s.Follows x y := by
  have hright : ∀ s : Segment, s.x0 < s.x1 → s.x0 ≤ x → x ≤ s.x1 → ∃ y, s.Follows x y := by
    intro s h h₀ h₁
    have hl : 0 < (⟨false, s.x0, s.y0, s.x1, s.y1⟩ : Slope).length := Int.sub_pos_of_lt h
    exact Slope.exists_follows hl h₀ h₁
  rcases Int.lt_or_gt_of_ne hx with h | h
  · exact hright s h (by omega) (by omega)
  · obtain ⟨y, hy⟩ := hright s.swap h (show s.x1 ≤ x by omega) (show x ≤ s.x0 by omega)
    exact ⟨y, (follows_swap hx).1 hy⟩

/-- It lies between the rows of the ends. -/
theorem Follows.between (hx : s.x0 ≠ s.x1) (h : s.Follows x y) :
    min s.y0 s.y1 ≤ y ∧ y ≤ max s.y0 s.y1 := by
  have hright : ∀ s : Segment, s.x0 < s.x1 → s.Follows x y →
      min s.y0 s.y1 ≤ y ∧ y ≤ max s.y0 s.y1 := by
    intro s h hs
    have hl : 0 < (⟨false, s.x0, s.y0, s.x1, s.y1⟩ : Slope).length := Int.sub_pos_of_lt h
    exact Slope.minor_between hl hs
  rcases Int.lt_or_gt_of_ne hx with hlt | hlt
  · exact hright s hlt h
  · have hback := hright s.swap hlt ((follows_swap hx).2 h)
    rwa [swap, Int.min_comm, Int.max_comm] at hback

theorem Traces.between (hs : s.Proper) (h : s.Traces x y) :
    (min s.x0 s.x1 ≤ x ∧ x ≤ max s.x0 s.x1) ∧ min s.y0 s.y1 ≤ y ∧ y ≤ max s.y0 s.y1 := by
  have hwide : ∀ {s : Segment} {x y : Int}, s.Proper → s.Wide → s.Follows x y →
      (min s.x0 s.x1 ≤ x ∧ x ≤ max s.x0 s.x1) ∧ min s.y0 s.y1 ≤ y ∧ y ≤ max s.y0 s.y1 :=
    fun hs hwide h => ⟨⟨h.left, h.right⟩, h.between (hs.columns_ne hwide)⟩
  rcases s.wide_total with h' | h'
  · exact hwide hs h' ((traces_of_wide h').1 h)
  · exact (hwide hs.transpose h' ((traces_of_tall hs h').1 h)).symm

/-- The walk along the longer axis traces the line. -/
theorem traces_ofSegment (hs : s.Proper) :
    (if (Slope.ofSegment s).steep then (Slope.ofSegment s).flat.Follows y x
      else (Slope.ofSegment s).flat.Follows x y) ↔ s.Traces x y := by
  by_cases htall : (s.x1 - s.x0).natAbs ≤ (s.y1 - s.y0).natAbs
  · rw [Slope.ofSegment, if_pos htall, traces_of_tall hs htall]
    by_cases hup : s.y0 ≤ s.y1
    · rw [if_pos hup]
      exact Iff.rfl
    · rw [if_neg hup]
      exact follows_swap (s := s.transpose) (show s.y0 ≠ s.y1 by omega)
  · have hwide : s.Wide := Nat.le_of_not_le htall
    rw [Slope.ofSegment, if_neg htall, traces_of_wide hwide]
    by_cases hright : s.x0 ≤ s.x1
    · rw [if_pos hright]
      exact Iff.rfl
    · rw [if_neg hright]
      exact follows_swap (show s.x0 ≠ s.x1 by omega)

/-- The points that a line between two points covers are those that trace it. -/
theorem covers_iff (hs : s.Proper) : s.Covers x y ↔ s.Traces x y := by
  by_cases hx : s.x0 = s.x1
  · have hy : s.y0 ≠ s.y1 := fun hy => hs ⟨hx, hy⟩
    have htall : s.transpose.Wide := by
      simp only [Wide, transpose]
      omega
    rw [Covers, if_pos hx, traces_of_tall hs htall, follows_level (s := s.transpose) hy hx]
    rfl
  by_cases hy : s.y0 = s.y1
  · have hwide : s.Wide := by
      simp only [Wide]
      omega
    rw [Covers, if_neg hx, if_pos hy, traces_of_wide hwide, follows_level hx hy]
  · have hl : 0 < (Slope.ofSegment s).length := by
      unfold Slope.ofSegment Slope.length
      split_ifs <;> dsimp only <;> omega
    rw [Covers, if_neg hx, if_neg hy, ← traces_ofSegment hs]
    simp only [Slope.OnStep, Slope.eq_point]
    rw [← Slope.follows_iff_step hl]
    split <;> exact Iff.rfl

theorem Covers.between (hc : s.Covers x y) :
    (min s.x0 s.x1 ≤ x ∧ x ≤ max s.x0 s.x1) ∧ min s.y0 s.y1 ≤ y ∧ y ≤ max s.y0 s.y1 := by
  by_cases hs : s.Proper
  · exact ((covers_iff hs).1 hc).between hs
  · unfold Proper at hs
    rw [Covers, if_pos (by omega)] at hc
    omega

theorem covers_transpose : s.transpose.Covers y x ↔ s.Covers x y := by
  by_cases hs : s.Proper
  · rw [covers_iff hs, covers_iff hs.transpose, traces_transpose hs]
  · have hpoint : s.x0 = s.x1 ∧ s.y0 = s.y1 := by
      unfold Proper at hs
      omega
    rw [Covers, Covers, if_pos hpoint.1, if_pos (show s.transpose.x0 = s.transpose.x1 from hpoint.2)]
    simp only [transpose]
    omega

end Segment

end Raster
