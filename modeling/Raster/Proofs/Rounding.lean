import Mathlib.Tactic.Ring
import Raster.Proofs.Outcome
import Raster.Quotient

/- The quotient rounded to the nearest integer, as a total function. `nearest n d` is
   what `roundQuotient n d` answers for a divisor that is not zero while its own numbers
   fit 128 bits (`roundQuotient_eq`). Rounding respects order and whole shifts, so that a
   quotient between two integers stays between them. -/
namespace Raster

/-- `n / d` to the nearest integer, halves up. -/
def nearest (n d : Int) : Int := (2 * (orient n d).1 + (orient n d).2) / (2 * (orient n d).2)

section Nearest
variable {n m d k : Int}

theorem orient_of_pos (hd : 0 < d) (n : Int) : orient n d = (n, d) := if_neg (by omega)

theorem nearest_of_pos (hd : 0 < d) (n : Int) : nearest n d = (2 * n + d) / (2 * d) := by
  rw [nearest, orient_of_pos hd]

/-- The sign may stand on either side. -/
theorem nearest_neg_neg (n d : Int) : nearest (-n) (-d) = nearest n d := by
  rcases Int.lt_trichotomy d 0 with h | h | h
  · simp only [nearest, orient, h, if_true, show ¬ -d < 0 by omega, if_false]
  · subst h
    simp [nearest, orient]
  · simp only [nearest, orient, show -d < 0 by omega, if_true, show ¬ d < 0 by omega, if_false,
      Int.neg_neg]

theorem nearest_mono (hd : 0 < d) (h : n ≤ m) : nearest n d ≤ nearest m d := by
  rw [nearest_of_pos hd, nearest_of_pos hd]
  exact Int.ediv_le_ediv (by omega) (by omega)

/-- Whole quotients are added after the rounding. -/
theorem nearest_add_mul (hd : d ≠ 0) (n k : Int) : nearest (n + k * d) d = nearest n d + k := by
  have hpos : ∀ d : Int, 0 < d → ∀ n k : Int, nearest (n + k * d) d = nearest n d + k := by
    intro d hd n k
    rw [nearest_of_pos hd, nearest_of_pos hd,
      show 2 * (n + k * d) + d = 2 * n + d + k * (2 * d) by rw [Int.mul_left_comm]; omega]
    exact Int.add_mul_ediv_right _ _ (by omega)
  -- the sign of a negative divisor goes to the other number
  rcases Int.lt_or_gt_of_ne hd with h | h
  · have hneg := hpos (-d) (by omega) (-n) k
    rw [nearest_neg_neg, show -n + k * -d = -(n + k * d) by rw [Int.mul_neg]; omega,
      nearest_neg_neg] at hneg
    exact hneg
  · exact hpos d h n k

theorem nearest_zero (hd : d ≠ 0) : nearest 0 d = 0 := by
  have hpos : ∀ d : Int, 0 < d → nearest 0 d = 0 := by
    intro d hd
    rw [nearest_of_pos hd]
    exact Int.ediv_eq_zero_of_lt (by omega) (by omega)
  rcases Int.lt_or_gt_of_ne hd with h | h
  · rw [← nearest_neg_neg]
    exact hpos (-d) (by omega)
  · exact hpos d h

theorem nearest_mul (hd : d ≠ 0) (k : Int) : nearest (k * d) d = k := by
  have h := nearest_add_mul hd 0 k
  rwa [nearest_zero hd, Int.zero_add, Int.zero_add] at h

/-- An integer below the quotient is below what it is rounded to. -/
theorem le_nearest (hd : 0 < d) (h : k * d ≤ n) : k ≤ nearest n d := by
  calc k = nearest (k * d) d := (nearest_mul (by omega) k).symm
    _ ≤ nearest n d := nearest_mono hd h

/-- An integer above the quotient is above what it is rounded to. -/
theorem nearest_le (hd : 0 < d) (h : n ≤ k * d) : nearest n d ≤ k := by
  calc nearest n d ≤ nearest (k * d) d := nearest_mono hd h
    _ = k := nearest_mul (by omega) k

/-- Rounding is off by half the divisor at most. -/
theorem nearest_near (hd : d ≠ 0) (n : Int) : 2 * (n - nearest n d * d).natAbs ≤ d.natAbs := by
  have hpos : ∀ d : Int, 0 < d → ∀ n : Int, 2 * (n - nearest n d * d).natAbs ≤ d.natAbs := by
    intro d hd n
    rw [nearest_of_pos hd]
    have hdiv := Int.mul_ediv_add_emod (2 * n + d) (2 * d)
    have hnonneg := Int.emod_nonneg (2 * n + d) (show 2 * d ≠ 0 by omega)
    have hlt := Int.emod_lt_of_pos (2 * n + d) (show 0 < 2 * d by omega)
    rw [Int.mul_assoc, Int.mul_comm d] at hdiv
    omega
  rcases Int.lt_or_gt_of_ne hd with h | h
  · have hneg := hpos (-d) (by omega) (-n)
    rw [nearest_neg_neg, Int.mul_neg] at hneg
    omega
  · exact hpos d h n

theorem check_int128 {v : Int} (h : v.natAbs < 2 ^ 127) : Bounds.int128.check v = .ok v :=
  Bounds.check_of_holds (by simp only [Bounds.Holds, Bounds.int128]; omega)

theorem roundQuotient_eq (hn : 2 * n.natAbs + d.natAbs < 2 ^ 127) (hd : 2 * d.natAbs < 2 ^ 127)
    (h0 : d ≠ 0) : roundQuotient n d = .ok (nearest n d) := by
  obtain ⟨n', d', ho, hn', hd', hpos⟩ : ∃ n' d', orient n d = (n', d') ∧
      2 * n'.natAbs + d'.natAbs < 2 ^ 127 ∧ 2 * d'.natAbs < 2 ^ 127 ∧ 0 < d' := by
    by_cases h : d < 0
    · exact ⟨-n, -d, if_pos h, by omega, by omega, by omega⟩
    · exact ⟨n, d, if_neg h, hn, hd, by omega⟩
  simp only [roundQuotient, nearest, ho, check_int128 (show (2 * n').natAbs < 2 ^ 127 by omega),
    check_int128 (show (2 * n' + d').natAbs < 2 ^ 127 by omega),
    check_int128 (show (2 * d').natAbs < 2 ^ 127 by omega), ok_bind,
    if_neg (show ¬ 2 * d' = 0 by omega)]

theorem roundQuotient_zero (hn : 2 * n.natAbs < 2 ^ 127) :
    roundQuotient n 0 = .error .divisionByZero := by
  simp only [roundQuotient, orient, Int.lt_irrefl, if_false,
    check_int128 (show (2 * n).natAbs < 2 ^ 127 by omega),
    check_int128 (show (2 * n + 0).natAbs < 2 ^ 127 by omega),
    check_int128 (show ((2 : Int) * 0).natAbs < 2 ^ 127 by decide), ok_bind]
  rfl

end Nearest

end Raster
