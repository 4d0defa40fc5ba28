import Raster.Proofs.Coverage

/- What a line with partial coverage mixes. At each pixel of its major axis the line mixes
   two pixels of the minor axis, the one that holds its position there and the next one,
   by the part of the position above the first: that is what a strip of one unit around
   the position covers of them, and nothing of all others (`share_strip`). So a line mixes every
   pixel by its share in the extent of the line and its share in that strip
   (`Slant.weight`, `Addressable.slant_mixes`). Along an axis the strip is one area
   (`Slant.weight_row`, `Slant.weight_column`), and the line is the run of unit thickness
   (`softLine_straight`). -/
namespace Raster

namespace Fixed

/-- A strip of one unit around a position lies in the pixel that holds the position and the next one. -/
theorem share_strip (m k : Int) : share (m - 128) (m + 128) k =
    if k = m / 256 then 256 - m % 256 else if k = m / 256 + 1 then m % 256 else 0 := by
  unfold share
  split_ifs <;> omega

theorem share_self (a i : Int) : share a a i = 0 := by
  unfold share
  omega

theorem wrap64_eq {v : Int} (h : v.natAbs ≤ 2 ^ 62) : wrap64 v = v :=
  Int.bmod_eq_of_le (by omega) (by omega)

end Fixed

namespace Frame
open Fixed

namespace Slant
variable {s : Slant} {x y i : Int}

/-- The coordinate of a pixel along the major axis. -/
def major (s : Slant) (x y : Int) : Int := if s.steep then y else x

/-- The coordinate of a pixel along the minor axis. -/
def minor (s : Slant) (x y : Int) : Int := if s.steep then x else y

/-- The weight of a pixel: its share in the extent of the line along the major axis, and in the strip
of one unit around the line along the minor axis. -/
def weight (s : Slant) (x y : Int) : UInt8 :=
  coverageWeight (share s.major0 s.major1 (s.major x y))
    (share (s.position (s.major x y) - 128) (s.position (s.major x y) + 128) (s.minor x y))

/-- The ends of the line are not too far from zero. -/
structure Near (s : Slant) : Prop extends s.Ordered where
  major0_le : s.major0.natAbs ≤ 2 ^ 60
  major1_le : s.major1.natAbs ≤ 2 ^ 60
  minor0_le : s.minor0.natAbs ≤ 2 ^ 60

/-- The line moves along the minor axis no more than along the major one. -/
theorem Ordered.natAbs_position_le (hs : s.Ordered) (hlen : s.major0 < s.major1) (i : Int) :
    (s.position i).natAbs ≤ s.minor0.natAbs + (256 * i - s.major0).natAbs := by
  have hrise := hs.rise
  rw [position]
  generalize 256 * i - s.major0 = t
  generalize s.minor1 - s.minor0 = r at *
  have hprod : ((t * r).natAbs : Int) ≤ t.natAbs * (s.major1 - s.major0) := by
    rw [Int.natAbs_mul, Int.natCast_mul]
    exact Int.mul_le_mul_of_nonneg_left hrise (by omega)
  have hhigh : nearest (t * r) (s.major1 - s.major0) ≤ t.natAbs := nearest_le (by omega) (by omega)
  have hlow : -(t.natAbs : Int) ≤ nearest (t * r) (s.major1 - s.major0) :=
    le_nearest (by omega) (by rw [Int.neg_mul]; omega)
  omega

/-- No rounding and no wrapping to 64 bits changes the position near the frame. -/
theorem Near.minorAt_eq (hs : s.Near) (hlen : s.major0 < s.major1) (h₀ : 0 ≤ i) (h₁ : i ≤ 2 ^ 32) :
    s.minorAt (s.major1 - s.major0) (s.minor1 - s.minor0) i = .ok (s.position i) := by
  have hmajor := hs.major0_le
  have hminor := hs.minor0_le
  have hposition := hs.natAbs_position_le hlen i
  rw [hs.toOrdered.minorAt_eq hlen (by omega) (by unfold reach; omega), wrap64_eq (by omega)]

theorem along_near {x0 y0 x1 y1 : Int} (hx0 : x0.natAbs ≤ 2 ^ 60) (hy0 : y0.natAbs ≤ 2 ^ 60)
    (hx1 : x1.natAbs ≤ 2 ^ 60) (hy1 : y1.natAbs ≤ 2 ^ 60) : (along x0 y0 x1 y1).Near := by
  have hholds : ∀ v : Int, v.natAbs ≤ 2 ^ 60 → Bounds.int64.Holds v := by
    intro v hv
    simp only [Bounds.Holds, Bounds.int64]
    omega
  refine ⟨along_ordered (hholds x0 hx0) (hholds y0 hy0) (hholds x1 hx1) (hholds y1 hy1)
    (by unfold reach; omega) (by unfold reach; omega), ?_, ?_, ?_⟩ <;>
    unfold along <;> split_ifs <;> assumption

/-! Lines along an axis. -/

/-- A level line stays where it is. -/
theorem position_level (h : s.minor1 = s.minor0) (i : Int) : s.position i = s.minor0 := by
  rw [position, h, Int.sub_self, Int.mul_zero]
  by_cases hlen : s.major1 - s.major0 = 0
  · rw [hlen]
    exact Int.add_zero _
  · rw [nearest_zero hlen, Int.add_zero]

theorem along_row (x0 x1 y : Int) : along x0 y x1 y = ⟨false, min x0 x1, y, max x0 x1, y⟩ := by
  rw [along, if_neg (by omega)]
  by_cases hback : x1 < x0
  · rw [if_pos hback, min_eq_right hback.le, max_eq_left hback.le]
  · rw [if_neg hback, min_eq_left (by omega), max_eq_right (by omega)]

theorem along_column {y0 y1 : Int} (x : Int) (hlen : y0 ≠ y1) :
    along x y0 x y1 = ⟨true, min y0 y1, x, max y0 y1, x⟩ := by
  rw [along, if_pos (by omega)]
  by_cases hback : y1 < y0
  · rw [if_pos hback, min_eq_right hback.le, max_eq_left hback.le]
  · rw [if_neg hback, min_eq_left (by omega), max_eq_right (by omega)]

/-- A line along the columns is the area of a row. -/
theorem weight_row (x0 x1 y : Int) :
    (along x0 y x1 y).weight = (Area.between (x0, y) (x1, y) (0, 128)).weight := by
  funext i j
  rw [along_row, weight, position_level rfl, Area.weight_eq, Area.between]
  simp only [major, minor, Bool.false_eq_true, if_false, min_self, max_self, Int.sub_zero,
    Int.add_zero]

/-- A line along the rows is the area of a column. -/
theorem weight_column (x y0 y1 : Int) :
    (along x y0 x y1).weight = (Area.between (x, y0) (x, y1) (128, 0)).weight := by
  by_cases hlen : y0 = y1
  · -- without length both are empty
    subst hlen
    funext i j
    rw [weight_row, Area.weight_eq, Area.weight_eq, Area.between, Area.between]
    simp only [min_self, max_self, Int.sub_zero, Int.add_zero, share_self, coverageWeight_zero_left,
      coverageWeight_zero_right]
  · funext i j
    rw [along_column x hlen, weight, position_level rfl, coverageWeight_comm, Area.weight_eq,
      Area.between]
    simp only [major, minor, if_true, min_self, max_self, Int.sub_zero, Int.add_zero]

end Slant

section Addressable
variable {f : Frame} {b : Bytes} (hf : f.Addressable b.size) {s : Slant} (v : Pixel) {i : Int}

/-- Pixels of the frame are pixels of its sizes along both axes. -/
theorem Contains.along {x y : Int} (h : f.Contains x y) (s : Slant) :
    0 ≤ s.major x y ∧ s.major x y < s.majorSize f.width.toNat f.height.toNat ∧
      0 ≤ s.minor x y ∧ s.minor x y < s.majorSize f.height.toNat f.width.toNat := by
  obtain ⟨hx, hy, hw, hh⟩ := h
  unfold Slant.major Slant.minor Slant.majorSize
  split_ifs
  · exact ⟨hy, hh, hx, hw⟩
  · exact ⟨hx, hw, hy, hh⟩

include hf

/-- Two pixels beside the line are mixed by what a strip of one unit around `m` covers of them. -/
theorem Addressable.mixStrip_mixes (i m cover : Int) :
    Yields (f.mixAlong s.steep i (m / 256) v (coverageWeight cover (256 - m % 256)) b >>=
        f.mixAlong s.steep i (m / 256 + 1) v (coverageWeight cover (m % 256)))
      (f.Mixes v (fun x y => if s.major x y = i then
        coverageWeight cover (share (m - 128) (m + 128) (s.minor x y)) else 0) b) := by
  refine Yields.bind (hf.mixAlong_mixes v _ s.steep i (m / 256)) (fun c hc => ?_)
  have hf' : f.Addressable c.size := hc.keeps.size_eq.symm ▸ hf
  refine (hf'.mixAlong_mixes v _ s.steep i (m / 256 + 1)).mono (fun d hd => hc.trans hd ?_)
  intro x y _
  show (if s.major x y = i ∧ s.minor x y = m / 256 then _ else 0) = 0 ∧
      (if s.major x y = i ∧ s.minor x y = m / 256 + 1 then _ else 0) = _ ∨
    (if s.major x y = i ∧ s.minor x y = m / 256 then _ else 0) = _ ∧
      (if s.major x y = i ∧ s.minor x y = m / 256 + 1 then _ else 0) = 0
  rw [share_strip]
  by_cases hi : s.major x y = i
  · by_cases hm : s.minor x y = m / 256
    · apply Or.inr
      rw [if_pos ⟨hi, hm⟩, if_pos hi, if_pos hm, if_neg (by omega)]
      exact ⟨rfl, rfl⟩
    · apply Or.inl
      by_cases hm' : s.minor x y = m / 256 + 1
      · rw [if_neg (by omega), if_pos ⟨hi, hm'⟩, if_pos hi, if_neg hm, if_pos hm']
        exact ⟨rfl, rfl⟩
      · rw [if_neg (by omega), if_neg (by omega), if_pos hi, if_neg hm, if_neg hm',
          coverageWeight_zero_right]
        exact ⟨rfl, rfl⟩
  · apply Or.inl
    rw [if_neg (by omega), if_neg (by omega), if_neg hi]
    exact ⟨rfl, rfl⟩

/-- A step of the line mixes all pixels with its major coordinate. -/
theorem Addressable.mixStep_mixes (hs : s.Near) (hlen : s.major0 < s.major1) (h₀ : 0 ≤ i)
    (h₁ : i ≤ 2 ^ 32) :
    Yields (s.mixStep f (s.major1 - s.major0) (s.minor1 - s.minor0)
        (s.majorSize f.height.toNat f.width.toNat) v i b)
      (f.Mixes v (fun x y => if s.major x y = i then s.weight x y else 0) b) := by
  have hmajor0 := hs.major0_le
  have hmajor1 := hs.major1_le
  have hminor0 := hs.minor0_le
  have hposition := hs.natAbs_position_le hlen i
  -- at the pixels of the step the weight is the one that the step takes
  have hweight : ∀ x y, (if s.major x y = i then s.weight x y else 0) = if s.major x y = i then
      coverageWeight (share s.major0 s.major1 i)
        (share (s.position i - 128) (s.position i + 128) (s.minor x y)) else 0 := by
    intro x y
    by_cases hi : s.major x y = i
    · rw [if_pos hi, if_pos hi, Slant.weight, hi]
    · rw [if_neg hi, if_neg hi]
  simp only [hweight]
  rw [Slant.mixStep, overlap_eq_share (by omega) (by omega) h₀ h₁, ok_bind]
  by_cases hcover : share s.major0 s.major1 i = 0
  · rw [if_pos hcover]
    apply Yields.ok
    apply Mixes.none
    intro x y _
    rw [hcover, coverageWeight_zero_left, ite_self]
  rw [if_neg hcover, hs.minorAt_eq hlen h₀ h₁, ok_bind]
  generalize s.position i = m at *
  by_cases hout : floor m < -1 ∨ s.majorSize f.height.toNat f.width.toNat ≤ floor m
  · rw [if_pos hout]
    apply Yields.ok
    apply Mixes.none
    intro x y hxy
    obtain ⟨-, -, hlow, hhigh⟩ := hxy.along s
    unfold floor at hout
    rw [share_eq_zero (a := m - 128) (by omega), coverageWeight_zero_right, ite_self]
  · rw [if_neg hout]
    have hsize := s.majorSize_lt f.height f.width
    have hrest : m - ofInt (floor m) = m % 256 := by
      rw [ofInt_eq (by omega), floor]
      omega
    rw [hrest, check_int64 (by unfold reach; omega), ok_bind]
    exact hf.mixStrip_mixes v i m _

theorem Addressable.trace_mixes (hs : s.Near) :
    Yields (s.trace f v b) (f.Mixes v s.weight b) := by
  have hle := hs.le
  have hmajor0 := hs.major0_le
  have hmajor1 := hs.major1_le
  have hsize := s.majorSize_lt f.width f.height
  unfold Slant.trace
  by_cases h0 : s.major0 = s.major1
  · rw [if_pos h0]
    apply Yields.ok
    apply Mixes.none
    intro x y _
    rw [Slant.weight, h0, share_self, coverageWeight_zero_left]
  rw [if_neg h0, pixelOf_eq (by unfold reach; omega) (by unfold reach; omega), ok_bind,
    pixelOf_eq (by unfold reach; omega) (by unfold reach; omega), ok_bind]
  apply (Mixes.forRange s.major (fun i c h₀ h₁ hc => by
    have hf' : f.Addressable c.size := hc.symm ▸ hf
    exact hf'.mixStep_mixes v hs (i := i) (by omega) (by omega) (by omega))).mono
  intro c hc
  apply hc.congr
  intro x y hxy
  obtain ⟨hlow, hhigh, -, -⟩ := hxy.along s
  by_cases hin : max ((s.major0 + 128) / 256) 0 ≤ s.major x y ∧ s.major x y <
      min ((s.major1 + 128) / 256) (s.majorSize f.width.toNat f.height.toNat - 1) + 1
  · rw [if_pos hin]
  · -- the line ends before the pixel or begins after it
    rw [if_neg hin, Slant.weight, share_eq_zero (by omega), coverageWeight_zero_left]

/-- A line mixes every pixel by its weight. -/
theorem Addressable.slant_mixes {x0 y0 x1 y1 : Int} (hx0 : x0.natAbs ≤ 2 ^ 60)
    (hy0 : y0.natAbs ≤ 2 ^ 60) (hx1 : x1.natAbs ≤ 2 ^ 60) (hy1 : y1.natAbs ≤ 2 ^ 60) :
    Yields (f.slant x0 y0 x1 y1 v b) (f.Mixes v (Slant.along x0 y0 x1 y1).weight b) := by
  have hs := Slant.along_near hx0 hy0 hx1 hy1
  rw [slant_eq v hs.toOrdered (by unfold reach; omega) (by unfold reach; omega)]
  exact hf.trace_mixes v hs

theorem Addressable.softLine_mixes {x0 y0 x1 y1 : Int64} (hx0 : x0.toInt.natAbs ≤ 2 ^ 59)
    (hy0 : y0.toInt.natAbs ≤ 2 ^ 59) (hx1 : x1.toInt.natAbs ≤ 2 ^ 59)
    (hy1 : y1.toInt.natAbs ≤ 2 ^ 59) : Yields (f.softLine x0 y0 x1 y1 v b)
      (f.Mixes v (Slant.along (f.toRawFixed x0.toInt y0.toInt).1 (f.toRawFixed x0.toInt y0.toInt).2
        (f.toRawFixed x1.toInt y1.toInt).1 (f.toRawFixed x1.toInt y1.toInt).2).weight b) := by
  obtain ⟨h₁, h₂⟩ := f.natAbs_toRawFixed_le hx0 hy0
  obtain ⟨h₃, h₄⟩ := f.natAbs_toRawFixed_le hx1 hy1
  have hp := f.rawFixedPoint_eq (x := x0.toInt) (y := y0.toInt) (by omega) (by omega)
  have hq := f.rawFixedPoint_eq (x := x1.toInt) (y := y1.toInt) (by omega) (by omega)
  simp only [softLine, hp, hq, ok_bind]
  exact hf.slant_mixes v (by omega) (by omega) (by omega) (by omega)

section Straight
variable {x0 y0 x1 y1 : Int64} (hx0 : x0.toInt.natAbs ≤ 2 ^ 59) (hy0 : y0.toInt.natAbs ≤ 2 ^ 59)
include hx0 hy0

/-- A level line of the user is its row, along whichever axis of the buffer. -/
theorem Addressable.softLine_level (hx1 : x1.toInt.natAbs ≤ 2 ^ 59) :
    ∃ c, f.softLine x0 y0 x1 y0 v b = .ok c ∧ f.softHline x0 x1 y0 v b = .ok c := by
  have hline := hf.softLine_mixes v hx0 hy0 hx1 hy0
  have hrow := hf.userSoftRow_mixes v hx0 hy0 hx1
  refine hline.agree (hrow.mono (fun c hc => ?_)) (fun _ _ => Mixes.unique hf.toValid)
  convert hc using 1
  rw [Orientation.exchange]
  split_ifs with hswap
  · simp only [toRawFixed, Orientation.exchange, if_pos hswap]
    exact Slant.weight_column ..
  · simp only [toRawFixed, Orientation.exchange, if_neg hswap]
    exact Slant.weight_row ..

theorem Addressable.softLine_upright (hy1 : y1.toInt.natAbs ≤ 2 ^ 59) :
    ∃ c, f.softLine x0 y0 x0 y1 v b = .ok c ∧ f.softVline x0 y0 y1 v b = .ok c := by
  have hline := hf.softLine_mixes v hx0 hy0 hx0 hy1
  have hcolumn := hf.userSoftColumn_mixes v hx0 hy0 hy1
  refine hline.agree (hcolumn.mono (fun c hc => ?_)) (fun _ _ => Mixes.unique hf.toValid)
  convert hc using 1
  rw [Orientation.exchange]
  split_ifs with hswap
  · simp only [toRawFixed, Orientation.exchange, if_pos hswap]
    exact Slant.weight_row ..
  · simp only [toRawFixed, Orientation.exchange, if_neg hswap]
    exact Slant.weight_column ..

end Straight

end Addressable

end Frame

namespace Pixmap

/-- A line along an axis is the run of unit thickness between its ends. -/
theorem softLine_straight {p : Pixmap} (hp : p.Addressable) (s : Space) (v : Pixel)
    {x0 y0 x1 y1 : Int64} (hnear : (SoftDrawing.line x0 y0 x1 y1).Near) :
    (∃ q, p.draw s ((SoftDrawing.line x0 y0 x1 y0).paint v) = .ok q ∧
      p.draw s ((SoftDrawing.hline x0 x1 y0).paint v) = .ok q) ∧
    ∃ q, p.draw s ((SoftDrawing.line x0 y0 x0 y1).paint v) = .ok q ∧
      p.draw s ((SoftDrawing.vline x0 y0 y1).paint v) = .ok q := by
  have hf : (p.toFrame.seen s).Addressable p.bytes.size := Frame.Addressable.seen hp s
  simp only [SoftDrawing.Near, SoftDrawing.positions, List.forall_mem_cons] at hnear
  obtain ⟨hx0, hy0, hx1, hy1, -⟩ := hnear
  exact ⟨p.draw_agree (hf.softLine_level v (by omega) (by omega) (by omega)),
    p.draw_agree (hf.softLine_upright v (by omega) (by omega) (by omega))⟩

/-- A level line on a turned pixmap, whose pixels have four bits and start inside a byte, from left of it
and between two rows. -/
theorem softLine_straight_turned : ∃ p q : Pixmap, p.Addressable ∧
    (SoftDrawing.line (-200) 100 356 600).Near ∧
      p.draw .user ((SoftDrawing.line (-200) 100 356 100).paint 15) = .ok q ∧
        p.draw .user ((SoftDrawing.hline (-200) 356 100).paint 15) = .ok q ∧
          q.bytes = #[17, 17, 105, 17, 88, 17, 17, 17] := by
  let p : Pixmap :=
    ⟨⟨1, 3, 3, 2, 4, .g4ub, .rotated .identity .quarterTurn, none⟩, Array.replicate 8 17⟩
  have hp : p.Addressable := by
    refine ⟨⟨?_, ?_, ?_, ?_, ?_, ?_, ?_⟩, ?_, ?_⟩ <;> decide
  have hnear : (SoftDrawing.line (-200) 100 356 600).Near := by decide
  obtain ⟨⟨q, hline, hrow⟩, -⟩ := softLine_straight hp .user 15 hnear
  refine ⟨p, q, hp, hnear, hline, hrow, ?_⟩
  have hbytes : p.draw .user ((SoftDrawing.hline (-200) 356 100).paint 15) =
      .ok { p with bytes := #[17, 17, 105, 17, 88, 17, 17, 17] } := by rfl
  rw [hbytes] at hrow
  cases hrow
  rfl

end Pixmap

end Raster
