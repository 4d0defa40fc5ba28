import Mathlib.Algebra.Order.Field.Basic
import Mathlib.Data.Rat.Cast.Order
import Mathlib.Tactic.FieldSimp
import Mathlib.Tactic.Linarith
import Raster.Proofs.SoftTrace

/- How close a line with partial coverage stays to the exact line, which has rational
   positions and is continued beyond its ends (`Slant.exact`). The position that a step
   takes is off by half a unit at most (`Slant.position_near`), so that both pixels it
   mixes are less than one pixel away from the line (`Slant.weight_near`). They share the
   length of the line in the step, up to one unit that is lost to rounding
   (`Slant.exists_splits`). A line and the line from its end to its start are the same
   slant (`Slant.along_swap`); hence `Pixmap.softLine_accurate`. -/
namespace Raster

/-- The rounded quotient is nearest to the exact one. -/
theorem abs_nearest_sub_le {d : Int} (hd : 0 < d) (n : Int) :
    |(nearest n d : ℚ) - (n : ℚ) / (d : ℚ)| ≤ 1 / 2 := by
  have hround := nearest_near hd.ne' n
  have hpos : (0 : ℚ) < (d : ℚ) := by exact_mod_cast hd
  have hunits : |nearest n d * d - n| * 2 ≤ 1 * d := by
    rw [Int.abs_eq_natAbs]
    omega
  have hdiff : (nearest n d : ℚ) - (n : ℚ) / (d : ℚ) = ((nearest n d * d - n : Int) : ℚ) / d := by
    push_cast
    field_simp
  rw [hdiff, abs_div, abs_of_pos hpos, div_le_div_iff₀ hpos (by norm_num)]
  exact_mod_cast hunits

namespace Frame
open Fixed

namespace Slant
variable {s : Slant} {x y i j : Int}

/-- The exact position of the line on the minor axis at the center of pixel `i` of the major axis. -/
def exact (s : Slant) (i : Int) : ℚ :=
  s.minor0 + (256 * i - s.major0) * (s.minor1 - s.minor0) / (s.major1 - s.major0)

/-- The length of the line in pixel `i` of the major axis. -/
def cover (s : Slant) (i : Int) : Int := share s.major0 s.major1 i

/-- What pixel `j` of the minor axis gets of the length in pixel `i` of the major one. -/
def part (s : Slant) (i j : Int) : Int :=
  s.cover i * share (s.position i - 128) (s.position i + 128) j / 256

/-- Both ends may be the start of the line. -/
theorem along_swap (x0 y0 x1 y1 : Int) : along x1 y1 x0 y0 = along x0 y0 x1 y1 := by
  by_cases hsame : x0 = x1 ∧ y0 = y1
  · rw [hsame.1, hsame.2]
  · unfold along
    split_ifs <;> first | rfl | omega

/-- Rounding moves the line by half a unit at most. -/
theorem position_near (hlen : s.major0 < s.major1) (i : Int) :
    |(s.position i : ℚ) - s.exact i| ≤ 1 / 2 := by
  have hround := abs_nearest_sub_le (show 0 < s.major1 - s.major0 by omega)
    ((256 * i - s.major0) * (s.minor1 - s.minor0))
  rw [position, exact, Int.cast_add, add_sub_add_left_eq_sub]
  push_cast at hround ⊢
  exact hround

/-- What has weight lies in the extent of the line, and less than one pixel away from it. -/
theorem weight_near (h : s.weight x y ≠ 0) : 0 < s.cover (s.major x y) ∧
    |(256 * s.minor x y : ℚ) - s.exact (s.major x y)| < 256 := by
  have hcover : s.cover (s.major x y) ≠ 0 := by
    intro hzero
    rw [weight, ← cover, hzero, coverageWeight_zero_left] at h
    exact h rfl
  have hstrip : share (s.position (s.major x y) - 128) (s.position (s.major x y) + 128)
      (s.minor x y) ≠ 0 := by
    intro hzero
    rw [weight, hzero, coverageWeight_zero_right] at h
    exact h rfl
  have hpos : 0 < s.cover (s.major x y) := by
    unfold cover share at *
    omega
  have hlen : s.major0 < s.major1 := by
    unfold cover share at hpos
    omega
  generalize s.major x y = i at *
  have hnear := s.position_near hlen i
  have hunits : |256 * s.minor x y - s.position i| ≤ 255 := by
    rw [Int.abs_eq_natAbs]
    unfold share at hstrip
    omega
  have hunits' : |(256 * s.minor x y : ℚ) - s.position i| ≤ 255 := by exact_mod_cast hunits
  refine ⟨hpos, ?_⟩
  calc |(256 * s.minor x y : ℚ) - s.exact i|
      ≤ |(256 * s.minor x y : ℚ) - s.position i| + |(s.position i : ℚ) - s.exact i| :=
        abs_sub_le ..
    _ ≤ 255 + 1 / 2 := add_le_add hunits' hnear
    _ < 256 := by norm_num

/-- Step `i` is shared by the pixels `j` and `j + 1`, which lie on both sides of the line, to half a unit.
Together they get the length of the line in the step, or one unit less. -/
structure Splits (s : Slant) (i j : Int) : Prop where
  below : 256 * (j : ℚ) - 1 / 2 ≤ s.exact i
  above : s.exact i < 256 * (j + 1)
  sum : s.part i j + s.part i (j + 1) = s.cover i ∨ s.part i j + s.part i (j + 1) = s.cover i - 1
  others : ∀ k, k ≠ j → k ≠ j + 1 → s.part i k = 0

theorem exists_splits (h : 0 < s.cover i) : ∃ j, s.Splits i j := by
  have hlen : s.major0 < s.major1 := by
    unfold cover share at h
    omega
  obtain ⟨hlow, hhigh⟩ := abs_le.1 (s.position_near hlen i)
  have hlower : (256 * (s.position i / 256) : Int) ≤ s.position i := by omega
  have hupper : s.position i ≤ (256 * (s.position i / 256) + 255 : Int) := by omega
  have hlower' : (256 * (s.position i / 256 : Int) : ℚ) ≤ s.position i := by exact_mod_cast hlower
  have hupper' : (s.position i : ℚ) ≤ 256 * (s.position i / 256 : Int) + 255 := by
    exact_mod_cast hupper
  refine ⟨s.position i / 256, ?_, ?_, ?_, fun k hk hk' => ?_⟩
  · linarith
  · linarith
  · rw [part, part, share_strip, share_strip, if_pos rfl, if_neg (by omega), if_pos rfl]
    -- without rounding the parts of both come to the whole length
    have hwhole : s.cover i * (256 - s.position i % 256) + s.cover i * (s.position i % 256) =
        s.cover i * 256 := by
      rw [← Int.mul_add]
      congr 1
      omega
    omega
  · rw [part, share_strip, if_neg hk, if_neg hk', Int.mul_zero]
    rfl

end Slant

/-- A line is the same from either end. -/
theorem Addressable.softLine_reverse {f : Frame} {b : Bytes} (hf : f.Addressable b.size) (v : Pixel)
    {x0 y0 x1 y1 : Int64} (hx0 : x0.toInt.natAbs ≤ 2 ^ 59) (hy0 : y0.toInt.natAbs ≤ 2 ^ 59)
    (hx1 : x1.toInt.natAbs ≤ 2 ^ 59) (hy1 : y1.toInt.natAbs ≤ 2 ^ 59) :
    ∃ c, f.softLine x0 y0 x1 y1 v b = .ok c ∧ f.softLine x1 y1 x0 y0 v b = .ok c := by
  have hline := hf.softLine_mixes v hx0 hy0 hx1 hy1
  have hback := hf.softLine_mixes v hx1 hy1 hx0 hy0
  rw [Slant.along_swap] at hback
  exact hline.agree hback (fun _ _ => Mixes.unique hf.toValid)

end Frame

namespace Pixmap
open Raster.Frame

/-- A slanted line always answers, and the same from either end. It mixes pixels by what they get of
its length, and changes those only that lie in its extent and less than one pixel away from it; at
every step two pixels beside it get the length of the step, up to one unit. -/
theorem softLine_accurate {p : Pixmap} (hp : p.Addressable) (v : Pixel) {x0 y0 x1 y1 : Int64}
    (hnear : (SoftDrawing.line x0 y0 x1 y1).Near) :
    let s := Slant.along x0.toInt y0.toInt x1.toInt y1.toInt
    ∃ q, p.draw .raw ((SoftDrawing.line x0 y0 x1 y1).paint v) = .ok q ∧
      p.draw .raw ((SoftDrawing.line x1 y1 x0 y0).paint v) = .ok q ∧
      p.Blends .raw
        (fun x y => UInt8.ofNat (min (s.part (s.major x y) (s.minor x y)) 255).toNat) v q ∧
      (∀ t : Point, (q.seen .raw).get t ≠ (p.seen .raw).get t →
        p.Holds .raw t.x.toInt t.y.toInt ∧ 0 < s.cover (s.major t.x.toInt t.y.toInt) ∧
          |(256 * s.minor t.x.toInt t.y.toInt : ℚ) - s.exact (s.major t.x.toInt t.y.toInt)| < 256) ∧
      ∀ i, 0 < s.cover i → ∃ j, s.Splits i j := by
  intro s
  have hf : (p.toFrame.seen .raw).Addressable p.bytes.size := Frame.Addressable.seen hp .raw
  simp only [SoftDrawing.Near, SoftDrawing.positions, List.forall_mem_cons] at hnear
  obtain ⟨hx0, hy0, hx1, hy1, -⟩ := hnear
  obtain ⟨q, hq, hback⟩ : ∃ q, p.draw .raw ((SoftDrawing.line x0 y0 x1 y1).paint v) = .ok q ∧
      p.draw .raw ((SoftDrawing.line x1 y1 x0 y0).paint v) = .ok q :=
    p.draw_agree (hf.softLine_reverse v (by omega) (by omega) (by omega) (by omega))
  -- the weight is what a pixel gets, but at most 255
  have hline : Yields ((p.toFrame.seen .raw).softLine x0 y0 x1 y1 v p.bytes)
      ((p.toFrame.seen .raw).Mixes v s.weight p.bytes) :=
    hf.softLine_mixes v (by omega) (by omega) (by omega) (by omega)
  have hblend : Yields (p.draw .raw ((SoftDrawing.line x0 y0 x1 y1).paint v))
      (p.Blends .raw s.weight v) :=
    hp.draw_blends hline (fun x y _ => by rw [toRaw_of_identity rfl])
  obtain ⟨r, hr, hblends⟩ := hblend
  obtain rfl : q = r := Except.ok.inj (hq.symm.trans hr)
  refine ⟨q, hq, hback, hblends, fun t ht => ?_, fun i hi => Slant.exists_splits hi⟩
  have hchanged : p.Holds .raw t.x.toInt t.y.toInt ∧ s.weight t.x.toInt t.y.toInt ≠ 0 :=
    Decidable.of_not_not (fun h => ht (hblends.get_out t h))
  exact ⟨hchanged.1, Slant.weight_near hchanged.2⟩

/-- A line that begins above and left of a pixmap and ends in it. In the first column its length of 228
is shared as 31 above the pixmap and 196 inside. -/
theorem softLine_accurate_corner : ∃ p q : Pixmap, p.Addressable ∧
    (SoftDrawing.line (-100) (-90) 700 350).Near ∧
      p.draw .raw ((SoftDrawing.line (-100) (-90) 700 350).paint 255) = .ok q ∧
        p.draw .raw ((SoftDrawing.line 700 350 (-100) (-90)).paint 255) = .ok q ∧
          (∃ j, (Slant.along (-100) (-90) 700 350).Splits 0 j) ∧
            q.bytes = #[196, 150, 9, 0, 0, 106, 247, 29, 0, 0, 0, 30] := by
  let p : Pixmap := ⟨⟨0, 4, 3, 4, 0, .g8, .identity, none⟩, Array.replicate 12 0⟩
  have hp : p.Addressable := by
    refine ⟨⟨?_, ?_, ?_, ?_, ?_, ?_, ?_⟩, ?_, ?_⟩ <;> decide
  have hnear : (SoftDrawing.line (-100) (-90) 700 350).Near := by decide
  obtain ⟨q, hline, hback, -, -, hsplits⟩ := softLine_accurate hp 255 hnear
  refine ⟨p, q, hp, hnear, hline, hback, hsplits 0 (by decide), ?_⟩
  have hbytes : p.draw .raw ((SoftDrawing.line (-100) (-90) 700 350).paint 255) =
      .ok { p with bytes := #[196, 150, 9, 0, 0, 106, 247, 29, 0, 0, 0, 30] } := by
    unfold p
    rfl
  rw [hbytes] at hline
  cases hline
  rfl

end Pixmap

end Raster
