import Mathlib.Tactic.SplitIfs
import Raster.Proofs.Colouring
import Raster.Proofs.Drawing
import Raster.Proofs.Mixing
import Raster.Proofs.SoftLine

/- Areas of partial coverage. `Fixed.share a b i` is how much of the range from `a` to `b`
   lies inside pixel `i`, and `Area.part` the part of a pixel that an area covers, the
   product of its shares on both axes; `Area.weight`, the weight that the area gives the
   pixel, is the one that the loops take (`Area.weight_eq`). They visit just the pixels in
   which its ends lie and those between them, and all others have no share
   (`share_eq_zero`), so that an area mixes every pixel of the frame by its weight
   (`Addressable.area_mixes`). Mirrored and with its axes exchanged, an area gives the raw
   point of a pixel the weight of the pixel (`weight_toRaw`). So a drawing with an
   area, `SoftDrawing.area?`, mixes every point by what the area covers of it
   (`softArea_blends`). -/
namespace Raster

namespace Fixed

/-- The length of the range from `a` to `b` inside pixel `i`. -/
def share (a b i : Int) : Int := max (min b (256 * i + 128) - max a (256 * i - 128)) 0

variable {a b i : Int}

/-- A range that ends before the pixel or begins after it has no share in it. -/
theorem share_eq_zero (h : b ≤ 256 * i - 128 ∨ 256 * i + 128 ≤ a) : share a b i = 0 := by
  unfold share
  omega

theorem overlap_eq_share (ha : a.natAbs ≤ 2 ^ 61) (hb : b.natAbs ≤ 2 ^ 61) (h₀ : 0 ≤ i)
    (h₁ : i ≤ 2 ^ 32) : overlap a b i = .ok (share a b i) :=
  overlap_eq h₀ h₁ (by unfold reach; omega)

@[simp] theorem coverageWeight_zero_left (c : Int) : coverageWeight 0 c = 0 := by
  rw [coverageWeight, Int.zero_mul]
  rfl

@[simp] theorem coverageWeight_zero_right (c : Int) : coverageWeight c 0 = 0 := by
  rw [coverageWeight, Int.mul_zero]
  rfl

theorem coverageWeight_comm (c d : Int) : coverageWeight c d = coverageWeight d c := by
  rw [coverageWeight, Int.mul_comm, ← coverageWeight]

end Fixed

/-- A range of positions on each axis. -/
@[ext] structure Area where
  left : Int
  right : Int
  top : Int
  bottom : Int
  deriving DecidableEq, Repr

namespace Area
open Fixed

/-- The area between two positions in any order, widened by a margin on both sides of each axis. -/
def between (p q margin : Int × Int) : Area :=
  ⟨min p.1 q.1 - margin.1, max p.1 q.1 + margin.1, min p.2 q.2 - margin.2, max p.2 q.2 + margin.2⟩

/-- The part of pixel `x`, `y` that the area covers, in 256 parts and rounded down: the product of its
shares on both axes. -/
def part (a : Area) (x y : Int) : Int := share a.left a.right x * share a.top a.bottom y / 256

/-- The weight of pixel `x`, `y`, which has 255 parts. -/
def weight (a : Area) (x y : Int) : UInt8 := UInt8.ofNat (min (a.part x y) 255).toNat

/-- It is the weight that two lengths have which lie in the pixel. -/
theorem weight_eq (a : Area) (x y : Int) :
    a.weight x y = coverageWeight (share a.left a.right x) (share a.top a.bottom y) := rfl

/-- An area beside a column has no weight in it. -/
theorem weight_of_column {l r t u x : Int} (h : r ≤ 256 * x - 128 ∨ 256 * x + 128 ≤ l) (y : Int) :
    (Area.mk l r t u).weight x y = 0 := by
  rw [weight_eq, share_eq_zero h, coverageWeight_zero_left]

/-- An area above or below a row has no weight in it. -/
theorem weight_of_row {l r t u y : Int} (h : u ≤ 256 * y - 128 ∨ 256 * y + 128 ≤ t) (x : Int) :
    (Area.mk l r t u).weight x y = 0 := by
  rw [weight_eq, share_eq_zero h, coverageWeight_zero_right]

/-- Counted from the far end, a range and a pixel meet as before. -/
theorem share_reflect (on : Bool) (last a b m i : Int) :
    share (min (Orientation.reflect on (256 * last) a) (Orientation.reflect on (256 * last) b) - m)
      (max (Orientation.reflect on (256 * last) a) (Orientation.reflect on (256 * last) b) + m)
      (Orientation.reflect on last i) = share (min a b - m) (max a b + m) i := by
  cases on with
  | false => rfl
  | true =>
    have hmin : min (256 * last - a) (256 * last - b) = 256 * last - max a b := by omega
    have hmax : max (256 * last - a) (256 * last - b) = 256 * last - min a b := by omega
    simp only [Orientation.reflect, if_true, hmin, hmax]
    generalize min a b = l
    generalize max a b = r
    unfold share
    omega

end Area

/-- What a drawing with partial coverage covers, as far as that is one area. -/
def SoftDrawing.area? : SoftDrawing → Option Area
  | point x y => some (.between (x.toInt, y.toInt) (x.toInt, y.toInt) (128, 128))
  | hline x0 x1 y => some (.between (x0.toInt, y.toInt) (x1.toInt, y.toInt) (0, 128))
  | vline x y0 y1 => some (.between (x.toInt, y0.toInt) (x.toInt, y1.toInt) (128, 0))
  | rect x0 y0 x1 y1 => some (.between (x0.toInt, y0.toInt) (x1.toInt, y1.toInt) (128, 128))
  | _ => none

/-- The positions and sizes in which a drawing is given. -/
def SoftDrawing.positions : SoftDrawing → List Int64
  | point x y => [x, y]
  | hline x0 x1 y => [x0, x1, y]
  | vline x y0 y1 => [x, y0, y1]
  | line x0 y0 x1 y1 => [x0, y0, x1, y1]
  | rect x0 y0 x1 y1 => [x0, y0, x1, y1]
  | rectOf x y w h => [x, y, w, h]

/-- No position of the drawing is more than 2^40 units away from zero. -/
def SoftDrawing.Near (d : SoftDrawing) : Prop := ∀ a ∈ d.positions, a.toInt.natAbs ≤ 2 ^ 40

instance (d : SoftDrawing) : Decidable d.Near :=
  List.decidableBAll (fun a : Int64 => a.toInt.natAbs ≤ 2 ^ 40) d.positions

namespace Frame
open Fixed

/-- The raw position of a user position in fixed point coordinates. -/
def toRawFixed (f : Frame) (x y : Int) : Int × Int :=
  let p := f.orientation.exchange (x, y)
  (Orientation.reflect f.orientation.mirrorX (256 * (f.width.toNat - 1)) p.1,
    Orientation.reflect f.orientation.mirrorY (256 * (f.height.toNat - 1)) p.2)

variable {f : Frame} {b : Bytes} {x y x0 y0 x1 y1 : Int}

theorem ofInt_last (n : UInt32) : ofInt (n.toNat - 1) = 256 * (n.toNat - 1) := by
  have hn := n.toNat_lt
  rw [ofInt_eq (by omega), Int.mul_comm]

theorem rawFixedPoint_eq (f : Frame) (hx : x.natAbs ≤ 2 ^ 62) (hy : y.natAbs ≤ 2 ^ 62) :
    f.rawFixedPoint x y = .ok (f.toRawFixed x y) := by
  have hlast : ∀ n : UInt32, (256 * ((n.toNat : Int) - 1)).natAbs ≤ 2 ^ 41 := by
    intro n
    have hn := n.toNat_lt
    omega
  rw [rawFixedPoint, Orientation.rawFixedPoint, toRawFixed, ofInt_last, ofInt_last]
  obtain ⟨swap, mx, my⟩ := f.orientation
  cases swap with
  | false =>
    simp only [Orientation.exchange, Bool.false_eq_true, if_false, ok_bind,
      Orientation.mirrored_eq mx (hlast f.width) hx, Orientation.mirrored_eq my (hlast f.height) hy]
    rfl
  | true =>
    simp only [Orientation.exchange, if_true, ok_bind,
      Orientation.mirrored_eq mx (hlast f.width) hy, Orientation.mirrored_eq my (hlast f.height) hx]
    rfl

/-- Positions move by the size of the frame at most. -/
theorem natAbs_toRawFixed_le (f : Frame) {n : Nat} (hx : x.natAbs ≤ n) (hy : y.natAbs ≤ n) :
    (f.toRawFixed x y).1.natAbs ≤ n + 2 ^ 40 ∧ (f.toRawFixed x y).2.natAbs ≤ n + 2 ^ 40 := by
  have hw := f.width.toNat_lt
  have hh := f.height.toNat_lt
  unfold toRawFixed Orientation.reflect Orientation.exchange
  split_ifs <;> dsimp only <;> refine ⟨?_, ?_⟩ <;> omega

/-- The raw point of a pixel has the weight of the pixel. -/
theorem weight_toRaw (f : Frame) (x0 y0 x1 y1 : Int) (margin : Int × Int) (x y : Int) :
    (Area.between (f.toRawFixed x0 y0) (f.toRawFixed x1 y1)
        (f.orientation.exchange margin)).weight (f.toRaw x y).1 (f.toRaw x y).2 =
      (Area.between (x0, y0) (x1, y1) margin).weight x y := by
  unfold toRawFixed toRaw Orientation.toRaw
  obtain ⟨swap, mx, my⟩ := f.orientation
  cases swap with
  | false =>
    simp only [Area.between, Area.weight_eq, Orientation.exchange, Bool.false_eq_true, if_false,
      Area.share_reflect]
  | true =>
    simp only [Area.between, Area.weight_eq, Orientation.exchange, if_true, Area.share_reflect]
    exact coverageWeight_comm ..

section Addressable
variable (hf : f.Addressable b.size) (v : Pixel)
include hf

/-! Between raw positions. -/

/-- The columns `first` to `last` of a row are mixed. -/
theorem Addressable.mixRow_mixes (hx0 : x0.natAbs ≤ 2 ^ 61) (hx1 : x1.natAbs ≤ 2 ^ 61)
    {first last : Int} (hfirst : 0 ≤ first) (hlast : last < 2 ^ 32) (cy y : Int) :
    Yields (f.mixRow x0 x1 first last cy y v b) (f.Mixes v (fun x' y' =>
      if first ≤ x' ∧ x' < last + 1 then
        if y' = y then coverageWeight (share x0 x1 x') cy else 0
      else 0) b) := by
  refine Mixes.forRange (fun x' _ => x') (fun x c h₀ h₁ hc => ?_)
  rw [overlap_eq_share hx0 hx1 (by omega) (by omega), ok_bind]
  have hf' : f.Addressable c.size := hc.symm ▸ hf
  apply (hf'.mixRaw_mixes v _ x y).mono
  intro d hd
  apply hd.congr
  intro x' y' _
  by_cases hx : x' = x
  · subst hx
    simp only [true_and, if_true]
  · simp only [hx, false_and, if_false]

section Area
variable {l r t u : Int} (hl : l.natAbs ≤ 2 ^ 61) (hr : r.natAbs ≤ 2 ^ 61) (ht : t.natAbs ≤ 2 ^ 61)
  (hu : u.natAbs ≤ 2 ^ 61)
include hl hr ht hu

/-- A row of an area, with the columns in which its ends lie and those between them, mixes all
pixels of the row. -/
theorem Addressable.areaRow_mixes {y : Int} (h₀ : 0 ≤ y) (h₁ : y ≤ 2 ^ 32) :
    Yields (overlap t u y >>= fun cy => if cy = 0 then .ok b else
        f.mixRow l r (max ((l + 128) / 256) 0) (min ((r + 128) / 256) (f.width.toNat - 1)) cy y v b)
      (f.Mixes v (fun x' y' => if y' = y then (Area.mk l r t u).weight x' y' else 0) b) := by
  have hw := f.width.toNat_lt
  rw [overlap_eq_share ht hu h₀ h₁, ok_bind]
  by_cases hcy : share t u y = 0
  · rw [if_pos hcy]
    apply Yields.ok
    apply Mixes.none
    intro x' y' _
    by_cases hy : y' = y
    · rw [if_pos hy, hy, Area.weight_eq, hcy, coverageWeight_zero_right]
    · rw [if_neg hy]
  · rw [if_neg hcy]
    apply (hf.mixRow_mixes v hl hr (by omega) (by omega) (share t u y) y).mono
    intro c hc
    apply hc.congr
    intro x' y' hxy
    obtain ⟨hx₀, -, hx₁, -⟩ := hxy
    by_cases hy : y' = y
    · subst hy
      rw [if_pos rfl, if_pos rfl]
      by_cases hin : max ((l + 128) / 256) 0 ≤ x' ∧
          x' < min ((r + 128) / 256) (f.width.toNat - 1) + 1
      · rw [if_pos hin]
        rfl
      · rw [if_neg hin, Area.weight_of_column (by omega)]
    · rw [if_neg hy, if_neg hy, ite_self]

/-- Rows before and after those of the loop are not covered. -/
theorem Addressable.areaRows_mixes :
    Yields (forRange (max ((t + 128) / 256) 0) (min ((u + 128) / 256) (f.height.toNat - 1) + 1) b
        fun y b => overlap t u y >>= fun cy => if cy = 0 then .ok b else
          f.mixRow l r (max ((l + 128) / 256) 0) (min ((r + 128) / 256) (f.width.toNat - 1)) cy y v b)
      (f.Mixes v (Area.mk l r t u).weight b) := by
  have hh := f.height.toNat_lt
  apply (Mixes.forRange (fun _ y' => y') (fun y c h₀ h₁ hc => by
    have hf' : f.Addressable c.size := hc.symm ▸ hf
    exact hf'.areaRow_mixes v hl hr ht hu (y := y) (by omega) (by omega))).mono
  intro c hc
  apply hc.congr
  intro x' y' hxy
  obtain ⟨-, hy₀, -, hy₁⟩ := hxy
  by_cases hin : max ((t + 128) / 256) 0 ≤ y' ∧ y' < min ((u + 128) / 256) (f.height.toNat - 1) + 1
  · rw [if_pos hin]
  · rw [if_neg hin, Area.weight_of_row (by omega)]

end Area

/-- An area mixes every pixel by the part of it that it covers. -/
theorem Addressable.area_mixes {a : Area} (hx0 : x0.natAbs ≤ 2 ^ 61) (hy0 : y0.natAbs ≤ 2 ^ 61)
    (hx1 : x1.natAbs ≤ 2 ^ 61) (hy1 : y1.natAbs ≤ 2 ^ 61)
    (ha : a = ⟨min x0 x1, max x0 x1, min y0 y1, max y0 y1⟩) :
    Yields (f.area x0 y0 x1 y1 v b) (f.Mixes v a.weight b) := by
  have hl : (min x0 x1).natAbs ≤ 2 ^ 61 := by omega
  have hr : (max x0 x1).natAbs ≤ 2 ^ 61 := by omega
  have ht : (min y0 y1).natAbs ≤ 2 ^ 61 := by omega
  have hu : (max y0 y1).natAbs ≤ 2 ^ 61 := by omega
  have hpixel : ∀ a : Int, a.natAbs ≤ 2 ^ 61 → pixelOf a = .ok ((a + 128) / 256) := by
    intro a ha
    exact pixelOf_eq (by unfold reach; omega) (by unfold reach; omega)
  simp only [area, hpixel _ hl, hpixel _ hr, hpixel _ ht, hpixel _ hu, ok_bind]
  rw [ha]
  exact hf.areaRows_mixes v hl hr ht hu

section Near
variable {p q : Int × Int} (hp₁ : p.1.natAbs ≤ 2 ^ 60) (hp₂ : p.2.natAbs ≤ 2 ^ 60)
  (hq₁ : q.1.natAbs ≤ 2 ^ 60) (hq₂ : q.2.natAbs ≤ 2 ^ 60)
include hp₁ hp₂

include hq₁ in
theorem Addressable.softRow_mixes (hrow : q.2 = p.2) : Yields (f.softRow p.1 q.1 p.2 v b)
    (f.Mixes v (Area.between p q (0, 128)).weight b) := by
  rw [softRow, half, check_int64 (by unfold reach; omega), ok_bind,
    check_int64 (by unfold reach; omega), ok_bind]
  apply hf.area_mixes v (by omega) (by omega) (by omega) (by omega)
  ext <;> dsimp only [Area.between] <;> omega

include hq₂ in
theorem Addressable.softColumn_mixes (hcolumn : q.1 = p.1) : Yields (f.softColumn p.1 p.2 q.2 v b)
    (f.Mixes v (Area.between p q (128, 0)).weight b) := by
  rw [softColumn, half, check_int64 (by unfold reach; omega), ok_bind,
    check_int64 (by unfold reach; omega), ok_bind]
  apply hf.area_mixes v (by omega) (by omega) (by omega) (by omega)
  ext <;> dsimp only [Area.between] <;> omega

include hq₁ hq₂ in
theorem Addressable.softBox_mixes : Yields (f.softBox p.1 p.2 q.1 q.2 v b)
    (f.Mixes v (Area.between p q (128, 128)).weight b) := by
  rw [softBox, half, check_int64 (by unfold reach; omega), ok_bind,
    check_int64 (by unfold reach; omega), ok_bind, check_int64 (by unfold reach; omega), ok_bind,
    check_int64 (by unfold reach; omega), ok_bind]
  apply hf.area_mixes v (by omega) (by omega) (by omega) (by omega)
  ext <;> dsimp only [Area.between] <;> omega

end Near

/-! From user positions. -/

section User
variable (hx0 : x0.natAbs ≤ 2 ^ 59) (hy0 : y0.natAbs ≤ 2 ^ 59) (hx1 : x1.natAbs ≤ 2 ^ 59)
  (hy1 : y1.natAbs ≤ 2 ^ 59)

include hx0 hy0 hx1 in
/-- A row of the user is a row or a column of the buffer, and its margins follow it. -/
theorem Addressable.userSoftRow_mixes :
    Yields (do
        let p ← f.rawFixedPoint x0 y0
        let q ← f.rawFixedPoint x1 y0
        if f.orientation.swapAxes then f.softColumn p.1 p.2 q.2 v b
        else f.softRow p.1 q.1 p.2 v b)
      (f.Mixes v (Area.between (f.toRawFixed x0 y0) (f.toRawFixed x1 y0)
        (f.orientation.exchange (0, 128))).weight b) := by
  obtain ⟨h₁, h₂⟩ := f.natAbs_toRawFixed_le hx0 hy0
  obtain ⟨h₃, h₄⟩ := f.natAbs_toRawFixed_le hx1 hy0
  rw [f.rawFixedPoint_eq (by omega) (by omega), ok_bind, f.rawFixedPoint_eq (by omega) (by omega),
    ok_bind, Orientation.exchange]
  split_ifs with hswap
  · apply hf.softColumn_mixes v (by omega) (by omega) (by omega)
    simp only [toRawFixed, Orientation.exchange, if_pos hswap]
  · apply hf.softRow_mixes v (by omega) (by omega) (by omega)
    simp only [toRawFixed, Orientation.exchange, if_neg hswap]

include hx0 hy0 hy1 in
theorem Addressable.userSoftColumn_mixes :
    Yields (do
        let p ← f.rawFixedPoint x0 y0
        let q ← f.rawFixedPoint x0 y1
        if f.orientation.swapAxes then f.softRow p.1 q.1 p.2 v b
        else f.softColumn p.1 p.2 q.2 v b)
      (f.Mixes v (Area.between (f.toRawFixed x0 y0) (f.toRawFixed x0 y1)
        (f.orientation.exchange (128, 0))).weight b) := by
  obtain ⟨h₁, h₂⟩ := f.natAbs_toRawFixed_le hx0 hy0
  obtain ⟨h₃, h₄⟩ := f.natAbs_toRawFixed_le hx0 hy1
  rw [f.rawFixedPoint_eq (by omega) (by omega), ok_bind, f.rawFixedPoint_eq (by omega) (by omega),
    ok_bind, Orientation.exchange]
  split_ifs with hswap
  · apply hf.softRow_mixes v (by omega) (by omega) (by omega)
    simp only [toRawFixed, Orientation.exchange, if_pos hswap]
  · apply hf.softColumn_mixes v (by omega) (by omega) (by omega)
    simp only [toRawFixed, Orientation.exchange, if_neg hswap]

theorem Addressable.softPoint_mixes {x y : Int64} (hx : x.toInt.natAbs ≤ 2 ^ 59)
    (hy : y.toInt.natAbs ≤ 2 ^ 59) : Yields (f.softPoint x y v b)
      (f.Mixes v (Area.between (f.toRawFixed x.toInt y.toInt) (f.toRawFixed x.toInt y.toInt)
        (f.orientation.exchange (128, 128))).weight b) := by
  obtain ⟨h₁, h₂⟩ := f.natAbs_toRawFixed_le hx hy
  have hp := f.rawFixedPoint_eq (x := x.toInt) (y := y.toInt) (by omega) (by omega)
  simp only [softPoint, hp, ok_bind, Orientation.exchange, ite_self]
  exact hf.softBox_mixes v (by omega) (by omega) (by omega) (by omega)

include hx0 hy0 hx1 hy1 in
theorem Addressable.softRectAt_mixes : Yields (f.softRectAt x0 y0 x1 y1 v b)
    (f.Mixes v (Area.between (f.toRawFixed x0 y0) (f.toRawFixed x1 y1)
      (f.orientation.exchange (128, 128))).weight b) := by
  obtain ⟨h₁, h₂⟩ := f.natAbs_toRawFixed_le hx0 hy0
  obtain ⟨h₃, h₄⟩ := f.natAbs_toRawFixed_le hx1 hy1
  have hp := f.rawFixedPoint_eq (x := x0) (y := y0) (by omega) (by omega)
  have hq := f.rawFixedPoint_eq (x := x1) (y := y1) (by omega) (by omega)
  simp only [softRectAt, hp, hq, ok_bind, Orientation.exchange, ite_self]
  exact hf.softBox_mixes v (by omega) (by omega) (by omega) (by omega)

end User

end Addressable

end Frame

namespace Pixmap
variable {p q : Pixmap} {s : Space} {W : Int → Int → UInt8} {v : Pixel}

/-- From `p` to `q` every point of the pixmap is mixed with `v` by its weight, and nothing else
changes: no point without weight, and no bit that belongs to no pixel. -/
structure Blends (p : Pixmap) (s : Space) (W : Int → Int → UInt8) (v : Pixel) (q : Pixmap) :
    Prop where
  frame_eq : q.toFrame = p.toFrame
  keeps : p.Keeps p.bytes q.bytes
  get_in : ∀ t : Point, p.Holds s t.x.toInt t.y.toInt → ∃ old, (p.seen s).get t = .ok old ∧
    (q.seen s).get t = .ok (UInt32.ofNat
      ((mix p.pixelType p.gamma v old (W t.x.toInt t.y.toInt)).toNat % 2 ^ p.bpp))
  get_out : ∀ t : Point, ¬ (p.Holds s t.x.toInt t.y.toInt ∧ W t.x.toInt t.y.toInt ≠ 0) →
    (q.seen s).get t = (p.seen s).get t

/-- A drawing that mixes raw points mixes the points whose raw points they are. -/
theorem Addressable.draw_blends (hp : p.Addressable) {paint : Frame → Bytes → Except Fault Bytes}
    {R : Int → Int → UInt8}
    (hpaint : Yields (paint (p.toFrame.seen s) p.bytes)
      ((p.toFrame.seen s).Mixes v R p.bytes))
    (hW : ∀ x y, p.Holds s x y →
      R ((p.toFrame.seen s).toRaw x y).1 ((p.toFrame.seen s).toRaw x y).2 = W x y) :
    Yields (p.draw s paint) (p.Blends s W v) := by
  obtain ⟨c, hc, hmix⟩ := hpaint
  have hall := hmix.paints_mixed (S := fun _ _ => True) (fun _ _ _ h => absurd trivial h)
  have hsome := hmix.paints_mixed (S := fun x y => R x y ≠ 0) (fun _ _ _ h => not_not.1 h)
  refine ⟨{ p with bytes := c }, p.draw_ok hc, rfl, ?_, fun t ht => ?_, fun t ht => ?_⟩
  · cases s with
    | user => exact hmix.keeps
    | raw => exact ⟨hmix.keeps.size_eq, hmix.keeps.bit_eq⟩
  · have hin : (p.seen s).ContainsUser t.x.toInt t.y.toInt := ht
    refine ⟨_, (hp.seen s).get_eq t, ((hp.seen s).get_painted hall hin trivial).trans ?_⟩
    rw [if_pos hin, ← hW _ _ ht]
    cases s <;> rfl
  · exact (hp.seen s).get_unpainted hsome (fun hin hR => ht ⟨hin, hW _ _ hin ▸ hR⟩)

/-- Every point is mixed by what the area of the drawing covers of it. -/
theorem softArea_blends (hp : p.Addressable) (s : Space) (v : Pixel) {d : SoftDrawing} {a : Area}
    (hd : d.area? = some a) (hnear : d.Near) :
    Yields (p.draw s (d.paint v)) (p.Blends s a.weight v) := by
  have hf : (p.toFrame.seen s).Addressable p.bytes.size := Frame.Addressable.seen hp s
  have hle : ∀ {n : Nat}, n ≤ 2 ^ 40 → n ≤ 2 ^ 59 := by omega
  cases d with
  | point x y =>
    cases hd
    simp only [SoftDrawing.Near, SoftDrawing.positions, List.forall_mem_cons] at hnear
    obtain ⟨hx, hy, -⟩ := hnear
    exact hp.draw_blends (hf.softPoint_mixes v (hle hx) (hle hy))
      (fun x y _ => Frame.weight_toRaw ..)
  | hline x0 x1 y =>
    cases hd
    simp only [SoftDrawing.Near, SoftDrawing.positions, List.forall_mem_cons] at hnear
    obtain ⟨hx0, hx1, hy, -⟩ := hnear
    exact hp.draw_blends (hf.userSoftRow_mixes v (hle hx0) (hle hy) (hle hx1))
      (fun x y _ => Frame.weight_toRaw ..)
  | vline x y0 y1 =>
    cases hd
    simp only [SoftDrawing.Near, SoftDrawing.positions, List.forall_mem_cons] at hnear
    obtain ⟨hx, hy0, hy1, -⟩ := hnear
    exact hp.draw_blends (hf.userSoftColumn_mixes v (hle hx) (hle hy0) (hle hy1))
      (fun x y _ => Frame.weight_toRaw ..)
  | rect x0 y0 x1 y1 =>
    cases hd
    simp only [SoftDrawing.Near, SoftDrawing.positions, List.forall_mem_cons] at hnear
    obtain ⟨hx0, hy0, hx1, hy1, -⟩ := hnear
    exact hp.draw_blends (hf.softRectAt_mixes v (hle hx0) (hle hy0) (hle hx1) (hle hy1))
      (fun x y _ => Frame.weight_toRaw ..)
  | line => cases hd
  | rectOf => cases hd

/-- A row that begins left of a turned pixmap and lies between two rows of its pixels, which have four
bits and start inside a byte. -/
theorem softArea_blends_turned : ∃ p q : Pixmap, p.Addressable ∧
    (SoftDrawing.hline (-200) 356 100).Near ∧
      p.draw .user ((SoftDrawing.hline (-200) 356 100).paint 15) = .ok q ∧
        q.get ⟨0, 0⟩ = .ok 9 ∧ q.get ⟨1, 0⟩ = .ok 8 ∧ q.get ⟨1, 1⟩ = .ok 5 ∧ q.get ⟨2, 0⟩ = .ok 1 := by
  let p : Pixmap :=
    ⟨⟨1, 3, 3, 2, 4, .g4ub, .rotated .identity .quarterTurn, none⟩, Array.replicate 8 17⟩
  have hp : p.Addressable := by
    refine ⟨⟨?_, ?_, ?_, ?_, ?_, ?_, ?_⟩, ?_, ?_⟩ <;> decide
  have hnear : (SoftDrawing.hline (-200) 356 100).Near := by decide
  obtain ⟨q, hq, hblends⟩ := softArea_blends hp .user 15 rfl hnear
  -- every point of the pixmap holds 1 before
  have hget : ∀ t : Point, ∀ w : Pixel, p.Holds .user t.x.toInt t.y.toInt → p.get t = .ok 1 →
      (mix .g4ub none 15 1 ((Area.between (-200, 100) (356, 100) (0, 128)).weight t.x.toInt
        t.y.toInt)).toNat % 16 = w.toNat → q.get t = .ok w := by
    intro t w ht hone hw
    obtain ⟨old, hold, hnew⟩ := hblends.get_in t ht
    cases hone.symm.trans hold
    refine hnew.trans (congrArg Except.ok ?_)
    show UInt32.ofNat ((mix .g4ub none 15 1 _).toNat % 16) = w
    rw [← UInt32.ofNat_toNat (x := w), ← hw]
    rfl
  refine ⟨p, q, hp, hnear, hq, ?_, ?_, ?_, ?_⟩
  · exact hget ⟨0, 0⟩ 9 (by decide) (by decide) (by decide)
  · exact hget ⟨1, 0⟩ 8 (by decide) (by decide) (by decide)
  · exact hget ⟨1, 1⟩ 5 (by decide) (by decide) (by decide)
  · exact (hblends.get_out ⟨2, 0⟩ (by decide)).trans (by decide)

end Pixmap

end Raster
