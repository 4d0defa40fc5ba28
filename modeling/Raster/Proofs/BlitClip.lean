import Raster.Proofs.Blit

/- Clipped copies. On each axis the part that is copied starts, lands and counts as
   `Axis.start`, `Axis.target` and `Axis.count` say; clipping leaves a rectangle that fits
   whenever the destination has pixels (`part_placed`), so that a clipped copy is an
   exact one of that part (`blitClipped_paints`, `blitClipped_get`). -/
namespace Raster

namespace BlitRect

namespace Axis
variable (a : Axis) (sw dw : Nat)

/-- Where the copied part starts in the source. -/
def start : Int := max (a.first + max (-a.dest) 0) 0

/-- Where the copied part starts in the destination. -/
def target : Int := max a.dest 0

/-- The length of the copied part, not positive if nothing is copied. -/
def count : Int := min (min a.last (sw - 1) - a.start + 1) (dw - a.target)

/-- The part starts in the source and before the end of the destination. -/
def Left : Prop := a.dest < dw ∧ a.start ≤ min a.last (sw - 1)

instance : Decidable (a.Left sw dw) := inferInstanceAs (Decidable (_ ∧ _))

theorem clip_eq : a.clip sw dw =
    if a.Left sw dw then some ⟨a.start, a.start + a.count sw dw - 1, a.target⟩ else none := by
  have hstart : max (if a.dest < 0 then a.first - a.dest else a.first) 0 = a.start := by
    simp only [start]
    split_ifs <;> omega
  unfold clip
  simp only [hstart]
  by_cases hd : (dw : Int) ≤ a.dest
  · rw [if_pos hd, if_neg (fun hl => by have := hl.1; omega)]
  · by_cases hs : min a.last ((sw : Int) - 1) < a.start
    · rw [if_neg hd, if_pos hs, if_neg (fun hl => by have := hl.2; omega)]
    · rw [if_neg hd, if_neg hs, if_pos ⟨by omega, by omega⟩]
      congr 2
      simp only [count, target]
      omega

/-- Over pixels of the destination something is left just if the length is positive. -/
theorem left_iff (hdw : 0 < dw) : a.Left sw dw ↔ 0 < a.count sw dw := by
  simp only [Left, count, target]
  omega

/-- Something may be left for no pixels of the destination, of length zero. -/
theorem Left.of_zero {a : Axis} {sw : Nat} (h : a.Left sw 0) : a.count sw 0 = 0 ∧ a.target = 0 := by
  obtain ⟨h₁, h₂⟩ := h
  simp only [count, target]
  omega

theorem count_le : a.start + a.count sw dw ≤ sw ∧ a.target + a.count sw dw ≤ dw := by
  simp only [count]
  omega

theorem start_nonneg : 0 ≤ a.start ∧ 0 ≤ a.target := by
  simp only [start, target]
  omega

end Axis

def xAxis (r : BlitRect) : Axis := ⟨r.x0, r.x1, r.x2⟩
def yAxis (r : BlitRect) : Axis := ⟨r.y0, r.y1, r.y2⟩

/-- The part of the rectangle that is copied. -/
def part (r : BlitRect) (sw sh dw dh : UInt32) : BlitRect :=
  ⟨r.xAxis.start, r.yAxis.start, r.xAxis.start + r.xAxis.count sw.toNat dw.toNat - 1,
    r.yAxis.start + r.yAxis.count sh.toNat dh.toNat - 1, r.xAxis.target, r.yAxis.target⟩

variable {r : BlitRect} {sw sh dw dh : UInt32}

theorem clip_eq (r : BlitRect) (sw sh dw dh : UInt32) : r.clip sw sh dw dh =
    if r.xAxis.Left sw.toNat dw.toNat ∧ r.yAxis.Left sh.toNat dh.toNat then
      some (r.part sw sh dw dh) else none := by
  show (do
    let x ← r.xAxis.clip sw.toNat dw.toNat
    let y ← r.yAxis.clip sh.toNat dh.toNat
    return (⟨x.first, y.first, x.last, y.last, x.dest, y.dest⟩ : BlitRect)) = _
  rw [Axis.clip_eq, Axis.clip_eq]
  by_cases hx : r.xAxis.Left sw.toNat dw.toNat
  · by_cases hy : r.yAxis.Left sh.toNat dh.toNat
    · rw [if_pos hx, if_pos hy, if_pos (And.intro hx hy)]
      rfl
    · rw [if_pos hx, if_neg hy, if_neg (fun h => hy h.2)]
      rfl
  · have hnot : ¬ (r.xAxis.Left sw.toNat dw.toNat ∧ r.yAxis.Left sh.toNat dh.toNat) :=
      fun h => hx h.1
    rw [if_neg hx, if_neg hnot]
    rfl

/-- A rectangle of some size from the first pixel on, no longer than 32-bit numbers reach. -/
theorem ofCorners_farCorner {w h : UInt32} (hw : 0 < w.toNat) (hh : 0 < h.toNat) (dest : Point) :
    ofCorners ⟨0, 0⟩ (farCorner ⟨0, 0⟩ w h) dest =
      ⟨0, 0, min (w.toNat - 1) 0x7fffffff, min (h.toNat - 1) 0x7fffffff, dest.x.toInt,
        dest.y.toInt⟩ := by
  have h0 : (0 : Int32).toInt = 0 := rfl
  have hfar : ∀ n : UInt32, (Int32.ofInt (min (0 + (n.toNat : Int) - 1) Bounds.int32.high)).toInt =
      min ((n.toNat : Int) - 1) 0x7fffffff := by
    intro n
    rw [Int.zero_add]
    exact Int32.toInt_ofInt_of_le (by simp only [Bounds.int32]; omega)
      (by simp only [Bounds.int32]; omega)
  simp only [ofCorners, farCorner, h0, hfar]
  congr 1 <;> omega

/-- The part that is left for pixels of the destination fits. -/
theorem part_placed {src : Pixmap} {f : Frame}
    (hx : 0 < r.xAxis.count src.userWidth.toNat f.userWidth.toNat)
    (hy : 0 < r.yAxis.count src.userHeight.toNat f.userHeight.toNat) :
    (r.part src.userWidth src.userHeight f.userWidth f.userHeight).Placed src f := by
  obtain ⟨h₁, h₂⟩ := r.xAxis.count_le src.userWidth.toNat f.userWidth.toNat
  obtain ⟨h₃, h₄⟩ := r.yAxis.count_le src.userHeight.toNat f.userHeight.toNat
  obtain ⟨h₅, h₆⟩ := r.xAxis.start_nonneg
  obtain ⟨h₇, h₈⟩ := r.yAxis.start_nonneg
  unfold part
  refine ⟨?_, ?_, ?_, ?_, ?_, ?_, ?_, ?_, ?_, ?_⟩ <;> dsimp only <;> omega

end BlitRect

namespace Frame
open BlitRect (converted)
variable {f : Frame} {b : Bytes} {src : Pixmap}

/-- Over a destination with pixels a clipped copy sets just the part that is left. -/
theorem Addressable.blitClipped_paints (hf : f.Addressable b.size) (p q dest : Point)
    (hs : ((BlitRect.ofCorners p q dest).part src.userWidth src.userHeight f.userWidth
      f.userHeight).Legible src)
    (hw : 0 < f.userWidth.toNat) (hh : 0 < f.userHeight.toNat) :
    Yields (f.blitClipped src p q dest b)
      (f.Paints
        (((BlitRect.ofCorners p q dest).part src.userWidth src.userHeight f.userWidth
          f.userHeight).Target f)
        (((BlitRect.ofCorners p q dest).part src.userWidth src.userHeight f.userWidth
          f.userHeight).image f src) b) := by
  generalize hr : BlitRect.ofCorners p q dest = r at hs ⊢
  unfold blitClipped
  rw [hr, BlitRect.clip_eq]
  have hx := r.xAxis.left_iff src.userWidth.toNat f.userWidth.toNat hw
  have hy := r.yAxis.left_iff src.userHeight.toNat f.userHeight.toNat hh
  by_cases hleft : r.xAxis.Left src.userWidth.toNat f.userWidth.toNat ∧
      r.yAxis.Left src.userHeight.toNat f.userHeight.toNat
  · rw [if_pos hleft]
    exact hf.blitUser_paints hs (BlitRect.part_placed (hx.1 hleft.1) (hy.1 hleft.2))
  · rw [if_neg hleft]
    refine Yields.ok (Paints.none (fun x y _ ht => hleft ?_))
    obtain ⟨j, hj₀, hj₁, i, hi₀, hi₁, -⟩ := ht
    simp only [BlitRect.part] at hj₁ hi₁
    exact ⟨hx.2 (by omega), hy.2 (by omega)⟩

theorem user_pos_of_not_empty (h : f.isEmpty = false) :
    0 < f.userWidth.toNat ∧ 0 < f.userHeight.toNat := by
  obtain ⟨hw, hh⟩ := isEmpty_eq_false_iff.1 h
  unfold userWidth userHeight Orientation.userSize Orientation.exchange
  split_ifs
  · exact ⟨hh, hw⟩
  · exact ⟨hw, hh⟩

end Frame

namespace Pixmap
open Raster.Frame BlitRect

/-- A clipped copy to a destination with pixels always answers. In the part that is left, `n` columns
and `m` rows, each pixel of the destination is the converted one of the source; all others stay. -/
theorem blitClipped_get {src d : Pixmap} (hs : src.Addressable) (hd : d.Addressable)
    (hne : d.isEmpty = false) (p q dest : Point) :
    let x := (ofCorners p q dest).xAxis
    let y := (ofCorners p q dest).yAxis
    let n := x.count src.userWidth.toNat d.userWidth.toNat
    let m := y.count src.userHeight.toNat d.userHeight.toNat
    ∃ e, (d.draw .user fun f b => f.blitClipped src p q dest b) = .ok e ∧ e.toFrame = d.toFrame ∧
      (∀ i j, 0 ≤ i → i < n → 0 ≤ j → j < m → ∃ s t : Point,
        (s.x.toInt = x.start + i ∧ s.y.toInt = y.start + j) ∧
        (t.x.toInt = x.target + i ∧ t.y.toInt = y.target + j) ∧
        ∃ v, src.get s = .ok v ∧ e.get t = .ok (src.pixelType.convert v d.pixelType)) ∧
      ∀ t : Point, ¬ (x.target ≤ t.x.toInt ∧ t.x.toInt < x.target + n ∧
        y.target ≤ t.y.toInt ∧ t.y.toInt < y.target + m) → e.get t = d.get t := by
  intro x y n m
  obtain ⟨hw, hh⟩ := user_pos_of_not_empty hne
  obtain ⟨c, hc, hpaint⟩ := Addressable.blitClipped_paints hd p q dest (Legible.of_addressable _ hs) hw hh
  -- the corners of the part are inclusive, so that it counts `n` columns and `m` rows
  have hn : x.start + n - 1 - x.start + 1 = n := by omega
  have hm : y.start + m - 1 - y.start + 1 = m := by omega
  refine ⟨{ d with bytes := c }, d.draw_ok hc, rfl, ?_, ?_⟩
  · intro i j hi₀ hi₁ hj₀ hj₁
    have hplaced : ((ofCorners p q dest).part src.userWidth src.userHeight d.userWidth
        d.userHeight).Placed src d.toFrame :=
      part_placed (show 0 < n by omega) (show 0 < m by omega)
    exact hplaced.get_copied hs hd hpaint hi₀ (hi₁.trans_eq hn.symm) hj₀ (hj₁.trans_eq hm.symm)
  · intro t ht
    apply get_not_copied hd hpaint
    intro hin
    obtain ⟨hx₀, hx₁, hy₀, hy₁⟩ := hin
    exact ht ⟨hx₀, hx₁.trans_eq (congrArg _ hn), hy₀, hy₁.trans_eq (congrArg _ hm)⟩

/-- The right column of a pixmap of 4 bits a pixel goes to the left one of a turned pixmap of 8. -/
theorem blitClipped_get_converted : ∃ src d : Pixmap,
    src.Addressable ∧ d.Addressable ∧ d.isEmpty = false ∧ ∃ e,
      (d.draw .user fun f b => f.blitClipped src ⟨1, 1⟩ ⟨0, 0⟩ ⟨-1, 0⟩ b) = .ok e ∧
        e.get ⟨0, 0⟩ = .ok 170 ∧ e.get ⟨1, 1⟩ = d.get ⟨1, 1⟩ := by
  let src : Pixmap := ⟨⟨0, 2, 2, 1, 0, .g4ub, .identity, none⟩, #[0x5a, 0x5a]⟩
  let d : Pixmap := ⟨⟨0, 2, 2, 2, 0, .g8, ⟨true, true, false⟩, none⟩, #[1, 2, 3, 4]⟩
  have hs : src.Addressable := by
    refine ⟨⟨?_, ?_, ?_, ?_, ?_, ?_, ?_⟩, ?_, ?_⟩ <;> decide
  have hd : d.Addressable := by
    refine ⟨⟨?_, ?_, ?_, ?_, ?_, ?_, ?_⟩, ?_, ?_⟩ <;> decide
  have hne : d.isEmpty = false := by decide
  obtain ⟨e, he, -, hin, hout⟩ := blitClipped_get hs hd hne ⟨1, 1⟩ ⟨0, 0⟩ ⟨-1, 0⟩
  obtain ⟨s, t, hpos, hdest, v, hv, hget⟩ :=
    hin 0 0 (by decide) (by decide) (by decide) (by decide)
  have hs' : s = ⟨1, 0⟩ := by
    cases s
    exact congrArg₂ Point.mk (Int32.toInt_inj.1 hpos.1) (Int32.toInt_inj.1 hpos.2)
  have ht : t = ⟨0, 0⟩ := by
    cases t
    exact congrArg₂ Point.mk (Int32.toInt_inj.1 hdest.1) (Int32.toInt_inj.1 hdest.2)
  have hv' : v = 10 := by
    have hread : src.get ⟨1, 0⟩ = .ok 10 := by decide
    rw [hs', hread] at hv
    exact (Except.ok.inj hv).symm
  refine ⟨src, d, hs, hd, hne, e, he, ?_, hout ⟨1, 1⟩ (by decide)⟩
  rw [ht, hv'] at hget
  rw [hget]
  decide

end Pixmap

end Raster
