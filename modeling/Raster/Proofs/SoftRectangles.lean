import Raster.Proofs.Coverage
import Raster.Proofs.Rectangles

/- Rectangles with partial coverage. A rectangle between two positions reaches half a unit
   beyond both of them, in whatever order they stand. One given by its size has its far
   corner a unit before the end of the size: from one unit on that is the area of the
   size, but below that the corner lies before the origin, and the rectangle grows as the
   size shrinks (`softRectOf_sized_iff`). At whole positions a pixel is covered
   entirely or not at all (`Area.weight_whole`), and there the drawings are the plain ones
   (`whole_draw`). -/
namespace Raster

namespace Fixed

/-- The position of an integer. -/
def whole (v : Int) : Int64 := .ofInt (ofInt v)

theorem toInt_whole {v : Int} (h : v.natAbs ≤ 2 ^ 40) : (whole v).toInt = v * 256 := by
  rw [whole, ofInt_eq h]
  exact Int64.toInt_ofInt_of_le (by omega) (by omega)

end Fixed

namespace Area
open Fixed

/-- The area of a size that begins half a unit before a position. -/
def sized (x y w h : Int) : Area := ⟨x - 128, x - 128 + w, y - 128, y - 128 + h⟩

/-- The area between a position and the one that lies a unit before the end of a size, widened by half
a unit. -/
def cornered (x y w h : Int) : Area := between (x, y) (x + w - 256, y + h - 256) (128, 128)

/-- From one unit on, both are the same. -/
theorem cornered_eq_sized {x y w h : Int} (hw : 256 ≤ w) (hh : 256 ≤ h) :
    cornered x y w h = sized x y w h := by
  ext <;> dsimp only [cornered, between, sized] <;> omega

theorem share_whole (m n i : Int) :
    share (min (m * 256) (n * 256) - 128) (max (m * 256) (n * 256) + 128) i =
      if min m n ≤ i ∧ i ≤ max m n then 256 else 0 := by
  unfold share
  split_ifs <;> omega

/-- Between whole positions, widened by half a unit, every pixel is covered or none of it. -/
theorem weight_whole (p q : Int × Int) (x y : Int) :
    (between (p.1 * 256, p.2 * 256) (q.1 * 256, q.2 * 256) (128, 128)).weight x y =
      if InBox p q x y then 255 else 0 := by
  rw [between, weight_eq, share_whole, share_whole]
  by_cases hin : InBox p q x y
  · obtain ⟨h₁, h₂, h₃, h₄⟩ := id hin
    rw [if_pos hin, if_pos ⟨h₁, h₂⟩, if_pos ⟨h₃, h₄⟩]
    rfl
  · rw [if_neg hin]
    by_cases hx : min p.1 q.1 ≤ x ∧ x ≤ max p.1 q.1
    · have hy : ¬ (min p.2 q.2 ≤ y ∧ y ≤ max p.2 q.2) := fun hy => hin ⟨hx.1, hx.2, hy.1, hy.2⟩
      rw [if_neg hy, coverageWeight_zero_right]
    · rw [if_neg hx, coverageWeight_zero_left]

end Area

/-- The drawing with partial coverage that a point or a filled rectangle is at whole positions. -/
def Drawing.soft? : Drawing → Option SoftDrawing
  | pixel p => some (.point (Fixed.whole p.x.toInt) (Fixed.whole p.y.toInt))
  | fillRect p q => some (.rect (Fixed.whole p.x.toInt) (Fixed.whole p.y.toInt)
      (Fixed.whole q.x.toInt) (Fixed.whole q.y.toInt))
  | fillRectOf p w h => some (.rectOf (Fixed.whole p.x.toInt) (Fixed.whole p.y.toInt)
      (Fixed.whole w.toNat) (Fixed.whole h.toNat))
  | _ => none

namespace Frame
open Fixed
variable {f : Frame} {b c : Bytes}

theorem farEnd_eq {v size : Int} (hv : v.natAbs ≤ 2 ^ 60) (hs : size.natAbs ≤ 2 ^ 60) :
    farEnd v size = .ok (v + size - 256) := by
  rw [farEnd, check_int64 (by unfold reach; omega), ok_bind, one,
    check_int64 (by unfold reach; omega)]

theorem reflect_whole (on : Bool) (last v : Int) :
    Orientation.reflect on (256 * last) (v * 256) = Orientation.reflect on last v * 256 := by
  cases on with
  | false => rfl
  | true =>
    simp only [Orientation.reflect, if_true]
    omega

/-- The raw position of a whole position is that of a point. -/
theorem toRawFixed_whole (f : Frame) (x y : Int) :
    f.toRawFixed (x * 256) (y * 256) = ((f.toRaw x y).1 * 256, (f.toRaw x y).2 * 256) := by
  unfold toRawFixed toRaw Orientation.toRaw
  obtain ⟨swap, mx, my⟩ := f.orientation
  cases swap <;>
    simp only [Orientation.exchange, Bool.false_eq_true, if_true, if_false, reflect_whole]

/-- Mixed by the area between whole positions, a box is painted. -/
theorem Mixes.paints_box {v : Pixel} {x0 y0 x1 y1 : Int}
    (h : f.Mixes v (Area.between (f.toRawFixed (x0 * 256) (y0 * 256))
      (f.toRawFixed (x1 * 256) (y1 * 256)) (f.orientation.exchange (128, 128))).weight b c) :
    f.Paints (InBox (f.toRaw x0 y0) (f.toRaw x1 y1)) (fun _ _ => f.stored v) b c := by
  have hmargin : f.orientation.exchange ((128, 128) : Int × Int) = (128, 128) := by
    rw [Orientation.exchange, ite_self]
  rw [hmargin, toRawFixed_whole, toRawFixed_whole] at h
  apply h.paints
  · intro x y _ hin
    rw [Area.weight_whole, if_pos hin]
  · intro x y _ hout
    rw [Area.weight_whole, if_neg hout]

section Addressable
variable (hf : f.Addressable b.size) (v : Pixel)
include hf

theorem Addressable.softRectOf_mixes {x y w h : Int64}
    (hx : x.toInt.natAbs ≤ 2 ^ 57) (hy : y.toInt.natAbs ≤ 2 ^ 57) (hw : w.toInt.natAbs ≤ 2 ^ 57)
    (hh : h.toInt.natAbs ≤ 2 ^ 57) (hw₀ : 0 < w) (hh₀ : 0 < h) : Yields (f.softRectOf x y w h v b)
      (f.Mixes v (Area.between (f.toRawFixed x.toInt y.toInt)
        (f.toRawFixed (x.toInt + w.toInt - 256) (y.toInt + h.toInt - 256))
        (f.orientation.exchange (128, 128))).weight b) := by
  have hsize : ¬ (w ≤ 0 ∨ h ≤ 0) := by
    rw [not_or, Int64.not_le, Int64.not_le]
    exact ⟨hw₀, hh₀⟩
  rw [softRectOf, if_neg hsize, farEnd_eq (by omega) (by omega), ok_bind,
    farEnd_eq (by omega) (by omega), ok_bind]
  exact hf.softRectAt_mixes v (by omega) (by omega) (by omega) (by omega)

/-! Plain drawings at whole positions. -/

theorem Addressable.softRectAt_whole {x0 y0 x1 y1 : Int} (hx0 : x0.natAbs ≤ 2 ^ 50)
    (hy0 : y0.natAbs ≤ 2 ^ 50) (hx1 : x1.natAbs ≤ 2 ^ 50) (hy1 : y1.natAbs ≤ 2 ^ 50) :
    ∃ c, f.byCorners f.box x0 y0 x1 y1 v b = .ok c ∧
      f.softRectAt (x0 * 256) (y0 * 256) (x1 * 256) (y1 * 256) v b = .ok c := by
  have hnear : ∀ n : Int, n.natAbs ≤ 2 ^ 50 → n.natAbs ≤ 2 ^ 62 := by omega
  have hscaled : ∀ n : Int, n.natAbs ≤ 2 ^ 50 → (n * 256).natAbs ≤ 2 ^ 59 := by omega
  have hplain := byCorners_paints v (hnear x0 hx0) (hnear y0 hy0) (hnear x1 hx1) (hnear y1 hy1)
    (hf.box_paints v)
  have hsoft := hf.softRectAt_mixes v (hscaled x0 hx0) (hscaled y0 hy0) (hscaled x1 hx1)
    (hscaled y1 hy1)
  exact hplain.agree (hsoft.mono (fun _ hc => hc.paints_box)) (fun _ _ => Paints.unique hf.toValid)

theorem Addressable.whole_point (t : Point) :
    ∃ c, f.write t v b = .ok c ∧
      f.softPoint (whole t.x.toInt) (whole t.y.toInt) v b = .ok c := by
  have hx := natAbs_toInt_le t.x
  have hy := natAbs_toInt_le t.y
  have hwx := toInt_whole (v := t.x.toInt) (by omega)
  have hwy := toInt_whole (v := t.y.toInt) (by omega)
  have hsoft := hf.softPoint_mixes v (x := whole t.x.toInt) (y := whole t.y.toInt) (by omega) (by omega)
  rw [hwx, hwy] at hsoft
  refine (hf.user_write_paints t v).agree (hsoft.mono (fun c hc => hc.paints_box.area (fun x y _ => ?_)))
    (fun _ _ => Paints.unique hf.toValid)
  rw [← Prod.mk.eta (p := f.toRaw _ _), Prod.mk.injEq, InBox]
  omega

theorem Addressable.whole_box (t u : Point) :
    ∃ c, f.fillRect t u v b = .ok c ∧ f.softRect (whole t.x.toInt) (whole t.y.toInt)
      (whole u.x.toInt) (whole u.y.toInt) v b = .ok c := by
  have htx := natAbs_toInt_le t.x
  have hty := natAbs_toInt_le t.y
  have hux := natAbs_toInt_le u.x
  have huy := natAbs_toInt_le u.y
  rw [softRect, toInt_whole (by omega), toInt_whole (by omega), toInt_whole (by omega),
    toInt_whole (by omega)]
  exact hf.softRectAt_whole v (by omega) (by omega) (by omega) (by omega)

theorem Addressable.whole_boxOf (t : Point) (w h : UInt32) :
    ∃ c, f.fillRectOf t w h v b = .ok c ∧ f.softRectOf (whole t.x.toInt) (whole t.y.toInt)
      (whole w.toNat) (whole h.toNat) v b = .ok c := by
  have htx := natAbs_toInt_le t.x
  have hty := natAbs_toInt_le t.y
  have hw := w.toNat_lt
  have hh := h.toNat_lt
  have hempty : ∀ n : UInt32, whole n.toNat ≤ 0 ↔ n = 0 := by
    intro n
    have hn := n.toNat_lt
    rw [Int64.le_iff_toInt_le, toInt_whole (by omega), ← UInt32.toNat_inj]
    show (n.toNat : Int) * 256 ≤ 0 ↔ n.toNat = 0
    omega
  have hend : ∀ n m : Int, n * 256 + m * 256 - 256 = (n + m - 1) * 256 := by omega
  rw [fillRectOf, bySize, softRectOf]
  simp only [hempty]
  by_cases hsize : w = 0 ∨ h = 0
  · rw [if_pos hsize, if_pos hsize]
    exact ⟨b, rfl, rfl⟩
  · rw [if_neg hsize, if_neg hsize, toInt_whole (by omega), toInt_whole (by omega),
      toInt_whole (by omega), toInt_whole (by omega), farEnd_eq (by omega) (by omega), ok_bind,
      farEnd_eq (by omega) (by omega), ok_bind, hend, hend]
    exact hf.softRectAt_whole v (by omega) (by omega) (by omega) (by omega)

end Addressable

end Frame

namespace Pixmap
variable {p q : Pixmap} {s : Space} {W T : Int → Int → UInt8} {v : Pixel}

/-- What is read of a pixel is what is stored of it. -/
theorem Addressable.stored_get (hp : p.Addressable) {t : Point} {old : Pixel}
    (h : (p.seen s).get t = .ok old) : p.stored old = old.toNat := by
  rw [(hp.seen s).get_eq] at h
  have hlt : old.toNat < 2 ^ (p.seen s).bpp := by
    rw [← Except.ok.inj h]
    split_ifs
    · have hfits : (p.seen s).userPixel (p.seen s).bytes t.x.toInt t.y.toInt < 2 ^ 32 :=
        Frame.pixel_lt_uint32 ..
      rw [UInt32.toNat_ofNat_of_lt' hfits]
      exact Frame.pixel_lt ..
    · exact Nat.two_pow_pos _
  cases s <;> exact Frame.stored_eq_of_lt hlt

/-- Mixed with `v` by either weights, every point of the pixmap comes to the same. -/
def MixAlike (p : Pixmap) (s : Space) (v : Pixel) (W T : Int → Int → UInt8) : Prop :=
  ∀ t : Point, p.Holds s t.x.toInt t.y.toInt → ∀ old, (p.seen s).get t = .ok old →
    p.stored (mix p.pixelType p.gamma v old (W t.x.toInt t.y.toInt)) =
      p.stored (mix p.pixelType p.gamma v old (T t.x.toInt t.y.toInt))

/-- What is mixed by some weights is mixed by others just where both come to the same. -/
theorem Blends.congr_iff (hp : p.Addressable) (hq : p.Blends s W v q) :
    p.Blends s T v q ↔ p.MixAlike s v T W := by
  have hfits : ∀ w : Pixel, (UInt32.ofNat (p.stored w)).toNat = p.stored w := by
    intro w
    apply UInt32.toNat_ofNat_of_lt'
    exact Nat.lt_of_lt_of_le (Nat.mod_lt _ (Nat.two_pow_pos _))
      (Nat.pow_le_pow_right (by decide) (PixelType.bpp_le _))
  constructor
  · intro hT t ht old hold
    obtain ⟨w, hw, hqw⟩ := hq.get_in t ht
    obtain ⟨w', hw', hqw'⟩ := hT.get_in t ht
    cases hold.symm.trans hw
    cases hold.symm.trans hw'
    have hsame := congrArg UInt32.toNat (Except.ok.inj (hqw'.symm.trans hqw))
    exact (hfits _).symm.trans (hsame.trans (hfits _))
  · intro hsame
    refine ⟨hq.frame_eq, hq.keeps, fun t ht => ?_, fun t ht => ?_⟩
    · obtain ⟨old, hold, hnew⟩ := hq.get_in t ht
      refine ⟨old, hold, hnew.trans (congrArg (fun n => Except.ok (UInt32.ofNat n)) ?_)⟩
      exact (hsame t ht old hold).symm
    · by_cases hin : p.Holds s t.x.toInt t.y.toInt
      · -- without weight the stored pixel stays
        have hzero : T t.x.toInt t.y.toInt = 0 := not_not.1 (fun hT => ht ⟨hin, hT⟩)
        obtain ⟨old, hold, hnew⟩ := hq.get_in t hin
        have hkept := hsame t hin old hold
        rw [hzero, mix_zero, hp.stored_get hold] at hkept
        rw [hnew, hold]
        refine congrArg Except.ok ((congrArg UInt32.ofNat hkept).symm.trans ?_)
        exact UInt32.ofNat_toNat
      · exact hq.get_out t (fun h => hin h.1)

theorem Addressable.softRectOf_blends (hp : p.Addressable) (s : Space) (v : Pixel) {x y w h : Int64}
    (hnear : (SoftDrawing.rectOf x y w h).Near) (hw : 0 < w) (hh : 0 < h) :
    Yields (p.draw s ((SoftDrawing.rectOf x y w h).paint v))
      (p.Blends s (Area.cornered x.toInt y.toInt w.toInt h.toInt).weight v) := by
  have hf : (p.toFrame.seen s).Addressable p.bytes.size := Frame.Addressable.seen hp s
  simp only [SoftDrawing.Near, SoftDrawing.positions, List.forall_mem_cons] at hnear
  obtain ⟨hx, hy, hw', hh', -⟩ := hnear
  have hmix := hf.softRectOf_mixes v (x := x) (y := y) (by omega) (by omega) (by omega) (by omega)
    hw hh
  exact hp.draw_blends hmix (fun x y _ => Frame.weight_toRaw ..)

/-- A rectangle of some size mixes by the area from its origin to its far corner. That is mixing by the
area of the size just if this is a unit at least on both axes, or both come to the same. -/
theorem softRectOf_sized_iff (hp : p.Addressable) (s : Space) (v : Pixel) {x y w h : Int64}
    (hnear : (SoftDrawing.rectOf x y w h).Near) (hw : 0 < w) (hh : 0 < h) :
    ∃ q, p.draw s ((SoftDrawing.rectOf x y w h).paint v) = .ok q ∧
      p.Blends s (Area.cornered x.toInt y.toInt w.toInt h.toInt).weight v q ∧
        (p.Blends s (Area.sized x.toInt y.toInt w.toInt h.toInt).weight v q ↔
          (256 ≤ w ∧ 256 ≤ h) ∨ p.MixAlike s v (Area.sized x.toInt y.toInt w.toInt h.toInt).weight
            (Area.cornered x.toInt y.toInt w.toInt h.toInt).weight) := by
  obtain ⟨q, hq, hblends⟩ := hp.softRectOf_blends s v hnear hw hh
  refine ⟨q, hq, hblends, ?_⟩
  rw [hblends.congr_iff hp]
  constructor
  · exact Or.inr
  · rintro (⟨hw, hh⟩ | halike)
    · rw [Int64.le_iff_toInt_le] at hw hh
      rw [Area.cornered_eq_sized hw hh]
      exact fun _ _ _ _ => rfl
    · exact halike

/-- Half a unit wide, a rectangle covers the pixel at its origin whole, and half of the one before. -/
theorem softRectOf_sized_narrow : ∃ p q : Pixmap, p.Addressable ∧
    (SoftDrawing.rectOf 256 256 128 256).Near ∧
      p.draw .user ((SoftDrawing.rectOf 256 256 128 256).paint 255) = .ok q ∧
        ¬ p.Blends .user (Area.sized 256 256 128 256).weight 255 q ∧
          q.bytes = #[0, 0, 0, 0, 128, 255, 0, 0, 0, 0, 0, 0, 0, 0, 0, 0] := by
  let p : Pixmap := ⟨⟨0, 4, 4, 4, 0, .g8, .identity, none⟩, Array.replicate 16 0⟩
  have hp : p.Addressable := by
    refine ⟨⟨?_, ?_, ?_, ?_, ?_, ?_, ?_⟩, ?_, ?_⟩ <;> decide
  have hnear : (SoftDrawing.rectOf 256 256 128 256).Near := by decide
  obtain ⟨q, hq, -, hiff⟩ := softRectOf_sized_iff hp .user 255 hnear (by decide) (by decide)
  refine ⟨p, q, hp, hnear, hq, ?_, ?_⟩
  · intro hsized
    rcases hiff.1 hsized with hsize | halike
    · exact absurd hsize (by decide)
    · exact absurd (halike ⟨0, 1⟩ (by decide) 0 (by decide)) (by decide)
  · have hbytes : p.draw .user ((SoftDrawing.rectOf 256 256 128 256).paint 255) =
        .ok { p with bytes := #[0, 0, 0, 0, 128, 255, 0, 0, 0, 0, 0, 0, 0, 0, 0, 0] } := by rfl
    rw [hbytes] at hq
    cases hq
    rfl

/-- At whole positions points and filled rectangles with partial coverage are plain ones. -/
theorem whole_draw (hp : p.Addressable) (s : Space) (v : Pixel) {d : Drawing} {e : SoftDrawing}
    (hde : d.soft? = some e) :
    ∃ q, p.draw s (d.paint v) = .ok q ∧ p.draw s (e.paint v) = .ok q := by
  have hf : (p.toFrame.seen s).Addressable p.bytes.size := Frame.Addressable.seen hp s
  apply p.draw_agree
  cases d with
  | pixel t =>
    cases hde
    exact hf.whole_point v t
  | fillRect t u =>
    cases hde
    exact hf.whole_box v t u
  | fillRectOf t w h =>
    cases hde
    exact hf.whole_boxOf v t w h
  | _ => cases hde

/-- A value wider than the pixels, which have two bits, on a turned pixmap: the rectangle ends far outside
of it. -/
theorem whole_draw_wide : ∃ p q : Pixmap, p.Addressable ∧
    (Drawing.fillRectOf ⟨1, 0⟩ 0xffffffff 2).soft? = some (.rectOf 256 0 0xffffffff00 512) ∧
      p.draw .user ((Drawing.fillRectOf ⟨1, 0⟩ 0xffffffff 2).paint 0xfffffffe) = .ok q ∧
        p.draw .user ((SoftDrawing.rectOf 256 0 0xffffffff00 512).paint 0xfffffffe) = .ok q ∧
          q.bytes = #[0, 0, 0, 0, 160, 0, 160] := by
  let p : Pixmap :=
    ⟨⟨1, 4, 3, 2, 4, .g2ub, .rotated .identity .quarterTurn, none⟩, Array.replicate 7 0⟩
  have hp : p.Addressable := by
    refine ⟨⟨?_, ?_, ?_, ?_, ?_, ?_, ?_⟩, ?_, ?_⟩ <;> decide
  have hwhole : (Drawing.fillRectOf ⟨1, 0⟩ 0xffffffff 2).soft? =
      some (.rectOf 256 0 0xffffffff00 512) := by
    have hx : Fixed.whole (⟨1, 0⟩ : Point).x.toInt = 256 := by decide
    have hy : Fixed.whole (⟨1, 0⟩ : Point).y.toInt = 0 := by decide
    have hw : Fixed.whole ((0xffffffff : UInt32).toNat) = 0xffffffff00 := by decide
    have hh : Fixed.whole ((2 : UInt32).toNat) = 512 := by decide
    rw [Drawing.soft?, hx, hy, hw, hh]
  obtain ⟨q, hq, hsoft⟩ := whole_draw hp .user 0xfffffffe hwhole
  refine ⟨p, q, hp, hwhole, hq, hsoft, ?_⟩
  have hbytes : p.draw .user ((Drawing.fillRectOf ⟨1, 0⟩ 0xffffffff 2).paint 0xfffffffe) =
      .ok { p with bytes := #[0, 0, 0, 0, 160, 0, 160] } := by rfl
  rw [hbytes] at hq
  cases hq
  rfl

end Pixmap

end Raster
