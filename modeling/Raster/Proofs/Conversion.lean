import Raster.Proofs.BlitClip
import Raster.Proofs.Copies

/- Conversions to another pixel type. What the user sees is kept: a pixmap that shows `p`
   at a point has there the pixel of `p`, converted to its own type (`Pixmap.ShowsAt`).
   A rectangle of the first columns and rows that is copied to its own place is shown by
   the destination (`BlitRect.Placed.shows_origin`). A conversion makes such a copy of all
   that is there, unless nothing has to be converted (`Pixmap.convert_shows`), and a
   conversion into a given pixmap of what has room in it (`Pixmap.convertInto_shows`). -/
namespace Raster

namespace Pixmap

/-- At the user point `t` there is the pixel of `p` in `q`, converted to its type. -/
def ShowsAt (p q : Pixmap) (t : Point) : Prop :=
  ∃ v, p.get t = .ok v ∧ q.get t = .ok (p.pixelType.convert v q.pixelType)

end Pixmap

namespace BlitRect
open Raster.Frame

/-- The first `n` columns and `m` rows, copied to their own place. -/
def origin (n m : Nat) : BlitRect := ⟨0, 0, n - 1, m - 1, 0, 0⟩

theorem ofCorners_origin {w h : UInt32} (hw₀ : 0 < w.toNat) (hh₀ : 0 < h.toNat)
    (hw : w.toNat ≤ 0x7fffffff) (hh : h.toNat ≤ 0x7fffffff) :
    ofCorners ⟨0, 0⟩ (farCorner ⟨0, 0⟩ w h) ⟨0, 0⟩ = origin w.toNat h.toNat := by
  rw [ofCorners_farCorner hw₀ hh₀, origin]
  congr 1 <;> omega

theorem origin_part (sw sh dw dh : UInt32) :
    (origin sw.toNat sh.toNat).part sw sh dw dh =
      origin (min sw.toNat dw.toNat) (min sh.toNat dh.toNat) := by
  simp only [origin, part, xAxis, yAxis, Axis.start, Axis.count, Axis.target]
  congr 1 <;> omega

variable {src d : Pixmap} {c : Bytes} {n m : Nat} {t : Point}

/-- It fits where both have as many columns and rows. -/
theorem origin_placed {f : Frame} (hn : 0 < n) (hm : 0 < m) (hsw : n ≤ src.userWidth.toNat)
    (hsh : m ≤ src.userHeight.toNat) (hdw : n ≤ f.userWidth.toNat) (hdh : m ≤ f.userHeight.toNat) :
    (origin n m).Placed src f := by
  unfold origin
  refine ⟨?_, ?_, ?_, ?_, ?_, ?_, ?_, ?_, ?_, ?_⟩ <;> dsimp only <;> omega

/-- The pixels of the rectangle are shown where they are copied to. -/
theorem Placed.shows_origin (hr : (origin n m).Placed src d.toFrame) (hs : src.Addressable)
    (hd : d.Addressable)
    (hp : d.Paints ((origin n m).Target d.toFrame) ((origin n m).image d.toFrame src) d.bytes c)
    (hx₀ : 0 ≤ t.x.toInt) (hx₁ : t.x.toInt < n) (hy₀ : 0 ≤ t.y.toInt) (hy₁ : t.y.toInt < m) :
    src.ShowsAt { d with bytes := c } t := by
  have hcolumns : (origin n m).x1 - (origin n m).x0 + 1 = n := by simp only [origin]; omega
  have hrows : (origin n m).y1 - (origin n m).y0 + 1 = m := by simp only [origin]; omega
  obtain ⟨s, u, hsource, htarget, v, hv, hget⟩ := hr.get_copied hs hd hp hx₀
    (hx₁.trans_eq hcolumns.symm) hy₀ (hy₁.trans_eq hrows.symm)
  -- source and target have the coordinates of `t`
  obtain rfl : s = t :=
    Point.ext_toInt (hsource.1.trans (Int.zero_add _)) (hsource.2.trans (Int.zero_add _))
  obtain rfl : u = s :=
    Point.ext_toInt (htarget.1.trans (Int.zero_add _)) (htarget.2.trans (Int.zero_add _))
  exact ⟨v, hv, hget⟩

/-- All other pixels are those that were there. -/
theorem get_outside_origin (hd : d.Addressable)
    (hp : d.Paints ((origin n m).Target d.toFrame) ((origin n m).image d.toFrame src) d.bytes c)
    (ht : ¬ (t.x.toInt < n ∧ t.y.toInt < m)) : ({ d with bytes := c } : Pixmap).get t = d.get t := by
  apply get_not_copied hd hp
  intro hin
  simp only [origin] at hin
  exact ht ⟨by omega, by omega⟩

/-- Without columns or rows nothing is copied. -/
theorem no_origin {f : Frame} (h : n = 0 ∨ m = 0) (x y : Int) : ¬ (origin n m).Target f x y := by
  rintro ⟨j, hj₀, hj₁, i, hi₀, hi₁, -⟩
  simp only [origin] at hi₁ hj₁
  omega

end BlitRect

/-- A clipped copy of a whole pixmap sets the columns and rows that both have. -/
theorem Frame.Addressable.blitClippedOf_paints {f : Frame} {b : Bytes} {src : Pixmap}
    (hf : f.Addressable b.size) (hs : src.Addressable) :
    let part := BlitRect.origin (min src.userWidth.toNat f.userWidth.toNat)
      (min src.userHeight.toNat f.userHeight.toNat)
    Yields (f.blitClippedOf src ⟨0, 0⟩ src.userWidth src.userHeight ⟨0, 0⟩ b)
      (f.Paints (part.Target f) (part.image f src) b) := by
  intro part
  obtain ⟨hw₁, hh₁⟩ := Frame.Addressable.user_le hs
  have hnone : min src.userWidth.toNat f.userWidth.toNat = 0 ∨
      min src.userHeight.toNat f.userHeight.toNat = 0 → f.Paints (part.Target f) (part.image f src) b b :=
    fun h => Paints.none (fun x y _ => BlitRect.no_origin h x y)
  unfold blitClippedOf
  by_cases hzero : src.userWidth = 0 ∨ src.userHeight = 0
  · rw [if_pos hzero]
    refine Yields.ok (hnone (hzero.imp (fun h => ?_) (fun h => ?_)))
    · rw [h, UInt32.toNat_zero, Nat.zero_min]
    · rw [h, UInt32.toNat_zero, Nat.zero_min]
  obtain ⟨hw₀, hh₀⟩ := not_or.1 hzero
  rw [← ne_eq, ← UInt32.pos_iff_ne_zero] at hw₀ hh₀
  have hcorners := BlitRect.ofCorners_origin hw₀ hh₀ hw₁ hh₁
  rw [if_neg hzero]
  by_cases hpos : 0 < f.userWidth.toNat ∧ 0 < f.userHeight.toNat
  · have hpaint := hf.blitClipped_paints ⟨0, 0⟩ (farCorner ⟨0, 0⟩ src.userWidth src.userHeight) ⟨0, 0⟩
      (BlitRect.Legible.of_addressable _ hs) hpos.1 hpos.2
    rwa [hcorners, BlitRect.origin_part] at hpaint
  · -- nothing is left where there are no points
    have hleft : ¬ ((BlitRect.origin src.userWidth.toNat src.userHeight.toNat).xAxis.Left
          src.userWidth.toNat f.userWidth.toNat ∧
        (BlitRect.origin src.userWidth.toNat src.userHeight.toNat).yAxis.Left
          src.userHeight.toNat f.userHeight.toNat) :=
      fun h => hpos ⟨Int.ofNat_lt.1 h.1.1, Int.ofNat_lt.1 h.2.1⟩
    rw [blitClipped, hcorners, BlitRect.clip_eq, if_neg hleft]
    exact Yields.ok (hnone (by omega))

namespace Pixmap
open Raster.Frame BlitRect
variable {p d : Pixmap} {type : PixelType}

/-- `q` is a pixmap of its own, of some type and in plain orientation, that shows all of `p`. -/
structure Converts (p : Pixmap) (type : PixelType) (q : Pixmap) : Prop where
  type_eq : q.pixelType = type
  userWidth_eq : q.userWidth = p.userWidth
  userHeight_eq : q.userHeight = p.userHeight
  orientation_eq : q.orientation = .identity
  offset_eq : q.offset = 0
  shows : ∀ t : Point, p.ContainsUser t.x.toInt t.y.toInt → p.ShowsAt q t

/-- From `d` to `e` the pixels show what there is room for of `p`, and zeros elsewhere; nothing else
changes. -/
structure ConvertsInto (p d e : Pixmap) : Prop where
  frame_eq : e.toFrame = d.toFrame
  keeps : d.Keeps d.bytes e.bytes
  shows : ∀ t : Point, p.ContainsUser t.x.toInt t.y.toInt → d.ContainsUser t.x.toInt t.y.toInt →
    p.ShowsAt e t
  clears : ∀ t : Point, ¬ (p.ContainsUser t.x.toInt t.y.toInt ∧ d.ContainsUser t.x.toInt t.y.toInt) →
    e.get t = .ok 0

theorem convert_self (t : PixelType) (v : Pixel) : t.convert v t = v := if_pos rfl

/-- Without a user point there is nothing to show. -/
theorem not_containsUser_of_zero (h : p.userWidth = 0 ∨ p.userHeight = 0) (x y : Int) :
    ¬ p.ContainsUser x y := by
  rintro ⟨hx₀, hy₀, hx₁, hy₁⟩
  rcases h with h | h
  · rw [h] at hx₁
    exact absurd hx₁ (by simpa using hx₀)
  · rw [h] at hy₁
    exact absurd hy₁ (by simpa using hy₀)

/-- A whole pixmap for which there is room is copied. -/
theorem blitAll_shows (hp : p.Addressable) (hd : d.Addressable)
    (hw : p.userWidth.toNat ≤ d.userWidth.toNat) (hh : p.userHeight.toNat ≤ d.userHeight.toNat) :
    Yields (d.blitAll p ⟨0, 0⟩) (fun e => e.toFrame = d.toFrame ∧
      ∀ t : Point, p.ContainsUser t.x.toInt t.y.toInt → p.ShowsAt e t) := by
  by_cases hzero : p.userWidth = 0 ∨ p.userHeight = 0
  · rw [blitAll, blitOf, if_pos hzero]
    exact Yields.ok ⟨rfl, fun t ht => absurd ht (not_containsUser_of_zero hzero _ _)⟩
  · obtain ⟨hw₀, hh₀⟩ := not_or.1 hzero
    rw [← ne_eq, ← UInt32.pos_iff_ne_zero] at hw₀ hh₀
    obtain ⟨hw₁, hh₁⟩ := Frame.Addressable.user_le hp
    have hplaced : (origin p.userWidth.toNat p.userHeight.toNat).Placed p d.toFrame :=
      origin_placed hw₀ hh₀ (Nat.le_refl _) (Nat.le_refl _) hw hh
    obtain ⟨c, hc, hpaint⟩ :=
      Frame.Addressable.blitUser_paints hd (Legible.of_addressable _ hp) hplaced
    have hdraw : (d.draw .user fun f b =>
        f.blitUser p (origin p.userWidth.toNat p.userHeight.toNat) b) = .ok { d with bytes := c } :=
      d.draw_ok hc
    have hfits := hplaced.fits
    rw [← ofCorners_origin hw₀ hh₀ hw₁ hh₁] at hfits hdraw
    have hblit : d.blit p .user ⟨0, 0⟩ (farCorner ⟨0, 0⟩ p.userWidth p.userHeight) ⟨0, 0⟩ =
        .ok { d with bytes := c } :=
      (if_pos hfits).trans (congrArg liftM hdraw)
    rw [blitAll, blitOf, if_neg hzero]
    refine ⟨_, hblit, rfl, fun t ht => ?_⟩
    obtain ⟨hx₀, hy₀, hx₁, hy₁⟩ := ht
    exact hplaced.shows_origin hp hd hpaint hx₀ hx₁ hy₀ hy₁

theorem convert_shows (hp : p.Addressable) (hnew : alloc p.userWidth p.userHeight type = .ok d) :
    Yields (p.convert type) (p.Converts type) := by
  by_cases hsame : type = p.pixelType ∧ p.orientation = .identity
  · rw [convert, if_pos hsame]
    obtain ⟨rfl, hplain⟩ := hsame
    obtain ⟨hw, hh⟩ := size_of_identity hplain
    have hmem : alloc p.width p.height p.pixelType ≠ .error (.fault .outOfMemory) := by
      rw [← hw, ← hh, hnew]
      exact nofun
    obtain ⟨c, hc, hq, hrepacks⟩ := copy_repacks hp hmem ⟨true, false, false⟩
    refine ⟨_, hc, rfl, hw.symm, hh.symm, rfl, rfl, fun t ht => ?_⟩
    have hget := hp.get_congr hq hplain.symm rfl rfl hrepacks.pixel_eq t
    refine ⟨_, hp.get_eq t, ?_⟩
    rw [hget, hp.get_eq t]
    exact congrArg Except.ok (convert_self ..).symm
  · rw [convert, if_neg hsame, hnew, ok_bind]
    obtain ⟨rfl, -⟩ := (alloc_blank ..).answer d hnew
    have howner := (alloc_owner ..).answer _ hnew
    have hblank : (blank p.userWidth p.userHeight type).Addressable :=
      ⟨howner.wellFormed, (Frame.Addressable.user_le hp).1, (Frame.Addressable.user_le hp).2⟩
    refine (blitAll_shows hp hblank (Nat.le_refl _) (Nat.le_refl _)).mono (fun q hq => ?_)
    obtain ⟨f, c⟩ := q
    obtain ⟨rfl, hshows⟩ := hq
    exact ⟨rfl, rfl, rfl, rfl, rfl, hshows⟩

theorem convertInto_shows (hp : p.Addressable) (hd : d.Addressable) :
    Yields (p.convertInto d) (p.ConvertsInto d) := by
  obtain ⟨b, hb, hfill⟩ := Frame.Addressable.fill_paints hd 0
  have hcleared : ({ d with bytes := b } : Pixmap).Addressable := hd.of_paints hfill
  obtain ⟨c, hc, hblit⟩ := Frame.Addressable.blitClippedOf_paints hcleared hp
  have hpaint : (d.toFrame.fill 0 d.bytes >>= fun b =>
      d.toFrame.blitClippedOf p ⟨0, 0⟩ p.userWidth p.userHeight ⟨0, 0⟩ b) = .ok c := by
    rw [hb, ok_bind]
    exact hc
  have hdraw : p.convertInto d = .ok { d with bytes := c } := d.draw_ok (s := .user) hpaint
  refine ⟨_, hdraw, rfl, hfill.keeps.trans hblit.keeps, fun t hsource htarget => ?_, fun t hout => ?_⟩
  · obtain ⟨hx₀, hy₀, hx₁, hy₁⟩ := hsource
    obtain ⟨-, -, hx₂, hy₂⟩ := htarget
    have hplaced : (origin (min p.userWidth.toNat d.userWidth.toNat)
        (min p.userHeight.toNat d.userHeight.toNat)).Placed p d.toFrame :=
      origin_placed (by omega) (by omega) (Nat.min_le_left ..) (Nat.min_le_left ..)
        (Nat.min_le_right ..) (Nat.min_le_right ..)
    exact hplaced.shows_origin (d := { d with bytes := b }) hp hcleared hblit hx₀ (by omega) hy₀
      (by omega)
  · by_cases ht : d.ContainsUser t.x.toInt t.y.toInt
    · -- a point that `p` lacks was cleared and not copied to
      have hcopied : ¬ (t.x.toInt < (min p.userWidth.toNat d.userWidth.toNat : Nat) ∧
          t.y.toInt < (min p.userHeight.toNat d.userHeight.toNat : Nat)) :=
        fun h => hout ⟨⟨ht.1, ht.2.1, by omega, by omega⟩, ht⟩
      have hget := get_outside_origin (d := { d with bytes := b }) hcleared hblit hcopied
      rw [hget, hd.get_painted hfill ht trivial, stored, UInt32.toNat_zero, Nat.zero_mod]
      rfl
    · rw [(hcleared.of_paints hblit).get_eq t]
      exact congrArg Except.ok (if_neg ht)

/-- Conversions keep what the user sees, in a pixmap of its own whenever one can be made, and in a
given one as far as it goes. -/
theorem conversion_shows (hp : p.Addressable) :
    (∀ type new, alloc p.userWidth p.userHeight type = .ok new →
      Yields (p.convert type) (p.Converts type)) ∧
    ∀ d, d.Addressable → Yields (p.convertInto d) (p.ConvertsInto d) :=
  ⟨fun _ _ hnew => convert_shows hp hnew, fun _ hd => convertInto_shows hp hd⟩

/-- A column of two pixels of one bit becomes one of four bits a pixel; of a row of 18 bits a pixel it
sets the first one and clears the other. -/
theorem conversion_shows_turned : ∃ p d q e : Pixmap, p.Addressable ∧ d.Addressable ∧
    p.convert .g4db = .ok q ∧ p.Converts .g4db q ∧ q.bytes = #[0x0f, 0] ∧
    p.convertInto d = .ok e ∧ p.ConvertsInto d e ∧
    e.bytes = #[0, 0xe5, 0xff, 0xff, 0, 0, 0xa4] := by
  let p : Pixmap := ⟨⟨0, 2, 1, 1, 5, .g1ub, ⟨true, false, false⟩, none⟩, #[0xfc]⟩
  let d : Pixmap := ⟨⟨1, 2, 1, 6, 6, .rgb666, .identity, none⟩,
    #[0, 0xa5, 0xa5, 0xa5, 0xa5, 0xa5, 0xa5]⟩
  have hp : p.Addressable := by
    refine ⟨⟨?_, ?_, ?_, ?_, ?_, ?_, ?_⟩, ?_, ?_⟩ <;> decide
  have hd : d.Addressable := by
    refine ⟨⟨?_, ?_, ?_, ?_, ?_, ?_, ?_⟩, ?_, ?_⟩ <;> decide
  obtain ⟨hconvert, hinto⟩ := conversion_shows hp
  obtain ⟨q, hq, hconverts⟩ := hconvert .g4db _ (alloc_ok (by decide) (by decide))
  obtain ⟨e, he, hconvertsInto⟩ := hinto d hd
  refine ⟨p, d, q, e, hp, hd, hq, hconverts, ?_, he, hconvertsInto, ?_⟩
  · obtain ⟨f, hb⟩ : ∃ f, p.convert .g4db = .ok ⟨f, #[0x0f, 0]⟩ := ⟨_, by unfold p; rfl⟩
    rw [hb] at hq
    cases hq
    rfl
  · have hb : p.convertInto d = .ok { d with bytes := #[0, 0xe5, 0xff, 0xff, 0, 0, 0xa4] } := by
      unfold p d
      rfl
    rw [hb] at he
    cases he
    rfl

end Pixmap

end Raster
