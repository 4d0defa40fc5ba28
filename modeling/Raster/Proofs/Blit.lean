import Raster.Blit
import Raster.Proofs.Encode
import Raster.Proofs.Runs
import Raster.Proofs.UserSpace

/- Copies of rectangles. A rectangle that fits is copied by one of three loops, by rows of
   bytes, by raw pixels or by user pixels; all of them paint the target of the rectangle
   with the converted pixels of the source and nothing else (`blitUser_paints`). The
   values that are painted, `BlitRect.image`, are read from the source before the copy
   starts, so that the order in which a loop goes over the rectangle has no part in it.
   A source may be larger than 32-bit integers reach, if the rectangle is not
   (`Legible`). -/
namespace Raster

namespace BlitRect

/-- The raw points of the copy in `f`. -/
def Target (r : BlitRect) (f : Frame) (x y : Int) : Prop :=
  ∃ j, 0 ≤ j ∧ j < r.y1 - r.y0 + 1 ∧ ∃ i, 0 ≤ i ∧ i < r.x1 - r.x0 + 1 ∧
    (x, y) = f.toRaw (r.x2 + i) (r.y2 + j)

/-- The pixel of the copy that stands for the user point `x`, `y` of the source. -/
def converted (f : Frame) (src : Pixmap) (x y : Int) : Pixel :=
  src.pixelType.convert (UInt32.ofNat (src.userPixel src.bytes x y)) f.pixelType

/-- What the copy stores at a raw point of `f`. -/
def image (r : BlitRect) (f : Frame) (src : Pixmap) (x y : Int) : Nat :=
  f.stored (converted f src (r.x0 + ((f.toUser x y).1 - r.x2)) (r.y0 + ((f.toUser x y).2 - r.y2)))

theorem image_toRaw (r : BlitRect) (f : Frame) (src : Pixmap) (i j : Int) {x y : Int}
    (h : (x, y) = f.toRaw (r.x2 + i) (r.y2 + j)) :
    r.image f src x y = f.stored (converted f src (r.x0 + i) (r.y0 + j)) := by
  have hu : f.toUser x y = (r.x2 + i, r.y2 + j) := by
    have hxy := f.toUser_toRaw (r.x2 + i) (r.y2 + j)
    rwa [← h] at hxy
  rw [image, hu]
  congr 2
  · omega
  · omega

/-- The points of the source up to the last corner are addressed by 32-bit integers, by the user and
in the buffer. -/
structure Legible (r : BlitRect) (src : Pixmap) : Prop where
  wellFormed : src.WellFormed
  user_le : ∀ x y, src.ContainsUser x y → x ≤ r.x1 → y ≤ r.y1 → x ≤ 0x7fffffff ∧ y ≤ 0x7fffffff
  raw_le : ∀ x y, src.ContainsUser x y → x ≤ r.x1 → y ≤ r.y1 →
    (src.toRaw x y).1 ≤ 0x7fffffff ∧ (src.toRaw x y).2 ≤ 0x7fffffff

/-- The corners are in order, and the rectangle and its copy lie in both user sizes. -/
structure Placed (r : BlitRect) (src : Pixmap) (f : Frame) : Prop where
  x_le : r.x0 ≤ r.x1
  y_le : r.y0 ≤ r.y1
  fits : r.Fits src.userWidth src.userHeight f.userWidth f.userHeight

variable {r : BlitRect} {src : Pixmap} {f : Frame} {i j : Int}

theorem Placed.contains_source (hr : r.Placed src f) (hi₀ : 0 ≤ i) (hi₁ : i < r.x1 - r.x0 + 1)
    (hj₀ : 0 ≤ j) (hj₁ : j < r.y1 - r.y0 + 1) : src.ContainsUser (r.x0 + i) (r.y0 + j) := by
  obtain ⟨h₁, h₂, h₃, h₄, h₅, h₆, h₇, h₈⟩ := hr.fits
  exact ⟨by omega, by omega, by omega, by omega⟩

theorem Placed.contains_target (hr : r.Placed src f) (hi₀ : 0 ≤ i) (hi₁ : i < r.x1 - r.x0 + 1)
    (hj₀ : 0 ≤ j) (hj₁ : j < r.y1 - r.y0 + 1) : f.ContainsUser (r.x2 + i) (r.y2 + j) := by
  obtain ⟨h₁, h₂, h₃, h₄, h₅, h₆, h₇, h₈⟩ := hr.fits
  exact ⟨by omega, by omega, by omega, by omega⟩

/-! What can be read of the source. -/

theorem Legible.of_addressable (r : BlitRect) (hs : src.Addressable) : r.Legible src := by
  obtain ⟨hw, hh⟩ := Frame.Addressable.user_le hs
  have hw' := hs.width_le
  have hh' := hs.height_le
  refine ⟨hs.toValid, fun x y hxy _ _ => ?_, fun x y hxy _ _ => ?_⟩
  · obtain ⟨-, -, hx, hy⟩ := hxy
    omega
  · obtain ⟨-, -, hx, hy⟩ := (src.contains_toRaw x y).2 hxy
    omega

section Legible
variable {x y : Int} (hs : r.Legible src) (hxy : src.ContainsUser x y) (hx : x ≤ r.x1)
  (hy : y ≤ r.y1)
include hs hxy hx hy

theorem Legible.readRaw_eq :
    src.readRaw (.ofInt (src.toRaw x y).1) (.ofInt (src.toRaw x y).2) src.bytes =
      .ok (UInt32.ofNat (src.userPixel src.bytes x y)) := by
  have hraw := (src.contains_toRaw x y).2 hxy
  obtain ⟨hx₁, hy₁⟩ := hs.raw_le x y hxy hx hy
  obtain ⟨hx₀, hy₀, -, -⟩ := hraw
  have hx' : (Int32.ofInt (src.toRaw x y).1).toInt = (src.toRaw x y).1 :=
    Int32.toInt_ofInt_of_le (by omega) (by omega)
  have hy' : (Int32.ofInt (src.toRaw x y).2).toInt = (src.toRaw x y).2 :=
    Int32.toInt_ofInt_of_le (by omega) (by omega)
  have hread := Frame.Valid.readRaw_eq hs.wellFormed (.ofInt (src.toRaw x y).1)
    (.ofInt (src.toRaw x y).2) (by rw [hx', hy']; exact (src.contains_toRaw x y).2 hxy)
  rwa [hx', hy'] at hread

theorem Legible.get_eq :
    src.get ⟨.ofInt x, .ofInt y⟩ = .ok (UInt32.ofNat (src.userPixel src.bytes x y)) := by
  obtain ⟨hx₁, hy₁⟩ := hs.user_le x y hxy hx hy
  have hread := hs.readRaw_eq hxy hx hy
  have hraw := (src.contains_toRaw x y).2 hxy
  obtain ⟨hx₀, hy₀, -, -⟩ := hxy
  have hx' : (Int32.ofInt x).toInt = x := Int32.toInt_ofInt_of_le (by omega) (by omega)
  have hy' : (Int32.ofInt y).toInt = y := Int32.toInt_ofInt_of_le (by omega) (by omega)
  rw [Pixmap.get, Frame.read, Frame.rawPoint_point, ok_bind]
  simp only [hx', hy']
  rw [Frame.readClipped, if_pos hraw]
  exact hread

end Legible

end BlitRect

namespace Frame
open BlitRect (converted)
variable {f : Frame} {b : Bytes} {src : Pixmap} {r : BlitRect} {x y : Int}

/-! Pixel by pixel. -/

theorem toInt_ofInt_of_nonneg {v : Int} (hv : 0 ≤ v) (h : v ≤ 0x7fffffff) :
    (Int32.ofInt v).toInt = v :=
  Int32.toInt_ofInt_of_le (by omega) (by omega)

theorem offsetBy_eq {v i : Int} (hv : 0 ≤ v) (hi : 0 ≤ i) (h : v + i ≤ 0x7fffffff) :
    offsetBy v i = .ok (.ofInt (v + i)) := by
  have hcheck : Bounds.int32.check (v + i) = .ok (v + i) :=
    Bounds.check_of_holds (by simp only [Bounds.Holds, Bounds.int32]; omega)
  rw [offsetBy, toInt_ofInt_of_nonneg hv (by omega), hcheck]
  rfl

theorem loopSpan_eq {u v : Int} (h₀ : 0 ≤ v - u) (h₁ : v - u ≤ 0x7fffffff) :
    loopSpan u v = v - u + 1 := by
  rw [loopSpan, toInt_ofInt_of_nonneg h₀ h₁]

section Addressable
variable (hf : f.Addressable b.size)
include hf

/-- A loop that reads converted pixels and sets single pixels paints the copy. -/
theorem Addressable.blitPixels_paints (hs : r.Legible src) (hr : r.Placed src f)
    {get : Int32 → Int32 → Except Fault Pixel}
    {put : Int32 → Int32 → Pixel → Bytes → Except Fault Bytes}
    (hget : ∀ x y, src.ContainsUser x y → x ≤ r.x1 → y ≤ r.y1 →
      get (.ofInt x) (.ofInt y) = .ok (converted f src x y))
    (hput : ∀ x y v c, f.ContainsUser x y → c.size = b.size →
      Yields (put (.ofInt x) (.ofInt y) v c)
        (f.Paints (fun x' y' => (x', y') = f.toRaw x y) (fun _ _ => f.stored v) c)) :
    Yields (blitPixels (r.y1 - r.y0 + 1) (r.x1 - r.x0 + 1) r get put b)
      (f.Paints (r.Target f) (r.image f src) b) := by
  obtain ⟨h₁, h₂, h₃, h₄, h₅, h₆, h₇, h₈⟩ := hr.fits
  obtain ⟨hw, hh⟩ := hf.user_le
  apply Paints.forRange _
  intro j c hj₀ hj₁ hc
  refine Paints.forRange (fun i x y => (x, y) = f.toRaw (r.x2 + i) (r.y2 + j))
    (fun i d hi₀ hi₁ hd => ?_)
  -- pixel `i` of row `j`: all four coordinates fit 32 bits
  have hsrc := hr.contains_source hi₀ hi₁ hj₀ hj₁
  have hdst := hr.contains_target hi₀ hi₁ hj₀ hj₁
  obtain ⟨hx, hy⟩ := hs.user_le _ _ hsrc (by omega) (by omega)
  rw [offsetBy_eq h₁ hi₀ hx, ok_bind, offsetBy_eq h₂ hj₀ hy, ok_bind,
    hget _ _ hsrc (by omega) (by omega), ok_bind, offsetBy_eq h₅ hi₀ (by omega), ok_bind, offsetBy_eq h₆ hj₀ (by omega),
    ok_bind]
  apply (hput _ _ _ d hdst (hd.trans hc)).mono
  intro e he
  exact he.congr (fun _ _ _ => Iff.rfl) (fun x y _ hxy => (r.image_toRaw f src i j hxy).symm)

end Addressable

/-! Row by row. -/

/-- A run of bytes of a source of the same type holds the pixels of a run. -/
theorem Valid.copyBytes_paints (hf : f.Valid b.size) (hs : src.WellFormed)
    (ht : src.pixelType = f.pixelType) (ha : f.isAligned = true) (ha' : src.isAligned = true)
    (x y x' y' count : Nat) (hx : x + count ≤ f.width.toNat) (hy : y < f.height.toNat)
    (hx' : x' + count ≤ src.width.toNat) (hy' : y' < src.height.toNat) (hcount : 0 < count) :
    Yields (f.copyBytes src (y * f.stride + x * (src.bpp / 8)) (y' * src.stride + x' * (src.bpp / 8))
        (count * (src.bpp / 8)) b)
      (f.Paints (InRun x y count)
        (fun u v => src.pixel src.bytes (x' + (u - x)) (y' + (v - y))) b) := by
  have hbpp : src.bpp = f.bpp := congrArg PixelType.bpp ht
  have hle := hf.run_le ha hx hy hcount
  have hle' := Valid.run_le hs ha' hx' hy' hcount
  have h8 := bpp_of_aligned ha
  rw [hbpp] at hle' ⊢
  refine ⟨_, if_pos ⟨hle', hle⟩, ?_⟩
  refine hf.run_paints ha hx hy (Bytes.size_copyRun ..) (fun j hj => ?_) (fun k hk => ?_)
  · have hend : (j + 1) * (f.bpp / 8) ≤ count * (f.bpp / 8) := Nat.mul_le_mul_right _ hj
    rw [Nat.succ_mul] at hend
    simp only [pixel, Int.toNat_natCast]
    have hcolumn : (x' + ((x + j : Nat) - x) : Int).toNat = x' + j := by omega
    have hrow : (y' + ((y : Nat) - y) : Int).toNat = y' := by omega
    rw [hcolumn, hrow, hbpp]
    apply Bytes.window_congr
    intro k hk
    rw [hf.position_of_aligned ha, Valid.position_of_aligned hs ha', hbpp, Nat.add_mul, Nat.add_mul,
      Bytes.bit_copyRun hle, if_pos (by omega)]
    congr 1
    omega
  · rw [hf.position_of_aligned ha] at hk
    rw [Bytes.bit_copyRun hle, if_neg (by omega)]

theorem rowCount_eq {u v : Int} (h₀ : 0 ≤ v - u) (h₁ : v - u ≤ 0xffffffff) :
    rowCount u v = v - u + 1 := by
  rw [rowCount, Int.emod_eq_of_lt h₀ (by omega)]

/-- A pixel of the same type is stored as it is. -/
theorem stored_converted (ht : src.pixelType = f.pixelType) (x y : Int) :
    f.stored (converted f src x y) = src.userPixel src.bytes x y := by
  have hlt : src.userPixel src.bytes x y < 2 ^ src.bpp := pixel_lt ..
  have hlt' : src.userPixel src.bytes x y < 2 ^ 32 := pixel_lt_uint32 ..
  have hbpp : src.bpp = f.bpp := congrArg PixelType.bpp ht
  rw [hbpp] at hlt
  rw [converted, PixelType.convert, if_pos ht, stored, UInt32.toNat_ofNat_of_lt' hlt',
    Nat.mod_eq_of_lt hlt]

section Blit
variable (hf : f.Addressable b.size) (hs : r.Legible src) (hr : r.Placed src f)
include hf hs hr

theorem Addressable.blitRows_paints (ht : src.pixelType = f.pixelType) (ha : f.isAligned = true)
    (ha' : src.isAligned = true) (ho : f.orientation = .identity)
    (ho' : src.orientation = .identity) :
    Yields (f.blitRows src r b) (f.Paints (r.Target f) (r.image f src) b) := by
  obtain ⟨h₁, h₂, h₃, h₄, h₅, h₆, h₇, h₈⟩ := hr.fits
  obtain ⟨hw, hh⟩ := hf.user_le
  have hxle := hr.x_le
  have hyle := hr.y_le
  unfold blitRows
  rw [rowCount_eq (by omega) (by omega)]
  refine (Paints.forRange (fun j => InRun r.x2.toNat (r.y2 + j).toNat (r.x1 - r.x0 + 1).toNat)
    (fun j c hj₀ hj₁ hc => ?_)).mono (fun c hc => hc.area (fun x y _ => ?_))
  · -- the row lies in both pixmaps, from its first pixel to its last
    have hsrc := hr.contains_source (Int.le_refl 0) (by omega) hj₀ hj₁
    have hsrc' := hr.contains_source (show 0 ≤ r.x1 - r.x0 by omega) (by omega) hj₀ hj₁
    have hdst := hr.contains_target (Int.le_refl 0) (by omega) hj₀ hj₁
    have hdst' := hr.contains_target (show 0 ≤ r.x1 - r.x0 by omega) (by omega) hj₀ hj₁
    rw [← contains_of_identity ho'] at hsrc hsrc'
    rw [← contains_of_identity ho] at hdst hdst'
    obtain ⟨hx₀, hy₀, hx₁, hy₁⟩ := hsrc
    obtain ⟨-, -, hx₂, -⟩ := hsrc'
    obtain ⟨hx₃, hy₃, hx₄, hy₄⟩ := hdst
    obtain ⟨-, -, hx₅, -⟩ := hdst'
    have hcopy := (hc ▸ hf.toValid : f.Valid c.size).copyBytes_paints hs.wellFormed ht ha ha' r.x2.toNat
      (r.y2 + j).toNat r.x0.toNat (r.y0 + j).toNat (r.x1 - r.x0 + 1).toNat (by omega) (by omega)
      (by omega) (by omega) (by omega)
    refine hcopy.mono (fun d hd => hd.congr (fun _ _ _ => Iff.rfl) (fun x y _ hxy => ?_))
    obtain ⟨hy, hxlow, hxhigh⟩ := hxy
    have hpoint : (x, y) = f.toRaw (r.x2 + (x - r.x2)) (r.y2 + j) := by
      rw [toRaw_of_identity ho, Prod.mk.injEq]
      omega
    rw [r.image_toRaw f src _ j hpoint, stored_converted ht, userPixel, toRaw_of_identity ho']
    congr 1
    · omega
    · omega
  · simp only [BlitRect.Target, InRun, toRaw_of_identity ho, Prod.mk.injEq]
    constructor
    · intro h
      obtain ⟨j, hj₀, hj₁, hy, hxlow, hxhigh⟩ := h
      exact ⟨j, hj₀, hj₁, x - r.x2, by omega, by omega, by omega, by omega⟩
    · intro h
      obtain ⟨j, hj₀, hj₁, i, hi₀, hi₁, hx, hy⟩ := h
      exact ⟨j, hj₀, hj₁, by omega, by omega, by omega⟩

theorem Addressable.blitRaw_paints (ho : f.orientation = .identity)
    (ho' : src.orientation = .identity) :
    Yields (f.blitRaw src r b) (f.Paints (r.Target f) (r.image f src) b) := by
  obtain ⟨h₁, h₂, h₃, h₄, h₅, h₆, h₇, h₈⟩ := hr.fits
  obtain ⟨hw, hh⟩ := hf.user_le
  have hxle := hr.x_le
  have hyle := hr.y_le
  unfold blitRaw
  by_cases hrows : src.pixelType = f.pixelType ∧ src.isAligned = true ∧ f.isAligned = true
  · rw [if_pos hrows]
    exact hf.blitRows_paints hs hr hrows.1 hrows.2.2 hrows.2.1 ho ho'
  · rw [if_neg hrows, loopSpan_eq (by omega) (by omega), toInt_ofInt_of_nonneg (by omega) (by omega)]
    refine hf.blitPixels_paints hs hr (fun x y hxy hx hy => ?_) (fun x y v c hxy hc => ?_)
    · have hread := hs.readRaw_eq hxy hx hy
      rw [toRaw_of_identity ho'] at hread
      rw [hread]
      rfl
    · have hwrite := (hc ▸ hf : f.Addressable c.size).write_paints ((contains_of_identity ho).2 hxy) v
      apply hwrite.mono
      intro d hd
      apply hd.area
      intro x' y' _
      rw [toRaw_of_identity ho, Prod.mk.injEq]

/-- The copy of a rectangle that fits sets its target to the converted pixels of the source. -/
theorem Addressable.blitUser_paints :
    Yields (f.blitUser src r b) (f.Paints (r.Target f) (r.image f src) b) := by
  obtain ⟨h₁, h₂, h₃, h₄, h₅, h₆, h₇, h₈⟩ := hr.fits
  obtain ⟨hw, hh⟩ := hf.user_le
  have hxle := hr.x_le
  have hyle := hr.y_le
  unfold blitUser
  by_cases hplain : src.orientation = .identity ∧ f.orientation = .identity
  · rw [if_pos hplain]
    exact hf.blitRaw_paints hs hr hplain.2 hplain.1
  · rw [if_neg hplain, loopSpan_eq (by omega) (by omega), loopSpan_eq (by omega) (by omega)]
    refine hf.blitPixels_paints hs hr (fun x y hxy hx hy => ?_) (fun x y v c hxy hc => ?_)
    · rw [hs.get_eq hxy hx hy]
      rfl
    · obtain ⟨hx, hy⟩ := hf.user_toInt_ofInt hxy
      have hwrite := (hc ▸ hf : f.Addressable c.size).user_write_paints ⟨.ofInt x, .ofInt y⟩ v
      simp only [hx, hy] at hwrite
      exact hwrite

end Blit

/-! The pixels of a copy. -/

/-- A pixel is stored as it was converted. -/
theorem ofNat_stored_converted (f : Frame) (src : Pixmap) (x y : Int) :
    UInt32.ofNat (f.stored (converted f src x y)) = converted f src x y := by
  have hlt : src.userPixel src.bytes x y < 2 ^ src.bpp := pixel_lt ..
  have hlt' : src.userPixel src.bytes x y < 2 ^ 32 := pixel_lt_uint32 ..
  have hsrc : (UInt32.ofNat (src.userPixel src.bytes x y)).toNat < 2 ^ src.bpp := by
    rw [UInt32.toNat_ofNat_of_lt' hlt']
    exact hlt
  have hconverted : (converted f src x y).toNat < 2 ^ f.bpp :=
    PixelType.convert_lt hsrc f.pixelType
  rw [stored_eq_of_lt hconverted, UInt32.ofNat_toNat]

end Frame

namespace BlitRect
open Raster.Frame
variable {r : BlitRect} {src d : Pixmap} {c : Bytes} {i j : Int}

/-- A pixel of the copy reads as the converted one of the source. -/
theorem Placed.get_copied (hr : r.Placed src d.toFrame) (hs : src.Addressable) (hd : d.Addressable)
    (hp : d.Paints (r.Target d.toFrame) (r.image d.toFrame src) d.bytes c)
    (hi₀ : 0 ≤ i) (hi₁ : i < r.x1 - r.x0 + 1) (hj₀ : 0 ≤ j) (hj₁ : j < r.y1 - r.y0 + 1) :
    ∃ s t : Point, (s.x.toInt = r.x0 + i ∧ s.y.toInt = r.y0 + j) ∧
      (t.x.toInt = r.x2 + i ∧ t.y.toInt = r.y2 + j) ∧
      ∃ v, src.get s = .ok v ∧
        ({ d with bytes := c } : Pixmap).get t = .ok (src.pixelType.convert v d.pixelType) := by
  have hsrc := hr.contains_source hi₀ hi₁ hj₀ hj₁
  have hdst := hr.contains_target hi₀ hi₁ hj₀ hj₁
  have hs' := Addressable.user_toInt_ofInt hs hsrc
  have hd' := Addressable.user_toInt_ofInt hd hdst
  refine ⟨⟨.ofInt (r.x0 + i), .ofInt (r.y0 + j)⟩, ⟨.ofInt (r.x2 + i), .ofInt (r.y2 + j)⟩, hs', hd',
    UInt32.ofNat (src.userPixel src.bytes (r.x0 + i) (r.y0 + j)), ?_, ?_⟩
  · rw [hs.get_eq]
    simp only [hs'.1, hs'.2, if_pos hsrc]
  · have hvalue : r.image d.toFrame src (d.toRaw (r.x2 + i) (r.y2 + j)).1
        (d.toRaw (r.x2 + i) (r.y2 + j)).2 =
          d.stored (converted d.toFrame src (r.x0 + i) (r.y0 + j)) :=
      image_toRaw _ _ _ i j rfl
    rw [hd.get_painted hp]
    · simp only [hd'.1, hd'.2]
      rw [hvalue, ofNat_stored_converted]
      rfl
    · simp only [hd'.1, hd'.2]
      exact hdst
    · simp only [hd'.1, hd'.2]
      exact ⟨j, hj₀, hj₁, i, hi₀, hi₁, rfl⟩

/-- All other pixels read as before. -/
theorem get_not_copied (hd : d.Addressable)
    (hp : d.Paints (r.Target d.toFrame) (r.image d.toFrame src) d.bytes c) {t : Point}
    (ht : ¬ (r.x2 ≤ t.x.toInt ∧ t.x.toInt < r.x2 + (r.x1 - r.x0 + 1) ∧
      r.y2 ≤ t.y.toInt ∧ t.y.toInt < r.y2 + (r.y1 - r.y0 + 1))) :
    ({ d with bytes := c } : Pixmap).get t = d.get t := by
  apply hd.get_unpainted hp
  intro _ htarget
  obtain ⟨j, hj₀, hj₁, i, hi₀, hi₁, hpoint⟩ := htarget
  obtain ⟨hx, hy⟩ := d.toRaw_inj.1 hpoint
  omega

end BlitRect

end Raster
