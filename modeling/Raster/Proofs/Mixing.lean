import Raster.Draw.Coverage
import Raster.Proofs.Image

/- Mixing pixel by pixel. `Frame.Mixes f v W b c` is the exact effect of a drawing with
   partial coverage from `b` to `c`: every pixel of the frame is mixed with `v` by the
   weight that `W` gives it, and the bits between the pixels stay. A weight of zero leaves
   a pixel alone (`mixed_zero`), so two drawings may follow each other where no pixel has
   weight in both (`Mixes.trans`), and a loop mixes what its steps mix if every pixel
   belongs to one of them (`Mixes.forRange`). The weights fix the buffer (`Mixes.unique`);
   where they are all or nothing, mixing is painting (`Mixes.paints`). -/
namespace Raster

@[simp] theorem mix_zero (t : PixelType) (g : Option Gamma) (fg bg : Pixel) : mix t g fg bg 0 = bg :=
  rfl

@[simp] theorem mix_full (t : PixelType) (g : Option Gamma) (fg bg : Pixel) : mix t g fg bg 255 = fg :=
  rfl

namespace Frame

/-- What is stored in place of `old` if `weight` parts in 255 of `v` are mixed into it. -/
def mixed (f : Frame) (v : Pixel) (weight : UInt8) (old : Nat) : Nat :=
  f.stored (mix f.pixelType f.gamma v (.ofNat old) weight)

/-- From `b` to `c` every pixel is mixed with `v` by its weight, and nothing else changes. -/
structure Mixes (f : Frame) (v : Pixel) (W : Int → Int → UInt8) (b c : Bytes) : Prop where
  keeps : f.Keeps b c
  pixel_eq : ∀ x y, f.Contains x y → f.pixel c x y = f.mixed v (W x y) (f.pixel b x y)

variable {f : Frame} {v : Pixel} {b c d : Bytes} {W T U : Int → Int → UInt8}

/-- A pixel without weight stays. -/
theorem mixed_zero (f : Frame) (v : Pixel) {old : Nat} (h : old < 2 ^ f.bpp) :
    f.mixed v 0 old = old := by
  have hfits : old < 2 ^ 32 :=
    Nat.lt_of_lt_of_le h (Nat.pow_le_pow_right (by decide) (PixelType.bpp_le _))
  have hold : (UInt32.ofNat old).toNat = old := UInt32.toNat_ofNat_of_lt' hfits
  rw [mixed, mix_zero, stored_eq_of_lt (hold.symm ▸ h), hold]

/-- A pixel of full weight is replaced. -/
theorem mixed_full (f : Frame) (v : Pixel) (old : Nat) : f.mixed v 255 old = f.stored v := by
  rw [mixed, mix_full]

namespace Mixes

/-- No pixel of the frame has weight. -/
theorem none (hW : ∀ x y, f.Contains x y → W x y = 0) : f.Mixes v W b b := by
  refine ⟨Keeps.refl f b, fun x y hxy => ?_⟩
  rw [hW x y hxy, mixed_zero f v (pixel_lt ..)]

/-- The weights matter in the frame only. -/
theorem congr (h : f.Mixes v W b c) (hW : ∀ x y, f.Contains x y → W x y = T x y) :
    f.Mixes v T b c := by
  refine ⟨h.keeps, fun x y hxy => ?_⟩
  rw [h.pixel_eq x y hxy, hW x y hxy]

/-- The weights fix the buffer. -/
theorem unique (hf : f.Valid b.size) (hc : f.Mixes v W b c) (hd : f.Mixes v W b d) : c = d := by
  apply hc.keeps.ext hf hd.keeps
  intro x y hxy
  rw [hc.pixel_eq x y hxy, hd.pixel_eq x y hxy]

/-- Two drawings mix by `U` if each pixel has its weight in one of them and none in the other. -/
theorem trans (h₁ : f.Mixes v W b c) (h₂ : f.Mixes v T c d)
    (hU : ∀ x y, f.Contains x y → W x y = 0 ∧ T x y = U x y ∨ W x y = U x y ∧ T x y = 0) :
    f.Mixes v U b d := by
  refine ⟨h₁.keeps.trans h₂.keeps, fun x y hxy => ?_⟩
  rcases hU x y hxy with ⟨hw, ht⟩ | ⟨hw, ht⟩
  · calc f.pixel d x y = f.mixed v (T x y) (f.pixel c x y) := h₂.pixel_eq x y hxy
      _ = f.mixed v (U x y) (f.pixel b x y) := by
        rw [ht, h₁.pixel_eq x y hxy, hw, mixed_zero f v (pixel_lt ..)]
  · calc f.pixel d x y = f.mixed v (T x y) (f.pixel c x y) := h₂.pixel_eq x y hxy
      _ = f.pixel c x y := by rw [ht, mixed_zero f v (pixel_lt ..)]
      _ = f.mixed v (U x y) (f.pixel b x y) := by rw [h₁.pixel_eq x y hxy, hw]

/-- A loop mixes every pixel in the step `turn x y`, if each step mixes the pixels that have their
turn in it. -/
theorem forRange {lo hi : Int} {step : Int → Bytes → Except Fault Bytes} (turn : Int → Int → Int)
    (hstep : ∀ i c, lo ≤ i → i < hi → c.size = b.size →
      Yields (step i c) (f.Mixes v (fun x y => if turn x y = i then W x y else 0) c)) :
    Yields (Raster.forRange lo hi b step)
      (f.Mixes v (fun x y => if lo ≤ turn x y ∧ turn x y < hi then W x y else 0) b) := by
  -- before step `j` the pixels are mixed that had their turn so far
  let I : Int → Bytes → Prop := fun j c =>
    f.Mixes v (fun x y => if lo ≤ turn x y ∧ turn x y < j then W x y else 0) b c
  have hbase : I lo b := none (fun x y _ => if_neg (by omega))
  have hloop := Yields.forRange I hbase (fun j c h₀ h₁ hc => by
    apply (hstep j c h₀ h₁ hc.keeps.size_eq).mono
    intro d hd
    apply hc.trans hd
    intro x y _
    by_cases hj : turn x y = j
    · apply Or.inl
      rw [if_neg (by omega), if_pos hj, if_pos (by omega)]
      exact ⟨rfl, rfl⟩
    · apply Or.inr
      rw [if_neg hj]
      refine ⟨?_, rfl⟩
      congr 1
      rw [eq_iff_iff]
      omega)
  apply hloop.mono
  intro c hc
  apply hc.congr
  intro x y _
  congr 1
  rw [eq_iff_iff]
  omega

/-- An area outside of which no pixel has weight is painted with the mixtures. -/
theorem paints_mixed (h : f.Mixes v W b c) {S : Int → Int → Prop}
    (hout : ∀ x y, f.Contains x y → ¬ S x y → W x y = 0) :
    f.Paints S (fun x y => f.mixed v (W x y) (f.pixel b x y)) b c := by
  refine ⟨h.keeps, fun x y hxy _ => h.pixel_eq x y hxy, fun x y hxy hs => ?_⟩
  rw [h.pixel_eq x y hxy, hout x y hxy hs, mixed_zero f v (pixel_lt ..)]

/-- Full weight on an area and none outside of it paints the area. -/
theorem paints (h : f.Mixes v W b c) {S : Int → Int → Prop}
    (hin : ∀ x y, f.Contains x y → S x y → W x y = 255)
    (hout : ∀ x y, f.Contains x y → ¬ S x y → W x y = 0) :
    f.Paints S (fun _ _ => f.stored v) b c := by
  apply (h.paints_mixed hout).congr (fun _ _ _ => Iff.rfl)
  intro x y hxy hs
  rw [hin x y hxy hs, mixed_full]

end Mixes

/-! Single pixels. -/

section Addressable
variable (hf : f.Addressable b.size) (v : Pixel) (weight : UInt8)
include hf

theorem Addressable.mixRaw_mixes (x y : Int) :
    Yields (f.mixRaw x y v weight b)
      (f.Mixes v (fun x' y' => if x' = x ∧ y' = y then weight else 0) b) := by
  by_cases h : weight = 0 ∨ ¬ f.Contains x y
  · rw [mixRaw, if_pos h]
    apply Yields.ok
    apply Mixes.none
    intro x' y' hxy
    by_cases hat : x' = x ∧ y' = y
    · obtain ⟨rfl, rfl⟩ := hat
      rw [if_pos ⟨rfl, rfl⟩, h.resolve_right (fun hout => hout hxy)]
    · rw [if_neg hat]
  · have hxy : f.Contains x y := Decidable.of_not_not (fun hc => h (Or.inr hc))
    rw [mixRaw, if_neg h, hf.read_eq hxy, ok_bind]
    apply (hf.write_paints hxy _).mono
    intro c hc
    refine ⟨hc.keeps, fun x' y' hxy' => ?_⟩
    by_cases hat : x' = x ∧ y' = y
    · obtain ⟨rfl, rfl⟩ := hat
      rw [if_pos ⟨rfl, rfl⟩, hc.inside x' y' hxy' ⟨rfl, rfl⟩]
      rfl
    · rw [if_neg hat, hc.outside x' y' hxy' hat, mixed_zero f v (pixel_lt ..)]

theorem Addressable.mixAlong_mixes (steep : Bool) (major minor : Int) :
    Yields (f.mixAlong steep major minor v weight b)
      (f.Mixes v (fun x y =>
        if (if steep then y else x) = major ∧ (if steep then x else y) = minor then weight else 0)
        b) := by
  cases steep with
  | true =>
    apply (hf.mixRaw_mixes v weight minor major).mono
    intro c hc
    apply hc.congr
    intro x y _
    simp only [if_true, and_comm]
  | false => exact hf.mixRaw_mixes v weight major minor

end Addressable

end Frame

end Raster
