import Raster.Draw.Coverage
import Raster.Proofs.BufferSize
import Raster.Proofs.Image
import Raster.Proofs.Rounding

/- When lines with partial coverage fault. Positions are numbers of 64 bits, and the
   differences between the ends of a line, and between its start and the pixels that it
   reaches, need not be (`SoftFits`). With them everything else fits: the product of two
   differences is of 128 bits, what remains beside the lower pixel is less than one
   unit, and a pixel is mixed in the frame only. So a line answers exactly if it fits
   (`Addressable.slant_keeps`, `slant_stops`), and then keeps what lies between the
   pixels. -/
namespace Raster

namespace Fixed

/-- The largest distance that fits 64 bits. -/
def reach : Nat := 0x7fffffffffffffff

theorem check_int64 {v : Int} (h : v.natAbs ≤ reach) : Bounds.int64.check v = .ok v :=
  Bounds.check_of_holds (by unfold reach at h; simp only [Bounds.Holds, Bounds.int64]; omega)

theorem ofInt_eq {i : Int} (h : i.natAbs ≤ 2 ^ 40) : ofInt i = i * 256 :=
  Int.bmod_eq_of_le (by omega) (by omega)

theorem pixelOf_eq {v : Int} (h₀ : -reach - 1 ≤ v) (h₁ : v + 128 ≤ reach) :
    pixelOf v = .ok ((v + 128) / 256) := by
  unfold reach at h₀ h₁
  have hcheck : Bounds.int64.check (v + half) = .ok (v + half) :=
    Bounds.check_of_holds (by simp only [Bounds.Holds, Bounds.int64, half]; omega)
  rw [pixelOf, hcheck]
  rfl

/-- The part of a range inside a pixel, where its length fits 64 bits. -/
theorem overlap_eq {a b i : Int} (h₀ : 0 ≤ i) (h₁ : i ≤ 2 ^ 32)
    (h : (min b (256 * i + 128) - max a (256 * i - 128)).natAbs ≤ reach) :
    overlap a b i = .ok (max (min b (256 * i + 128) - max a (256 * i - 128)) 0) := by
  have hlow : i * 256 - 128 = 256 * i - 128 := by omega
  have hhigh : i * 256 - 128 + 256 = 256 * i + 128 := by omega
  rw [overlap, ofInt_eq (by omega), half, one, check_int64 (by unfold reach; omega), ok_bind,
    check_int64 (by unfold reach; omega), ok_bind, hhigh, hlow, check_int64 h, ok_bind, pure_eq_ok]

end Fixed

namespace Frame
open Bounds Fixed

namespace Slant

/-- The line between two positions along its longer axis, with ascending major ends. -/
def along (x0 y0 x1 y1 : Int) : Slant :=
  if (x1 - x0).natAbs < (y1 - y0).natAbs then
    if y1 < y0 then ⟨true, y1, x1, y0, x0⟩ else ⟨true, y0, x0, y1, x1⟩
  else
    if x1 < x0 then ⟨false, x1, y1, x0, y0⟩ else ⟨false, x0, y0, x1, y1⟩

/-- The last pixel along the major axis that the line reaches, of `size` ones. -/
def lastPixel (s : Slant) (size : Nat) : Int := min (size - 1) ((s.major1 + 127) / 256)

/-- The line has no length, or the end of its last pixel and the distance from its start to the
last pixel that it reaches fit 64 bits. -/
def Fits (s : Slant) (size : Nat) : Prop :=
  s.major0 = s.major1 ∨
    (s.major1 + 128 ≤ reach ∧ 256 * s.lastPixel size - s.major0 ≤ reach)

instance (s : Slant) (size : Nat) : Decidable (s.Fits size) := inferInstanceAs (Decidable (_ ∨ _))

/-- The size of a frame of width `w` and height `h` along the major axis. -/
def majorSize (s : Slant) (w h : Nat) : Nat := if s.steep then h else w

/-- The ends are positions of 64 bits, the major ones in order and not too far apart, and the minor
ones no further apart than they are. -/
structure Ordered (s : Slant) : Prop where
  low : -reach - 1 ≤ s.major0
  le : s.major0 ≤ s.major1
  high : s.major1 ≤ reach
  minor : s.minor0.natAbs ≤ reach + 1
  length : s.major1 - s.major0 ≤ reach
  rise : (s.minor1 - s.minor0).natAbs ≤ s.major1 - s.major0

theorem magnitude_eq {v : Int} (h : v.natAbs ≤ reach) : magnitude v = .ok v.natAbs := by
  rw [magnitude, check_int64 h, ok_bind]
  exact check_int64 h

theorem magnitude_stops {v : Int} (h : ¬ v.natAbs ≤ reach) : Stops (magnitude v) := by
  unfold reach at h
  refine Stops.bind (P := fun w => w = v) ⟨fun w hw => (check_eq_ok_iff.1 hw).2.symm⟩ (fun w hw => ?_)
  subst hw
  apply Stops.check
  simp only [Holds, int64]
  omega

variable {x0 y0 x1 y1 : Int}

theorem between_eq (hx : (x1 - x0).natAbs ≤ reach) (hy : (y1 - y0).natAbs ≤ reach) :
    between x0 y0 x1 y1 = .ok (along x0 y0 x1 y1) := by
  rw [between, magnitude_eq hy, ok_bind, magnitude_eq hx, ok_bind, pure_eq_ok, along]
  simp only [Int.ofNat_lt]

theorem between_stops (h : ¬ ((x1 - x0).natAbs ≤ reach ∧ (y1 - y0).natAbs ≤ reach)) :
    Stops (between x0 y0 x1 y1) := by
  by_cases hy : (y1 - y0).natAbs ≤ reach
  · rw [between, magnitude_eq hy, ok_bind]
    exact Stops.bind_first (magnitude_stops (fun hx => h ⟨hx, hy⟩)) _
  · exact Stops.bind_first (magnitude_stops hy) _

theorem along_ordered (h₀ : int64.Holds x0) (h₁ : int64.Holds y0) (h₂ : int64.Holds x1)
    (h₃ : int64.Holds y1) (hx : (x1 - x0).natAbs ≤ reach) (hy : (y1 - y0).natAbs ≤ reach) :
    (along x0 y0 x1 y1).Ordered := by
  simp only [Holds, int64] at h₀ h₁ h₂ h₃
  unfold along
  split_ifs <;> constructor <;> unfold reach at * <;> dsimp only <;> omega

theorem ordered_toInt {x0 y0 x1 y1 : Int64} (hx : (x1.toInt - x0.toInt).natAbs ≤ reach)
    (hy : (y1.toInt - y0.toInt).natAbs ≤ reach) :
    (along x0.toInt y0.toInt x1.toInt y1.toInt).Ordered := by
  have hholds : ∀ v : Int64, int64.Holds v.toInt := by
    intro v
    have h₁ := v.toInt_lt
    have h₂ := v.le_toInt
    simp only [Holds, int64]
    omega
  exact along_ordered (hholds x0) (hholds y0) (hholds x1) (hholds y1) hx hy

section Step
variable {s : Slant} {f : Frame} {b : Bytes} {n size minorSize : Nat} {i : Int}

/-- The minor position of the line at the center of pixel `i` of the major axis, to the nearest unit. -/
def position (s : Slant) (i : Int) : Int :=
  s.minor0 + nearest ((256 * i - s.major0) * (s.minor1 - s.minor0)) (s.major1 - s.major0)

/-- Products of two distances and their quotient by a third fit 128 bits. -/
theorem Ordered.minorAt_eq (hs : s.Ordered) (hlen : s.major0 < s.major1) (hi : i.natAbs ≤ 2 ^ 40)
    (hstart : (256 * i - s.major0).natAbs ≤ reach) :
    s.minorAt (s.major1 - s.major0) (s.minor1 - s.minor0) i = .ok (wrap64 (s.position i)) := by
  have hprod : ((256 * i - s.major0) * (s.minor1 - s.minor0)).natAbs ≤ reach * reach := by
    have hlength := hs.length
    have hrise := hs.rise
    rw [Int.natAbs_mul]
    exact Nat.mul_le_mul (by omega) (by omega)
  have hlength := hs.length
  have hminor := hs.minor
  rw [minorAt, position, ofInt_eq hi, Int.mul_comm i, check_int64 hstart, ok_bind]
  generalize (256 * i - s.major0) * (s.minor1 - s.minor0) = n at hprod
  generalize hd : s.major1 - s.major0 = d at hlength
  unfold reach at *
  have hquot : (nearest n d).natAbs ≤ 2 * n.natAbs + d.natAbs := by
    rw [nearest_of_pos (by omega)]
    exact (Int.natAbs_ediv_le_natAbs ..).trans (by omega)
  rw [check_int128 (by omega), ok_bind, roundQuotient_eq (by omega) (by omega) (by omega), ok_bind,
    check_int128 (by omega), ok_bind, pure_eq_ok]

/-- The line reaches pixel `i` of the major axis, or ends on the side of it. -/
structure Meets (s : Slant) (i : Int) : Prop where
  nonneg : 0 ≤ i
  le : i ≤ 2 ^ 32
  after : s.major0 < 256 * i + 256
  before : 256 * i - 256 < s.major1

theorem Meets.overlap_eq (hs : s.Ordered) (hi : s.Meets i) : overlap s.major0 s.major1 i =
    .ok (max (min s.major1 (256 * i + 128) - max s.major0 (256 * i - 128)) 0) := by
  have hle := hs.le
  have hafter := hi.after
  have hbefore := hi.before
  exact Fixed.overlap_eq hi.nonneg hi.le (by unfold reach; omega)

theorem mixStep_stops (hs : s.Ordered) (hi : s.Meets i) (hcover : 256 * i - 128 < s.major1)
    (hstart : ¬ 256 * i - s.major0 ≤ reach) (length rise : Int) (v : Pixel) :
    Stops (s.mixStep f length rise minorSize v i b) := by
  have hle := hi.le
  have hnonneg := hi.nonneg
  have hne : ¬ max (min s.major1 (256 * i + 128) - max s.major0 (256 * i - 128)) 0 = 0 := by
    unfold reach at hstart
    omega
  rw [mixStep, hi.overlap_eq hs, ok_bind, if_neg hne]
  have hminor : Stops (s.minorAt length rise i) := by
    unfold minorAt
    apply Stops.bind_first
    apply Stops.check
    rw [ofInt_eq (by omega)]
    unfold reach at hstart
    simp only [Holds, int64]
    omega
  exact Stops.bind_first hminor _

end Step

end Slant

namespace Addressable
variable {f : Frame} {b : Bytes} {n : Nat} (hf : f.Addressable n)
include hf

theorem mixRaw_keeps (hb : b.size = n) (x y : Int) (v : Pixel) (weight : UInt8) :
    Yields (f.mixRaw x y v weight b) (f.Keeps b) := by
  subst hb
  by_cases h : weight = 0 ∨ ¬ f.Contains x y
  · rw [mixRaw, if_pos h]
    exact Yields.ok (Keeps.refl f b)
  · have hxy : f.Contains x y := Decidable.of_not_not (fun hc => h (Or.inr hc))
    rw [mixRaw, if_neg h, hf.read_eq hxy, ok_bind]
    exact (hf.write_paints hxy _).mono (fun c hc => hc.keeps)

theorem mixAlong_keeps (hb : b.size = n) (steep : Bool) (major minor : Int) (v : Pixel)
    (weight : UInt8) : Yields (f.mixAlong steep major minor v weight b) (f.Keeps b) := by
  cases steep with
  | true => exact hf.mixRaw_keeps hb ..
  | false => exact hf.mixRaw_keeps hb ..

variable {s : Slant} {i : Int} {minorSize : Nat}

theorem mixStep_keeps (hb : b.size = n) (hs : s.Ordered) (hlen : s.major0 < s.major1)
    (hi : s.Meets i) (hstart : 256 * i - 128 < s.major1 → 256 * i - s.major0 ≤ reach)
    (hminor : minorSize ≤ 2 ^ 32) (v : Pixel) :
    Yields (s.mixStep f (s.major1 - s.major0) (s.minor1 - s.minor0) minorSize v i b)
      (f.Keeps b) := by
  have hle := hi.le
  have hnonneg := hi.nonneg
  have hafter := hi.after
  rw [Slant.mixStep, hi.overlap_eq hs, ok_bind]
  generalize hcover : max (min s.major1 (256 * i + 128) - max s.major0 (256 * i - 128)) 0 = cover
  by_cases h0 : cover = 0
  · rw [if_pos h0]
    exact Yields.ok (Keeps.refl f b)
  rw [if_neg h0]
  have hdist := hstart (by omega)
  rw [hs.minorAt_eq hlen (i := i) (by omega) (by unfold reach at *; omega), ok_bind]
  generalize wrap64 (s.position i) = m
  by_cases hout : floor m < -1 ∨ minorSize ≤ floor m
  · rw [if_pos hout]
    exact Yields.ok (Keeps.refl f b)
  rw [if_neg hout]
  -- less than one unit remains beside the lower pixel
  have hrest : int64.check (m - ofInt (floor m)) = .ok (m - ofInt (floor m)) := by
    apply check_int64
    rw [ofInt_eq (by omega)]
    unfold reach floor
    omega
  rw [hrest, ok_bind]
  apply (hf.mixAlong_keeps hb ..).bind
  intro c hc
  apply (hf.mixAlong_keeps (hc.size_eq.trans hb) ..).mono
  intro d hd
  exact hc.trans hd

end Addressable

/-- The distances between the ends of the line and from its start to the pixels that it reaches, in
a frame of width `w` and height `h`, fit 64 bits. -/
def SoftFits (w h : Nat) (x0 y0 x1 y1 : Int) : Prop :=
  ((x1 - x0).natAbs ≤ reach ∧ (y1 - y0).natAbs ≤ reach) ∧
    (Slant.along x0 y0 x1 y1).Fits ((Slant.along x0 y0 x1 y1).majorSize w h)

instance (w h : Nat) (x0 y0 x1 y1 : Int) : Decidable (SoftFits w h x0 y0 x1 y1) :=
  inferInstanceAs (Decidable (_ ∧ _))

section Trace
variable {f : Frame} {b : Bytes} {n : Nat} {s : Slant} (v : Pixel)

/-- Draws the line pixel by pixel along its major axis. -/
def Slant.trace (s : Slant) (f : Frame) (v : Pixel) (b : Bytes) : Except Fault Bytes :=
  if s.major0 = s.major1 then .ok b
  else do
    let first ← pixelOf s.major0
    let last ← pixelOf s.major1
    let size := s.majorSize f.width.toNat f.height.toNat
    forRange (max first 0) (min last (size - 1) + 1) b
      (s.mixStep f (s.major1 - s.major0) (s.minor1 - s.minor0)
        (s.majorSize f.height.toNat f.width.toNat) v)

theorem Slant.majorSize_lt (s : Slant) (w h : UInt32) : s.majorSize w.toNat h.toNat < 2 ^ 32 := by
  have hw := w.toNat_lt
  have hh := h.toNat_lt
  unfold Slant.majorSize
  split_ifs <;> omega

/-- The loop goes over pixels that the line reaches. -/
theorem Slant.meets {size : Nat} (hsize : size < 2 ^ 32) {i : Int}
    (h₀ : max ((s.major0 + 128) / 256) 0 ≤ i)
    (h₁ : i < min ((s.major1 + 128) / 256) (size - 1) + 1) : s.Meets i :=
  ⟨by omega, by omega, by omega, by omega⟩

theorem Addressable.trace_keeps (hf : f.Addressable n) (hb : b.size = n) (hs : s.Ordered)
    (h : s.Fits (s.majorSize f.width.toNat f.height.toNat)) :
    Yields (s.trace f v b) (f.Keeps b) := by
  unfold Slant.trace
  by_cases h0 : s.major0 = s.major1
  · rw [if_pos h0]
    exact Yields.ok (Keeps.refl f b)
  rw [if_neg h0]
  obtain ⟨hend, hlast⟩ := h.resolve_left h0
  have hle := hs.le
  have hlow := hs.low
  have hsize := s.majorSize_lt f.width f.height
  have hminor := s.majorSize_lt f.height f.width
  rw [pixelOf_eq hlow (by omega), ok_bind, pixelOf_eq (by omega) hend, ok_bind]
  generalize s.majorSize f.width.toNat f.height.toNat = size at *
  refine Keeps.forRange (fun i c h₀ h₁ hc => ?_)
  have hstart : 256 * i - 128 < s.major1 → 256 * i - s.major0 ≤ reach := by
    intro hi
    unfold Slant.lastPixel at hlast
    omega
  exact hf.mixStep_keeps (hc.trans hb) hs (by omega) (Slant.meets hsize h₀ h₁) hstart hminor.le v

theorem Slant.trace_stops (hs : s.Ordered)
    (h : ¬ s.Fits (s.majorSize f.width.toNat f.height.toNat)) : Stops (s.trace f v b) := by
  have h0 : ¬ s.major0 = s.major1 := fun h0 => h (Or.inl h0)
  have hle := hs.le
  have hlow := hs.low
  have hlen := hs.length
  have hsize := s.majorSize_lt f.width f.height
  rw [trace, if_neg h0]
  generalize s.majorSize f.width.toNat f.height.toNat = size at *
  by_cases hend : s.major1 + 128 ≤ reach
  · -- the last pixel is too far from the start
    have hlast : ¬ 256 * s.lastPixel size - s.major0 ≤ reach :=
      fun hlast => h (Or.inr ⟨hend, hlast⟩)
    have h₀ : max ((s.major0 + 128) / 256) 0 ≤ s.lastPixel size := by
      unfold lastPixel reach at *
      omega
    have h₁ : s.lastPixel size < min ((s.major1 + 128) / 256) (size - 1) + 1 := by
      unfold lastPixel
      omega
    have hcover : 256 * s.lastPixel size - 128 < s.major1 := by
      unfold lastPixel
      omega
    rw [pixelOf_eq hlow (by omega), ok_bind, pixelOf_eq (by omega) hend, ok_bind]
    exact Stops.forRange (P := fun c => c.size = b.size) (fun i c hc => sized_mixStep hc ..) rfl
      h₀ h₁ (fun c _ => mixStep_stops hs (meets hsize h₀ h₁) hcover hlast ..)
  · have hpixel : Stops (pixelOf s.major1) := by
      unfold pixelOf
      apply Stops.bind_first
      apply Stops.check
      unfold reach at hend
      simp only [Holds, int64, half]
      omega
    exact Stops.bind (P := fun _ => True) ⟨fun _ _ => trivial⟩
      (fun _ _ => Stops.bind_first hpixel _)

end Trace

section Slant
variable {f : Frame} {b : Bytes} {n : Nat} (v : Pixel)

theorem slant_eq {x0 y0 x1 y1 : Int} (hs : (Slant.along x0 y0 x1 y1).Ordered)
    (hx : (x1 - x0).natAbs ≤ reach) (hy : (y1 - y0).natAbs ≤ reach) :
    f.slant x0 y0 x1 y1 v b = (Slant.along x0 y0 x1 y1).trace f v b := by
  have hlength := hs.length
  have hrise := hs.rise
  have hle := hs.le
  rw [slant, Slant.between_eq hx hy]
  generalize Slant.along x0 y0 x1 y1 = s at *
  rw [ok_bind, check_int64 (by omega), ok_bind, check_int64 (by omega), ok_bind, Slant.trace]
  by_cases h0 : s.major0 = s.major1
  · rw [if_pos h0, if_pos (by omega)]
    rfl
  · rw [if_neg h0, if_neg (by omega)]
    cases hsteep : s.steep <;>
      simp only [Slant.majorSize, hsteep, Bool.false_eq_true, if_true, if_false]

variable (x0 y0 x1 y1 : Int64)

theorem Addressable.slant_keeps (hf : f.Addressable n) (hb : b.size = n)
    (h : SoftFits f.width.toNat f.height.toNat x0.toInt y0.toInt x1.toInt y1.toInt) :
    Yields (f.slant x0.toInt y0.toInt x1.toInt y1.toInt v b) (f.Keeps b) := by
  obtain ⟨⟨hx, hy⟩, hfits⟩ := h
  have hs := Slant.ordered_toInt hx hy
  rw [slant_eq v hs hx hy]
  exact hf.trace_keeps v hb hs hfits

theorem slant_stops
    (h : ¬ SoftFits f.width.toNat f.height.toNat x0.toInt y0.toInt x1.toInt y1.toInt) :
    Stops (f.slant x0.toInt y0.toInt x1.toInt y1.toInt v b) := by
  by_cases hxy : (x1.toInt - x0.toInt).natAbs ≤ reach ∧ (y1.toInt - y0.toInt).natAbs ≤ reach
  · obtain ⟨hx, hy⟩ := hxy
    have hs := Slant.ordered_toInt hx hy
    rw [slant_eq v hs hx hy]
    exact Slant.trace_stops v hs (fun hfits => h ⟨⟨hx, hy⟩, hfits⟩)
  · exact Stops.bind_first (Slant.between_stops hxy) _

/-- The distance between the outermost positions does not fit, on a canvas of any size. -/
example : ¬ SoftFits 0 0 Int64.minValue.toInt 0 Int64.maxValue.toInt 0 := by decide

/-! Lines between user positions of a frame in plain orientation. -/

theorem softLine_eq (ho : f.orientation = .identity) :
    f.softLine x0 y0 x1 y1 v b = f.slant x0.toInt y0.toInt x1.toInt y1.toInt v b := by
  have hraw : ∀ x y, f.rawFixedPoint x y = .ok (x, y) := by
    intro x y
    rw [rawFixedPoint, ho]
    rfl
  simp only [softLine, hraw, ok_bind]

end Slant

end Frame

end Raster
