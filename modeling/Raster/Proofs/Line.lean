import Raster.Proofs.Clipping
import Raster.Proofs.Runs
import Raster.Proofs.UserSpace

/- Lines. A slanted line is walked from both ends toward the middle: after `i` steps
   along the major axis the walk has drifted `Slope.drift t i` pixels along the minor one,
   and its error stays between zero and the length (`error_bounds`). The points that a
   line inside the frame covers do not depend on the order of its ends
   (`paintSegment_swap`), so that only clipping can tell a line from its reverse:
   `line_reverse` says exactly when it does. -/
namespace Raster

namespace Frame.Slope

/-- Minor steps made after `i` major ones. -/
def drift (t : Slope) (i : Int) : Int := (i * t.rise + t.length - 1 - t.length / 2) / t.length

/-- What is left after `i` major steps until the next minor one. -/
def error (t : Slope) (i : Int) : Int := t.length / 2 - i * t.rise + t.drift i * t.length

/-- The raw point at a major and a minor coordinate. -/
def point (t : Slope) (major minor : Int) : Int × Int :=
  if t.steep then (minor, major) else (major, minor)

/-- The points that step `i` sets. -/
def OnStep (t : Slope) (i x y : Int) : Prop :=
  (x, y) = t.point (t.major0 + i) (t.minor0 + t.direction * t.drift i) ∨
    (x, y) = t.point (t.major1 - i) (t.minor1 - t.direction * t.drift i)

/-- The box between the ends lies in the frame and is no higher than long. -/
structure Runs (t : Slope) (f : Frame) : Prop where
  length_pos : 0 < t.length
  length_le : t.length ≤ 0x7fffffff
  rise_le : t.rise ≤ t.length
  minor1_eq : t.minor1 = t.minor0 + t.direction * t.rise
  contains : ∀ a c, 0 ≤ a → a ≤ t.length → 0 ≤ c → c ≤ t.rise →
    f.Contains (t.point (t.major0 + a) (t.minor0 + t.direction * c)).1
      (t.point (t.major0 + a) (t.minor0 + t.direction * c)).2

variable {t : Slope}

theorem rise_nonneg (t : Slope) : 0 ≤ t.rise := Int.natCast_nonneg _

theorem error_bounds (hl : 0 < t.length) (i : Int) : 0 ≤ t.error i ∧ t.error i < t.length := by
  have hdiv := Int.mul_ediv_add_emod (i * t.rise + t.length - 1 - t.length / 2) t.length
  have hnonneg := Int.emod_nonneg (i * t.rise + t.length - 1 - t.length / 2)
    (show t.length ≠ 0 by omega)
  have hlt := Int.emod_lt_of_pos (i * t.rise + t.length - 1 - t.length / 2) hl
  rw [Int.mul_comm] at hdiv
  simp only [error, drift]
  omega

/-- The drift is the only number of minor steps that leaves an error of this size. -/
theorem eq_drift (hl : 0 < t.length) {i k : Int} (h₀ : 0 ≤ t.length / 2 - i * t.rise + k * t.length)
    (h₁ : t.length / 2 - i * t.rise + k * t.length < t.length) : k = t.drift i := by
  obtain ⟨h₂, h₃⟩ := error_bounds hl i
  simp only [error] at h₂ h₃
  rcases Int.lt_trichotomy k (t.drift i) with h | h | h
  · have hm : (k + 1) * t.length ≤ t.drift i * t.length :=
      Int.mul_le_mul_of_nonneg_right h (Int.le_of_lt hl)
    rw [Int.add_mul] at hm
    omega
  · exact h
  · have hm : (t.drift i + 1) * t.length ≤ k * t.length :=
      Int.mul_le_mul_of_nonneg_right h (Int.le_of_lt hl)
    rw [Int.add_mul] at hm
    omega

theorem drift_zero (hl : 0 < t.length) : t.drift 0 = 0 := by
  refine (eq_drift hl ?_ ?_).symm
  · omega
  · omega

/-- One more major step makes a minor one if the error is used up. -/
theorem drift_succ (hl : 0 < t.length) (hr : t.rise ≤ t.length) (i : Int) :
    t.drift (i + 1) = if t.error i - t.rise < 0 then t.drift i + 1 else t.drift i := by
  obtain ⟨h₂, h₃⟩ := error_bounds hl i
  have h₄ := rise_nonneg t
  have herror : t.error i = t.length / 2 - i * t.rise + t.drift i * t.length := rfl
  symm
  by_cases h : t.error i - t.rise < 0
  · rw [if_pos h]
    refine eq_drift hl ?_ ?_
    · rw [Int.add_mul, Int.add_mul]
      omega
    · rw [Int.add_mul, Int.add_mul]
      omega
  · rw [if_neg h]
    refine eq_drift hl ?_ ?_
    · rw [Int.add_mul]
      omega
    · rw [Int.add_mul]
      omega

theorem error_succ (hl : 0 < t.length) (hr : t.rise ≤ t.length) (i : Int) :
    t.error (i + 1) =
      if t.error i - t.rise < 0 then t.error i - t.rise + t.length else t.error i - t.rise := by
  have hsucc := drift_succ hl hr i
  by_cases h : t.error i - t.rise < 0
  · rw [if_pos h] at hsucc ⊢
    rw [error, hsucc, error, Int.add_mul, Int.add_mul]
    omega
  · rw [if_neg h] at hsucc ⊢
    rw [error, hsucc, error, Int.add_mul]
    omega

/-- Between the ends the drift is between nothing and the rise. -/
theorem drift_bounds (hl : 0 < t.length) {i : Int} (h₀ : 0 ≤ i) (h₁ : i ≤ t.length) :
    0 ≤ t.drift i ∧ t.drift i ≤ t.rise := by
  obtain ⟨h₂, h₃⟩ := error_bounds hl i
  have hlow : 0 ≤ i * t.rise := Int.mul_nonneg h₀ (rise_nonneg t)
  have hhigh : i * t.rise ≤ t.length * t.rise := Int.mul_le_mul_of_nonneg_right h₁ (rise_nonneg t)
  simp only [error] at h₂ h₃
  constructor
  · by_contra h
    have hm : t.drift i * t.length ≤ -1 * t.length :=
      Int.mul_le_mul_of_nonneg_right (by omega) (Int.le_of_lt hl)
    omega
  · by_contra h
    have hm : (t.rise + 1) * t.length ≤ t.drift i * t.length :=
      Int.mul_le_mul_of_nonneg_right (by omega) (Int.le_of_lt hl)
    rw [Int.add_mul, Int.mul_comm t.rise] at hm
    omega

end Frame.Slope

namespace Frame
variable {f : Frame} {b : Bytes} {t : Slope}

theorem Addressable.plot_paints (hf : f.Addressable b.size) {major minor : Int}
    (hin : f.Contains (t.point major minor).1 (t.point major minor).2) (v : Pixel) :
    Yields (f.plot t.steep major minor v b)
      (f.Paints (fun x y => (x, y) = t.point major minor) (fun _ _ => f.stored v) b) := by
  have hpaint := hf.write_paints hin v
  have hplot : f.plot t.steep major minor v b =
      f.writeRaw (.ofInt (t.point major minor).1) (.ofInt (t.point major minor).2) v b := by
    unfold plot Slope.point
    cases t.steep <;> rfl
  rw [hplot]
  apply hpaint.mono
  intro c hc
  apply hc.area
  intro x y _
  rw [← Prod.mk.eta (p := t.point major minor), Prod.mk.injEq]

/-- A step sets its two points. -/
theorem Slope.Runs.contains_step (ht : t.Runs f) {i : Int} (h₀ : 0 ≤ i) (h₁ : i ≤ t.length) :
    f.Contains (t.point (t.major0 + i) (t.minor0 + t.direction * t.drift i)).1
        (t.point (t.major0 + i) (t.minor0 + t.direction * t.drift i)).2 ∧
      f.Contains (t.point (t.major1 - i) (t.minor1 - t.direction * t.drift i)).1
        (t.point (t.major1 - i) (t.minor1 - t.direction * t.drift i)).2 := by
  obtain ⟨h₂, h₃⟩ := Slope.drift_bounds ht.length_pos h₀ h₁
  refine ⟨ht.contains i (t.drift i) h₀ h₁ h₂ h₃, ?_⟩
  have hback := ht.contains (t.length - i) (t.rise - t.drift i) (by omega) (by omega) (by omega)
    (by omega)
  have hmajor : t.major0 + (t.length - i) = t.major1 - i := by
    simp only [Slope.length]
    omega
  have hminor : t.minor0 + t.direction * (t.rise - t.drift i) =
      t.minor1 - t.direction * t.drift i := by
    rw [ht.minor1_eq, Int.mul_sub]
    omega
  rwa [hmajor, hminor] at hback

/-- A step sets its two points and goes on with the drift and the error of the next one. -/
theorem Slope.Runs.walkInward_succ (ht : t.Runs f) (v : Pixel) (count : Nat) (i : Int) (b : Bytes) :
    f.walkInward t v (count + 1) i (t.direction * t.drift i) (t.error i) b = (do
      let c ← f.plot t.steep (t.major0 + i) (t.minor0 + t.direction * t.drift i) v b
      let d ← f.plot t.steep (t.major1 - i) (t.minor1 - t.direction * t.drift i) v c
      f.walkInward t v count (i + 1) (t.direction * t.drift (i + 1)) (t.error (i + 1)) d) := by
  have hl := ht.length_pos
  have hle := ht.length_le
  have hr := ht.rise_le
  have hr₀ := t.rise_nonneg
  obtain ⟨he₀, he₁⟩ := Slope.error_bounds hl i
  have hcheck : ∀ e : Int, e.natAbs ≤ 2 ^ 32 → Bounds.int64.check e = .ok e := fun e he =>
    Bounds.check_of_holds (by simp only [Bounds.Holds, Bounds.int64]; omega)
  rw [walkInward]
  congr 1
  funext c
  congr 1
  funext d
  rw [hcheck _ (by omega), ok_bind, Slope.drift_succ hl hr, Slope.error_succ hl hr]
  by_cases h : t.error i - t.rise < 0
  · rw [if_pos h, if_pos h, if_pos h, hcheck _ (by omega), ok_bind, Int.mul_add, Int.mul_one]
  · rw [if_neg h, if_neg h, if_neg h]

/-- The walk from step `i` on sets the points of the next `count` steps. -/
theorem Slope.Runs.walkInward_paints (ht : t.Runs f) (v : Pixel) (count : Nat) (i : Int) (b : Bytes)
    (hf : f.Addressable b.size) (h₀ : 0 ≤ i) (h₁ : i + count ≤ t.length / 2 + 1) :
    Yields (f.walkInward t v count i (t.direction * t.drift i) (t.error i) b)
      (f.Paints (fun x y => ∃ j, i ≤ j ∧ j < i + count ∧ t.OnStep j x y) (fun _ _ => f.stored v) b) := by
  induction count generalizing i b with
  | zero =>
    apply Yields.ok (Paints.none _)
    intro x y _ h
    obtain ⟨j, h₂, h₃, _⟩ := h
    omega
  | succ count ih =>
    -- the two points of step `i` are set, the rest of the walk sets those of the later steps
    have hl := ht.length_pos
    obtain ⟨hin, hin'⟩ := ht.contains_step h₀ (by omega)
    rw [ht.walkInward_succ]
    apply (hf.plot_paints hin v).bind
    intro c hc
    have hf' : f.Addressable c.size := hc.keeps.size_eq ▸ hf
    apply (hf'.plot_paints hin' v).bind
    intro d hd
    have hcd := hc.trans hd
    have hf'' : f.Addressable d.size := hcd.keeps.size_eq ▸ hf
    have hnext := ih (i + 1) d hf'' (by omega) (by omega)
    apply hnext.mono
    intro e he
    apply (hcd.trans he).area
    intro x y _
    constructor
    · intro h
      rcases h with h | h
      · exact ⟨i, Int.le_refl i, by omega, h⟩
      · obtain ⟨j, h₂, h₃, hj⟩ := h
        exact ⟨j, by omega, by omega, hj⟩
    · intro h
      obtain ⟨j, h₂, h₃, hj⟩ := h
      by_cases hji : j = i
      · rw [hji] at hj
        exact Or.inl hj
      · exact Or.inr ⟨j, by omega, by omega, hj⟩

/-- A slanted line inside the frame is walked inside the frame. -/
theorem runs_ofSegment {s : Segment} (hs : s.Within f.width.toNat f.height.toNat)
    (hw : f.width.toNat ≤ 0x7fffffff) (hh : f.height.toNat ≤ 0x7fffffff)
    (hy : s.y0 ≠ s.y1) : (Slope.ofSegment s).Runs f := by
  obtain ⟨h₁, h₂⟩ := hs
  rw [Segment.inside_iff] at h₁ h₂
  simp only at h₁ h₂
  unfold Slope.ofSegment
  -- four directions of the walk, from either end along either axis
  split_ifs with hsteep hup hright
  all_goals
    constructor
    · simp only [Slope.length]
      omega
    · simp only [Slope.length]
      omega
    · simp only [Slope.length, Slope.rise]
      omega
    · simp only [Slope.direction, Slope.rise]
      split_ifs <;> omega
    · intro a c ha₀ ha₁ hc₀ hc₁
      simp only [Slope.length, Slope.rise, Slope.direction, Slope.point, Contains, if_true,
        if_false, Bool.false_eq_true] at *
      split_ifs <;> omega

end Frame

/-- The points that a line inside the frame covers. -/
def Segment.Covers (s : Segment) (x y : Int) : Prop :=
  if s.x0 = s.x1 then x = s.x0 ∧ min s.y0 s.y1 ≤ y ∧ y ≤ max s.y0 s.y1
  else if s.y0 = s.y1 then y = s.y0 ∧ min s.x0 s.x1 ≤ x ∧ x ≤ max s.x0 s.x1
  else ∃ i, 0 ≤ i ∧ i ≤ (Frame.Slope.ofSegment s).length / 2 ∧
    (Frame.Slope.ofSegment s).OnStep i x y

theorem Segment.covers_point (x y x' y' : Int) :
    (⟨x, y, x, y⟩ : Segment).Covers x' y' ↔ x' = x ∧ y' = y := by
  simp only [Covers, if_true]
  omega

namespace Frame
open Segment (Grazes Near Within swap)
variable {f : Frame} {b : Bytes} {s : Segment}

theorem Addressable.size_le {size : Nat} (hf : f.Addressable size) :
    (f.width.toNat : Int) ≤ 0x7fffffff ∧ (f.height.toNat : Int) ≤ 0x7fffffff :=
  ⟨by exact_mod_cast hf.width_le, by exact_mod_cast hf.height_le⟩

theorem Addressable.paintSegment_paints (hf : f.Addressable b.size)
    (hs : s.Within f.width.toNat f.height.toNat) (v : Pixel) :
    Yields (f.paintSegment s v b) (f.Paints s.Covers (fun _ _ => f.stored v) b) := by
  unfold paintSegment
  by_cases hpoint : s.x0 = s.x1 ∧ s.y0 = s.y1
  · rw [if_pos hpoint]
    have hin := Segment.inside_iff.1 hs.1
    simp only at hin
    have hxy : f.Contains s.x0 s.y0 := ⟨by omega, by omega, by omega, by omega⟩
    apply (hf.write_paints hxy v).mono
    intro c hc
    apply hc.area
    intro x y _
    rw [Segment.Covers, if_pos hpoint.1]
    omega
  rw [if_neg hpoint]
  by_cases hx : s.x0 = s.x1
  · rw [if_pos hx]
    apply (hf.spanColumn_paints s.x0 s.y0 s.y1 v).mono
    intro c hc
    apply hc.area
    intro x y _
    rw [Segment.Covers, if_pos hx]
  rw [if_neg hx]
  by_cases hy : s.y0 = s.y1
  · rw [if_pos hy]
    apply (hf.spanRow_paints s.x0 s.x1 s.y0 v).mono
    intro c hc
    apply hc.area
    intro x y _
    rw [Segment.Covers, if_neg hx, if_pos hy]
  rw [if_neg hy]
  have ht := runs_ofSegment hs hf.width_le hf.height_le hy
  have hl := ht.length_pos
  have hwalk := ht.walkInward_paints v ((Slope.ofSegment s).length / 2 + 1).toNat 0 b hf
    (Int.le_refl 0) (by omega)
  have herror : (Slope.ofSegment s).error 0 = (Slope.ofSegment s).length / 2 := by
    rw [Slope.error, Slope.drift_zero hl]
    omega
  rw [Slope.drift_zero hl, Int.mul_zero, herror] at hwalk
  apply hwalk.mono
  intro c hc
  apply hc.area
  intro x y _
  rw [Segment.Covers, if_neg hx, if_neg hy]
  constructor
  · intro h
    obtain ⟨i, h₀, h₁, hi⟩ := h
    exact ⟨i, h₀, by omega, hi⟩
  · intro h
    obtain ⟨i, h₀, h₁, hi⟩ := h
    exact ⟨i, h₀, by omega, hi⟩

/-! Lines and their reverses. -/

theorem ofSegment_swap (hx : s.x0 ≠ s.x1) (hy : s.y0 ≠ s.y1) :
    Slope.ofSegment s.swap = Slope.ofSegment s := by
  have hdx : (s.x0 - s.x1).natAbs = (s.x1 - s.x0).natAbs := by omega
  have hdy : (s.y0 - s.y1).natAbs = (s.y1 - s.y0).natAbs := by omega
  unfold Slope.ofSegment swap
  simp only [hdx, hdy]
  by_cases hsteep : (s.x1 - s.x0).natAbs ≤ (s.y1 - s.y0).natAbs
  · rw [if_pos hsteep, if_pos hsteep]
    rcases Int.lt_or_gt_of_ne hy with h | h
    · rw [if_neg (by omega), if_pos (by omega)]
    · rw [if_pos (by omega), if_neg (by omega)]
  · rw [if_neg hsteep, if_neg hsteep]
    rcases Int.lt_or_gt_of_ne hx with h | h
    · rw [if_neg (by omega), if_pos (by omega)]
    · rw [if_pos (by omega), if_neg (by omega)]

theorem spanRow_comm (f : Frame) (x0 x1 y : Int) (v : Pixel) (b : Bytes) :
    f.spanRow x0 x1 y v b = f.spanRow x1 x0 y v b := by
  unfold spanRow
  rw [Int.min_comm x0, Int.max_comm x0]

theorem spanColumn_comm (f : Frame) (x y0 y1 : Int) (v : Pixel) (b : Bytes) :
    f.spanColumn x y0 y1 v b = f.spanColumn x y1 y0 v b := by
  unfold spanColumn
  rw [Int.min_comm y0, Int.max_comm y0]

/-- A line inside the frame is painted as its reverse is. -/
theorem paintSegment_swap (f : Frame) (s : Segment) (v : Pixel) (b : Bytes) :
    f.paintSegment s.swap v b = f.paintSegment s v b := by
  unfold paintSegment
  by_cases hx : s.x0 = s.x1
  · by_cases hy : s.y0 = s.y1
    · simp only [swap, hx, hy, and_self, if_true]
    · simp only [swap, hx, hy, Ne.symm hy, and_false, if_false, if_true]
      exact spanColumn_comm ..
  · by_cases hy : s.y0 = s.y1
    · simp only [swap, hx, Ne.symm hx, hy, and_true, if_false, if_true]
      exact spanRow_comm ..
    · have hslope := ofSegment_swap hx hy
      simp only [swap] at hslope
      simp only [swap, hx, Ne.symm hx, hy, Ne.symm hy, and_self, if_false, hslope]

/-- The pixel in a grazed corner changes the buffer just if it had another value. -/
theorem Addressable.paint_corner (hf : f.Addressable b.size) (hs : s.Near) (v : Pixel) {x y : Int}
    (hg : s.Grazes f.width.toNat f.height.toNat x y)
    (hin : Within ⟨x, y, x, y⟩ f.width.toNat f.height.toNat) :
    Yields (f.paintSegment ⟨x, y, x, y⟩ v b) (fun c => c = b ↔
      ∀ x y, s.Grazes f.width.toNat f.height.toNat x y → f.pixel b x y = f.stored v) := by
  obtain ⟨hw, hh⟩ := hf.size_le
  apply (hf.paintSegment_paints hin v).mono
  intro c hpaint
  rw [hpaint.eq_iff hf.toValid]
  constructor
  · intro h x' y' hg'
    obtain ⟨rfl, rfl⟩ := hs.grazes_unique hw hh hg hg'
    obtain ⟨h₁, h₂, h₃, h₄⟩ := Segment.inside_iff.1 hin.1
    exact h x y ⟨h₁, h₃, h₂, h₄⟩ ((Segment.covers_point x y x y).2 ⟨rfl, rfl⟩)
  · intro h x' y' _ hcovers
    obtain ⟨rfl, rfl⟩ := (Segment.covers_point x y x' y').1 hcovers
    exact h _ _ hg

/-- Drawing a line and drawing its reverse always answer. The buffers differ just where the line grazes
a corner in a pixel that has another value. -/
theorem Addressable.segment_reverse (hf : f.Addressable b.size) (hs : s.Near) (v : Pixel) :
    ∃ c d, f.segment s v b = .ok c ∧ f.segment s.swap v b = .ok d ∧
      (c = d ↔ ∀ x y, s.Grazes f.width.toNat f.height.toNat x y → f.pixel b x y = f.stored v) := by
  obtain ⟨hw, hh⟩ := hf.size_le
  by_cases hg : ∃ x y, s.Grazes f.width.toNat f.height.toNat x y
  · -- one of both draws the pixel in the corner, the other nothing
    obtain ⟨x, y, hg⟩ := hg
    obtain ⟨hin, hclip⟩ := hs.clip_of_grazes hw hh hg
    obtain ⟨c, hc, hpixel⟩ := hf.paint_corner hs v hg hin
    rcases hclip with ⟨h₁, h₂⟩ | ⟨h₁, h₂⟩
    · refine ⟨b, c, ?_, ?_, eq_comm.trans hpixel⟩
      · rw [segment, h₁]
        rfl
      · rw [segment, h₂]
        exact hc
    · refine ⟨c, b, ?_, ?_, hpixel⟩
      · rw [segment, h₁]
        exact hc
      · rw [segment, h₂]
        rfl
  · have hg : ∀ x y, ¬ s.Grazes f.width.toNat f.height.toNat x y := fun x y h => hg ⟨x, y, h⟩
    obtain ⟨o, h₁, h₂, hin⟩ := hs.clip_swap (Int.natCast_nonneg _) (Int.natCast_nonneg _) hw hh hg
    have hsame : ∃ c, f.segment s v b = .ok c ∧ f.segment s.swap v b = .ok c := by
      rw [segment, segment, h₁, h₂]
      cases o with
      | none => exact ⟨b, rfl, rfl⟩
      | some t =>
        obtain ⟨c, hc, -⟩ := hf.paintSegment_paints (hin t rfl) v
        refine ⟨c, hc, ?_⟩
        exact (paintSegment_swap f t v b).trans hc
    obtain ⟨c, hc, hc'⟩ := hsame
    refine ⟨c, c, hc, hc', ?_⟩
    exact ⟨fun _ x y h => absurd h (hg x y), fun _ => rfl⟩

/-- The raw line between two user points. -/
def joining (f : Frame) (p q : Point) : Segment :=
  ⟨(f.toRaw p.x.toInt p.y.toInt).1, (f.toRaw p.x.toInt p.y.toInt).2,
    (f.toRaw q.x.toInt q.y.toInt).1, (f.toRaw q.x.toInt q.y.toInt).2⟩

theorem rawSegment_eq (f : Frame) (p q : Point) : f.rawSegment p q = .ok (f.joining p q) := by
  rw [rawSegment, rawPoint_point, rawPoint_point]
  rfl

/-- Raw coordinates of 32-bit points are near. -/
theorem joining_near (f : Frame) (p q : Point) : (f.joining p q).Near := by
  obtain ⟨h₀, h₁⟩ := f.natAbs_toRaw_le p
  obtain ⟨h₂, h₃⟩ := f.natAbs_toRaw_le q
  exact ⟨h₀, h₁, h₂, h₃⟩

theorem Addressable.line_reverse (hf : f.Addressable b.size) (p q : Point) (v : Pixel) :
    ∃ c d, f.line p q v b = .ok c ∧ f.line q p v b = .ok d ∧
      (c = d ↔ ∀ x y, (f.joining p q).Grazes f.width.toNat f.height.toNat x y →
        f.pixel b x y = f.stored v) := by
  have hswap : f.joining q p = (f.joining p q).swap := rfl
  rw [line, line, rawSegment_eq, rawSegment_eq, ok_bind, ok_bind, hswap]
  exact hf.segment_reverse (f.joining_near p q) v

end Frame

namespace Pixmap

/-- In either space a line and its reverse are always drawn. They leave the same buffer, unless the
line grazes a corner of the pixmap in a pixel that has another value than the line. -/
theorem line_reverse_iff {d : Pixmap} (hd : d.Addressable) (s : Space) (p q : Point) (v : Pixel) :
    ∃ e e', (d.draw s fun f b => f.line p q v b) = .ok e ∧
      (d.draw s fun f b => f.line q p v b) = .ok e' ∧
      (e.bytes = e'.bytes ↔
        ∀ x y, ((d.toFrame.seen s).joining p q).Grazes d.width.toNat d.height.toNat x y →
          d.pixel d.bytes x y = d.stored v) := by
  obtain ⟨c, c', hc, hc', hiff⟩ := (Frame.Addressable.seen hd s).line_reverse p q v
  refine ⟨{ d with bytes := c }, { d with bytes := c' }, d.draw_ok hc, d.draw_ok hc', ?_⟩
  cases s with
  | user => exact hiff
  | raw => exact hiff

/-- On 4 by 4 pixels the line from (-3, 1) to (1, -1) sets the pixel in the upper left corner, its
reverse does not. -/
theorem line_reverse_grazing : ∃ d : Pixmap, d.Addressable ∧ ∃ e e',
    (d.draw .user fun f b => f.line ⟨-3, 1⟩ ⟨1, -1⟩ 255 b) = .ok e ∧
      (d.draw .user fun f b => f.line ⟨1, -1⟩ ⟨-3, 1⟩ 255 b) = .ok e' ∧ e.bytes ≠ e'.bytes := by
  let d : Pixmap := ⟨⟨0, 4, 4, 4, 0, .g8, .identity, none⟩, Array.replicate 16 0⟩
  have hd : d.Addressable := by
    refine ⟨⟨?_, ?_, ?_, ?_, ?_, ?_, ?_⟩, ?_, ?_⟩ <;> decide
  obtain ⟨e, e', he, he', hiff⟩ := line_reverse_iff hd .user ⟨-3, 1⟩ ⟨1, -1⟩ 255
  have hgrazes : ((d.toFrame.seen .user).joining ⟨-3, 1⟩ ⟨1, -1⟩).Grazes d.width.toNat
      d.height.toNat 0 0 := by
    refine ⟨by decide, by decide, .low, .low, rfl, Or.inr ⟨?_, ?_⟩⟩
    · unfold Segment.AtCorner
      decide
    · decide
  refine ⟨d, hd, e, e', he, he', fun hsame => ?_⟩
  have hstored : d.pixel d.bytes 0 0 ≠ d.stored 255 := by decide
  exact hstored (hiff.1 hsame 0 0 hgrazes)

end Pixmap

end Raster
