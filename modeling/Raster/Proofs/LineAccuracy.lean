import Raster.Proofs.ClipPath
import Raster.Proofs.LineShape

/- Clipped lines against the exact line. The ends that clipping leaves are within half a
   pixel of the line, and each point of the walk between them is within half a pixel of
   the line through these ends; together that is one pixel at most (`Covers.turn_le`).
   Where the exact line is inside the box in some column it passes the nearest pixel of
   this column after every side at which clipping may cut it off (`exists_passes`), so
   that no such column is missing. A line that is higher than wide is taken as its
   transpose, although clipping prefers rows to columns (`Near.drawn_renders`). -/
namespace Raster

namespace Segment
variable {s t : Segment} {w h x y : Int} {p q : Int × Int}

/-! Points on both sides of the exact line. -/

theorem le_rowExact (hx : s.x0 ≠ s.x1) : (y : ℚ) ≤ s.rowExact x ↔
    (s.x0 < s.x1 → s.turn x y ≤ 0) ∧ (s.x1 < s.x0 → 0 ≤ s.turn x y) := by
  rw [← sub_nonpos, sub_rowExact hx]
  rcases Int.lt_or_gt_of_ne hx with hlt | hlt
  · have hpos : (0 : ℚ) < ((s.x1 - s.x0 : Int) : ℚ) := by exact_mod_cast Int.sub_pos_of_lt hlt
    rw [div_le_iff₀ hpos, zero_mul, Int.cast_nonpos]
    omega
  · have hneg : ((s.x1 - s.x0 : Int) : ℚ) < 0 := by exact_mod_cast Int.sub_neg_of_lt hlt
    rw [div_le_iff_of_neg hneg, zero_mul, Int.cast_nonneg_iff]
    omega

theorem rowExact_le (hx : s.x0 ≠ s.x1) : s.rowExact x ≤ (y : ℚ) ↔
    (s.x0 < s.x1 → 0 ≤ s.turn x y) ∧ (s.x1 < s.x0 → s.turn x y ≤ 0) := by
  rw [← sub_nonneg, sub_rowExact hx]
  rcases Int.lt_or_gt_of_ne hx with hlt | hlt
  · have hpos : (0 : ℚ) < ((s.x1 - s.x0 : Int) : ℚ) := by exact_mod_cast Int.sub_pos_of_lt hlt
    rw [le_div_iff₀ hpos, zero_mul, Int.cast_nonneg_iff]
    omega
  · have hneg : ((s.x1 - s.x0 : Int) : ℚ) < 0 := by exact_mod_cast Int.sub_neg_of_lt hlt
    rw [le_div_iff_of_neg hneg, zero_mul, Int.cast_nonpos]
    omega

theorem abs_sub_rowExact_le_one (hx : s.x0 ≠ s.x1) (x y : Int) :
    |(y : ℚ) - s.rowExact x| ≤ 1 ↔ (s.turn x y).natAbs ≤ (s.x1 - s.x0).natAbs := by
  rw [abs_sub_rowExact hx, div_le_one₀ (length_cast_pos hx)]
  exact_mod_cast Iff.rfl

theorem rowExact_level (hy : s.y0 = s.y1) (x : Int) : s.rowExact x = s.y0 := by
  rw [rowExact, hy, sub_self, zero_mul, zero_div, add_zero]

theorem le_rowNear (hx : s.x0 ≠ s.x1) (h : (y : ℚ) ≤ s.rowExact x) : y ≤ s.rowNear x := by
  rw [le_rowExact hx] at h
  rcases Int.lt_or_gt_of_ne hx with hlt | hlt
  · exact (rowNear_of_rising hlt).2 (h.1 hlt)
  · exact (rowNear_of_falling hlt).1 (h.2 hlt)

theorem rowNear_le (hx : s.x0 ≠ s.x1) (h : s.rowExact x ≤ (y : ℚ)) : s.rowNear x ≤ y := by
  rw [rowExact_le hx] at h
  rcases Int.lt_or_gt_of_ne hx with hlt | hlt
  · exact (rowNear_of_rising hlt).1 (h.1 hlt)
  · exact (rowNear_of_falling hlt).2 (h.2 hlt)

/-! Points of the box that the line passes. -/

theorem passes_point (hp : Inside w h p) : s.Passes w h p p p :=
  ⟨hp, spans_left p p, fun r hr => absurd hr (hp.2 r), fun k hk => absurd hk (hp.1 k)⟩

/-- A line that is in the box in column `x` enters it over a row side before this column. -/
theorem column_between_atRow {r : Side} (hj : s.Joins p q) (hx : s.x0 ≠ s.x1)
    (h₀ : min s.x0 s.x1 ≤ x) (h₁ : x ≤ max s.x0 s.x1) (hlow : ((0 : Int) : ℚ) ≤ s.rowExact x)
    (hhigh : s.rowExact x ≤ ((h - 1 : Int) : ℚ)) (hp : r.Beyond h p.2) (hq : ¬ r.Beyond h q.2) :
    min (s.columnNear (r.edge h)) q.1 ≤ x ∧ x ≤ max (s.columnNear (r.edge h)) q.1 := by
  rw [le_rowExact hx] at hlow
  rw [rowExact_le hx] at hhigh
  have hrising := columnNear_of_rising (s := s) (x := x) (y := r.edge h)
  have hfalling := columnNear_of_falling (s := s) (x := x) (y := r.edge h)
  rcases hj with ⟨rfl, rfl⟩ | ⟨rfl, rfl⟩ <;> cases r <;>
    simp only [Side.Beyond, Side.excess, Side.edge] at * <;> omega

/-- The row nearest to a line that is inside the box in column `x` is passed in the box. -/
theorem passes_rowNear (hj : s.Joins p q) (hx : s.x0 ≠ s.x1) (hw : 0 ≤ x ∧ x < w)
    (h₀ : min s.x0 s.x1 ≤ x) (h₁ : x ≤ max s.x0 s.x1) (hlow : 0 ≤ s.rowExact x)
    (hhigh : s.rowExact x ≤ (h : ℚ) - 1) : s.Passes w h p q (x, s.rowNear x) := by
  have hlow' : ((0 : Int) : ℚ) ≤ s.rowExact x := by exact_mod_cast hlow
  have hhigh' : s.rowExact x ≤ ((h - 1 : Int) : ℚ) := by exact_mod_cast hhigh
  have hin : Inside w h (x, s.rowNear x) :=
    inside_iff.2 ⟨hw.1, hw.2, le_rowNear hx hlow', Int.lt_of_le_sub_one (rowNear_le hx hhigh')⟩
  have hends := rowNear_between hx h₀ h₁
  have hspans : Spans p q (x, s.rowNear x) := by
    rcases hj with ⟨rfl, rfl⟩ | ⟨rfl, rfl⟩ <;> simp only [Spans] <;> omega
  refine ⟨hin, hspans, fun r hr => ?_, fun k hk => ?_⟩
  · have hrq : ¬ r.Beyond h q.2 := fun hrq => hin.2 r (hr.between hrq hspans.2)
    exact ⟨column_between_atRow hj hx h₀ h₁ hlow' hhigh' hr hrq,
      hr.between_edge (hin.2 r) hspans.2⟩
  · have hq : s.rowNear q.1 = q.2 := by
      rcases hj with ⟨-, rfl⟩ | ⟨-, rfl⟩
      · exact columnNear_second (s := s.transpose) hx
      · exact columnNear_first (s := s.transpose) hx
    have hcolumns := hk.between_edge (hin.1 k) hspans.1
    have hrows := rowNear_spans hx hcolumns.1 hcolumns.2
    rw [hq] at hrows
    exact ⟨hcolumns, hrows⟩

/-- In a column where the exact line is inside the box it passes a point of the box. -/
theorem exists_passes (hwide : s.Wide) (h₀ : min s.x0 s.x1 ≤ x) (h₁ : x ≤ max s.x0 s.x1)
    (hw : 0 ≤ x ∧ x < w) (hlow : 0 ≤ s.rowExact x) (hhigh : s.rowExact x ≤ (h : ℚ) - 1) :
    ∃ y, s.Passes w h (s.x0, s.y0) (s.x1, s.y1) (x, y) ∧
      s.Passes w h (s.x1, s.y1) (s.x0, s.y0) (x, y) := by
  by_cases hx : s.x0 = s.x1
  · have hy : s.y0 = s.y1 := by
      unfold Wide at hwide
      omega
    rw [rowExact_level hy] at hlow hhigh
    have hrow₀ : 0 ≤ s.y0 := by exact_mod_cast hlow
    have hrow₁ : s.y0 ≤ h - 1 := by exact_mod_cast hhigh
    have hpoint : Inside w h (s.x0, s.y0) := inside_iff.2 ⟨by omega, by omega, hrow₀, by omega⟩
    obtain rfl : x = s.x0 := by omega
    rw [← hx, ← hy]
    exact ⟨s.y0, passes_point hpoint, passes_point hpoint⟩
  · exact ⟨_, passes_rowNear (Or.inl ⟨rfl, rfl⟩) hx hw h₀ h₁ hlow hhigh,
      passes_rowNear (Or.inr ⟨rfl, rfl⟩) hx hw h₀ h₁ hlow hhigh⟩

/-! What is drawn between two points beside a wide line. -/

/-- The points that the clipped line covers. -/
def Drawn (s : Segment) (w h x y : Int) : Prop := ∃ t, s.clip w h = .ok (some t) ∧ t.Covers x y

theorem Beside.transpose {u : Int × Int} (hu : s.Beside u) : s.transpose.Beside (u.2, u.1) := by
  refine ⟨⟨hu.spans.2, hu.spans.1⟩, ?_⟩
  have hnear := hu.near
  rw [turn_transpose, Int.natAbs_neg]
  unfold reach at *
  simp only [Segment.transpose]
  omega

section Beside
variable (hwide : s.Wide) (h₀ : s.Beside (t.x0, t.y0)) (h₁ : s.Beside (t.x1, t.y1))
include hwide h₀ h₁

omit h₀ h₁ in
theorem Beside.near_of_wide {u : Int × Int} (hu : s.Beside u) :
    2 * (s.turn u.1 u.2).natAbs ≤ (s.x1 - s.x0).natAbs := by
  have hnear := hu.near
  rwa [reach, Nat.max_eq_left hwide] at hnear

/-- Two points beside a wide line are not steep to each other, but for a step in one column. -/
theorem Beside.rows_le_columns : (t.y1 - t.y0).natAbs ≤ max 1 (t.x1 - t.x0).natAbs := by
  by_cases hx : s.x0 = s.x1
  · have hspans₀ := h₀.spans
    have hspans₁ := h₁.spans
    simp only [Wide, Spans] at hwide hspans₀ hspans₁
    omega
  · exact Segment.rows_le_columns hx hwide (h₀.near_of_wide hwide) (h₁.near_of_wide hwide)

theorem Beside.wide (hx : t.x0 ≠ t.x1) : t.Wide := by
  have hle := h₀.rows_le_columns hwide h₁
  unfold Wide
  omega

theorem exists_covers (hx₀ : min t.x0 t.x1 ≤ x) (hx₁ : x ≤ max t.x0 t.x1) : ∃ y, t.Covers x y := by
  by_cases hx : t.x0 = t.x1
  · refine ⟨t.y0, ?_⟩
    rw [Covers, if_pos hx]
    omega
  · obtain ⟨y, hy⟩ := exists_follows hx hx₀ hx₁
    exact ⟨y, (covers_iff (fun h => hx h.1)).2 ((traces_of_wide (h₀.wide hwide h₁ hx)).2 hy)⟩

/-- A point that follows a line between points beside `s` is off `s` by at most a pixel, half for the
ends and half for the way between them. -/
theorem Follows.turn_le (hx : t.x0 ≠ t.x1) (hf : t.Follows x y) :
    (s.turn x y).natAbs ≤ (s.x1 - s.x0).natAbs := by
  obtain ⟨hleft, hright, hnear, -⟩ := (follows_iff hx).1 hf
  have hnear₀ : 2 * (s.turn t.x0 t.y0).natAbs ≤ _ := h₀.near_of_wide hwide
  have hnear₁ : 2 * (s.turn t.x1 t.y1).natAbs ≤ _ := h₁.near_of_wide hwide
  have hsum : (t.x1 - t.x0) * s.turn x y = (s.x1 - s.x0) * t.turn x y +
      ((t.x1 - x) * s.turn t.x0 t.y0 + (x - t.x0) * s.turn t.x1 t.y1) := by
    simp only [turn]
    ring
  have hle : (t.x1 - t.x0).natAbs * (s.turn x y).natAbs ≤ (s.x1 - s.x0).natAbs * (t.turn x y).natAbs +
      ((t.x1 - x).natAbs * (s.turn t.x0 t.y0).natAbs +
        (x - t.x0).natAbs * (s.turn t.x1 t.y1).natAbs) := by
    rw [← Int.natAbs_mul, ← Int.natAbs_mul, ← Int.natAbs_mul, ← Int.natAbs_mul, hsum]
    omega
  have hlength : (t.x1 - x).natAbs + (x - t.x0).natAbs = (t.x1 - t.x0).natAbs := by omega
  have hpos : 0 < (t.x1 - t.x0).natAbs := by omega
  refine Nat.le_of_mul_le_mul_left (Nat.le_of_mul_le_mul_left ?_ Nat.two_pos) hpos
  calc 2 * ((t.x1 - t.x0).natAbs * (s.turn x y).natAbs)
      ≤ 2 * ((s.x1 - s.x0).natAbs * (t.turn x y).natAbs +
          ((t.x1 - x).natAbs * (s.turn t.x0 t.y0).natAbs +
            (x - t.x0).natAbs * (s.turn t.x1 t.y1).natAbs)) := Nat.mul_le_mul_left 2 hle
    _ = (s.x1 - s.x0).natAbs * (2 * (t.turn x y).natAbs) +
          ((t.x1 - x).natAbs * (2 * (s.turn t.x0 t.y0).natAbs) +
            (x - t.x0).natAbs * (2 * (s.turn t.x1 t.y1).natAbs)) := by ring
    _ ≤ (s.x1 - s.x0).natAbs * (t.x1 - t.x0).natAbs +
          ((t.x1 - x).natAbs * (s.x1 - s.x0).natAbs +
            (x - t.x0).natAbs * (s.x1 - s.x0).natAbs) :=
        Nat.add_le_add (Nat.mul_le_mul_left _ hnear)
          (Nat.add_le_add (Nat.mul_le_mul_left _ hnear₀) (Nat.mul_le_mul_left _ hnear₁))
    _ = 2 * ((t.x1 - t.x0).natAbs * (s.x1 - s.x0).natAbs) := by
        rw [← Nat.add_mul, hlength]
        ring

theorem Covers.turn_le (hc : t.Covers x y) : (s.turn x y).natAbs ≤ (s.x1 - s.x0).natAbs := by
  by_cases hx : t.x0 = t.x1
  · -- one of the ends
    have hrows := h₀.rows_le_columns hwide h₁
    have hnear₀ : 2 * (s.turn t.x0 t.y0).natAbs ≤ _ := h₀.near_of_wide hwide
    have hnear₁ : 2 * (s.turn t.x1 t.y1).natAbs ≤ _ := h₁.near_of_wide hwide
    rw [Covers, if_pos hx] at hc
    have hend : y = t.y0 ∨ y = t.y1 := by omega
    rcases hend with rfl | rfl
    · rw [hc.1]
      omega
    · rw [hc.1, hx]
      omega
  · have hf := (traces_of_wide (h₀.wide hwide h₁ hx)).1 ((covers_iff (fun h => hx h.1)).1 hc)
    exact hf.turn_le hwide h₀ h₁ hx

theorem Covers.near (hc : t.Covers x y) : |(y : ℚ) - s.rowExact x| ≤ 1 := by
  by_cases hx : s.x0 = s.x1
  · -- the line is one point
    have hspans₀ := h₀.spans
    have hspans₁ := h₁.spans
    have hbetween := hc.between
    simp only [Wide, Spans] at hwide hspans₀ hspans₁
    obtain rfl : y = s.y0 := by omega
    rw [rowExact_level (by omega), sub_self, abs_zero]
    exact zero_le_one
  · rw [abs_sub_rowExact_le_one hx]
    exact hc.turn_le hwide h₀ h₁

end Beside

/-! Clipped lines. -/

/-- The points of `S` are never more than one row off the exact line, and no column of a box of `w` by
`h` pixels is left out where the exact line is inside. -/
structure Accurate (s : Segment) (w h : Int) (S : Int → Int → Prop) : Prop where
  near : ∀ x y, S x y → |(y : ℚ) - s.rowExact x| ≤ 1
  complete : ∀ x, min s.x0 s.x1 ≤ x → x ≤ max s.x0 s.x1 → 0 ≤ x → x < w → 0 ≤ s.rowExact x →
    s.rowExact x ≤ (h : ℚ) - 1 → ∃ y, S x y

/-- The points of `S` are accurate along the longer axis of the line. -/
def Renders (s : Segment) (w h : Int) (S : Int → Int → Prop) : Prop :=
  if s.Wide then s.Accurate w h S else s.transpose.Accurate h w fun y x => S x y

/-- Parts of a wide line with ends beside it, of which one has all that the line passes, are accurate. -/
theorem accurate_of_wide (hwide : s.Wide) {P : Segment → Prop}
    (hbeside : ∀ t, P t → s.Beside (t.x0, t.y0) ∧ s.Beside (t.x1, t.y1))
    (hpasses : ∀ g, s.Passes w h (s.x0, s.y0) (s.x1, s.y1) g →
      s.Passes w h (s.x1, s.y1) (s.x0, s.y0) g →
        ∃ t, P t ∧ Spans (t.x0, t.y0) (t.x1, t.y1) g) :
    s.Accurate w h (fun x y => ∃ t, P t ∧ t.Covers x y) := by
  constructor
  · intro x y hdrawn
    obtain ⟨t, ht, hc⟩ := hdrawn
    obtain ⟨h₀, h₁⟩ := hbeside t ht
    exact hc.near hwide h₀ h₁
  · intro x hx₀ hx₁ hlow hhigh hrow₀ hrow₁
    obtain ⟨y, hg, hg'⟩ := exists_passes hwide hx₀ hx₁ ⟨hlow, hhigh⟩ hrow₀ hrow₁
    obtain ⟨t, ht, hspans⟩ := hpasses _ hg hg'
    obtain ⟨h₀, h₁⟩ := hbeside t ht
    obtain ⟨y', hc⟩ := exists_covers hwide h₀ h₁ hspans.1.1 hspans.1.2
    exact ⟨y', t, ht, hc⟩

/-- What is drawn of a line renders it. -/
theorem Near.drawn_renders (hs : s.Near) (hw0 : 0 ≤ w) (hh0 : 0 ≤ h) (hw : w ≤ 0x7fffffff)
    (hh : h ≤ 0x7fffffff) : s.Renders w h (s.Drawn w h) := by
  have hbeside := fun t => hs.clip_beside (t := t) hw0 hh0 hw hh
  have hpasses : ∀ g, s.Passes w h (s.x0, s.y0) (s.x1, s.y1) g →
      s.Passes w h (s.x1, s.y1) (s.x0, s.y0) g →
        ∃ t, s.clip w h = .ok (some t) ∧ Spans (t.x0, t.y0) (t.x1, t.y1) g := by
    intro g hg hg'
    have hin := inside_iff.1 hg.inside
    exact Scope.clip_passes ⟨hs, by omega, by omega, hw, hh⟩ hg hg'
  unfold Renders
  by_cases hwide : s.Wide
  · rw [if_pos hwide]
    exact accurate_of_wide hwide hbeside hpasses
  · -- with rows and columns exchanged the line is wide
    rw [if_neg hwide]
    have haccurate := accurate_of_wide (s := s.transpose) (w := h) (h := w)
      (P := fun t => s.clip w h = .ok (some t.transpose)) (s.wide_total.resolve_left hwide)
      (fun t ht => ⟨(hbeside _ ht).1.transpose, (hbeside _ ht).2.transpose⟩)
      (fun g hg hg' => by
        obtain ⟨t, ht, hspans⟩ := hpasses (g.2, g.1) (.of_transpose hg) (.of_transpose hg')
        exact ⟨t.transpose, ht, hspans.2, hspans.1⟩)
    have hsame : (fun y x => s.Drawn w h x y) =
        fun y x => ∃ t : Segment, s.clip w h = .ok (some t.transpose) ∧ t.Covers y x := by
      funext y x
      apply propext
      constructor
      · rintro ⟨t, ht, hc⟩
        exact ⟨t.transpose, ht, covers_transpose.2 hc⟩
      · rintro ⟨t, ht, hc⟩
        exact ⟨t.transpose, ht, covers_transpose.2 hc⟩
    rw [hsame]
    exact haccurate

/-- What is drawn lies in the box and between the ends. -/
theorem Near.drawn_inside (hs : s.Near) (hw0 : 0 ≤ w) (hh0 : 0 ≤ h) (hw : w ≤ 0x7fffffff)
    (hh : h ≤ 0x7fffffff) (hd : s.Drawn w h x y) :
    Inside w h (x, y) ∧ Spans (s.x0, s.y0) (s.x1, s.y1) (x, y) := by
  obtain ⟨t, ht, hc⟩ := hd
  obtain ⟨h₀, h₁⟩ := hs.clip_beside hw0 hh0 hw hh ht
  obtain ⟨o, ho, hwithin⟩ := hs.clip_within hw0 hh0 hw hh
  rw [ht] at ho
  cases ho
  obtain ⟨hin₀, hin₁⟩ := hwithin t rfl
  rw [inside_iff] at hin₀ hin₁ ⊢
  have hspans₀ := h₀.spans
  have hspans₁ := h₁.spans
  have hbetween := hc.between
  simp only [Spans] at *
  omega

end Segment

/-! Drawing clipped lines. -/

namespace Frame
variable {f : Frame} {b : Bytes} {s : Segment}

theorem Addressable.segment_paints (hf : f.Addressable b.size) (hs : s.Near) (v : Pixel) :
    Yields (f.segment s v b)
      (f.Paints (s.Drawn f.width.toNat f.height.toNat) (fun _ _ => f.stored v) b) := by
  obtain ⟨hw, hh⟩ := hf.size_le
  obtain ⟨o, ho, hwithin⟩ := hs.clip_within (Int.natCast_nonneg _) (Int.natCast_nonneg _) hw hh
  have hdrawn : ∀ x y, s.Drawn f.width.toNat f.height.toNat x y ↔ ∃ t, o = some t ∧ t.Covers x y := by
    intro x y
    rw [Segment.Drawn, ho]
    simp only [Except.ok.injEq]
  rw [segment, ho]
  cases o with
  | none =>
    refine Yields.ok (Paints.none (fun x y _ hin => ?_))
    obtain ⟨t, ht, -⟩ := (hdrawn x y).1 hin
    cases ht
  | some t =>
    apply (hf.paintSegment_paints (hwithin t rfl) v).mono
    intro c hc
    refine hc.area (fun x y _ => ?_)
    rw [hdrawn]
    simp only [Option.some.injEq, exists_eq_left']

end Frame

namespace Pixmap

/-- Between any two raw points a line is accurate: the pixels set lie between the ends and at most one
pixel off the exact line, and none is missing along the longer axis where the exact line is inside the
pixmap. -/
theorem line_accurate {d : Pixmap} (hd : d.Addressable) (p q : Point) (v : Pixel) :
    Yields (d.draw .raw fun f b => f.line p q v b)
        (d.Colours .raw ((Segment.between p q).Drawn d.width.toNat d.height.toNat) v) ∧
      (∀ x y, (Segment.between p q).Drawn d.width.toNat d.height.toNat x y → d.Holds .raw x y ∧
        Segment.Spans (p.x.toInt, p.y.toInt) (q.x.toInt, q.y.toInt) (x, y)) ∧
      (Segment.between p q).Renders d.width.toNat d.height.toNat
        ((Segment.between p q).Drawn d.width.toNat d.height.toNat) := by
  have hf : (d.toFrame.seen .raw).Addressable d.bytes.size := Frame.Addressable.seen hd .raw
  have hraw : ∀ x y, (d.toFrame.seen .raw).toRaw x y = (x, y) := Frame.toRaw_of_identity rfl
  have hjoining : (d.toFrame.seen .raw).joining p q = Segment.between p q := by
    rw [Frame.joining, hraw, hraw, Segment.between]
  have hs : (Segment.between p q).Near := hjoining ▸ (d.toFrame.seen .raw).joining_near p q
  obtain ⟨hw, hh⟩ := hf.size_le
  refine ⟨?_, fun x y hdrawn => ?_,
    hs.drawn_renders (Int.natCast_nonneg _) (Int.natCast_nonneg _) hw hh⟩
  · refine hd.draw_colours ?_ (fun x y _ => by rw [hraw])
    rw [Frame.line, Frame.rawSegment_eq, ok_bind, hjoining]
    exact hf.segment_paints hs v
  · obtain ⟨hin, hspans⟩ := hs.drawn_inside (Int.natCast_nonneg _) (Int.natCast_nonneg _) hw hh hdrawn
    obtain ⟨h₀, h₁, h₂, h₃⟩ := Segment.inside_iff.1 hin
    exact ⟨⟨h₀, h₂, h₁, h₃⟩, hspans⟩

/-- On 4 by 3 pixels the line from (-4, -1) to (8, 3) sets row 0 in column 1, where its exact row is
closer to 1. -/
theorem line_accurate_clipped : ∃ d e : Pixmap, d.Addressable ∧
    (d.draw .raw fun f b => f.line ⟨-4, -1⟩ ⟨8, 3⟩ 1 b) = .ok e ∧
      (e.seen .raw).get ⟨1, 0⟩ = .ok 1 ∧ (Segment.between ⟨-4, -1⟩ ⟨8, 3⟩).rowExact 1 = 2 / 3 := by
  let d : Pixmap := ⟨⟨0, 4, 3, 4, 0, .g8, .identity, none⟩, Array.replicate 12 0⟩
  have hd : d.Addressable := by
    refine ⟨⟨?_, ?_, ?_, ?_, ?_, ?_, ?_⟩, ?_, ?_⟩ <;> decide
  obtain ⟨⟨e, he, hcolours⟩, -⟩ := line_accurate hd ⟨-4, -1⟩ ⟨8, 3⟩ 1
  have hdrawn : (Segment.between ⟨-4, -1⟩ ⟨8, 3⟩).Drawn 4 3 1 0 := by
    refine ⟨⟨0, 0, 3, 1⟩, by rfl, ?_⟩
    rw [Segment.Covers, if_neg (by decide), if_neg (by decide)]
    exact ⟨1, by decide, by decide, Or.inl (by decide)⟩
  exact ⟨d, e, hd, he, hcolours.get_in ⟨1, 0⟩ (by decide) hdrawn, by decide +kernel⟩

end Pixmap

end Raster
