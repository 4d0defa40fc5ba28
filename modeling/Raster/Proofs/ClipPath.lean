import Raster.Proofs.Clipping

/- The way of the ends of a line into the box. What holds of an end and is kept by every
   move to a side beyond which the end lies, holds where it arrives
   (`Scope.leads_keeps`). So the ends stay in the box spanned by the line and within
   half a pixel of it (`Near.clip_beside`), and they do not go past a point of the box
   that the meeting points with the sides do not go past (`Scope.clip_passes`). -/
namespace Raster

namespace Side
variable {σ : Side} {n a b v : Int}

theorem Beyond.of_between (hv : σ.Beyond n v) (h : min a b ≤ v ∧ v ≤ max a b) :
    σ.Beyond n a ∨ σ.Beyond n b := by
  cases σ <;> simp only [Beyond, excess] at * <;> omega

theorem Beyond.between (ha : σ.Beyond n a) (hb : σ.Beyond n b) (h : min a b ≤ v ∧ v ≤ max a b) :
    σ.Beyond n v := by
  cases σ <;> simp only [Beyond, excess] at * <;> omega

/-- From beyond a side to before it one crosses its edge. -/
theorem Beyond.crosses (hv : σ.Beyond n v) (h : min a b ≤ v ∧ v ≤ max a b)
    (hab : σ.Beyond n a → ¬ σ.Beyond n b) : a ≠ b ∧ min a b ≤ σ.edge n ∧ σ.edge n ≤ max a b := by
  cases σ <;> simp only [Beyond, excess, edge] at * <;> omega

/-- What is not beyond a side lies on from its edge. -/
theorem Beyond.between_edge (ha : σ.Beyond n a) (hv : ¬ σ.Beyond n v)
    (h : min a b ≤ v ∧ v ≤ max a b) : min (σ.edge n) b ≤ v ∧ v ≤ max (σ.edge n) b := by
  cases σ <;> simp only [Beyond, excess, edge] at * <;> omega

end Side

namespace Segment

/-- The point lies in the box spanned by `p` and `q`. -/
def Spans (p q u : Int × Int) : Prop :=
  (min p.1 q.1 ≤ u.1 ∧ u.1 ≤ max p.1 q.1) ∧ min p.2 q.2 ≤ u.2 ∧ u.2 ≤ max p.2 q.2

/-- The length of the line along its longer axis. -/
def reach (s : Segment) : Nat := max (s.x1 - s.x0).natAbs (s.y1 - s.y0).natAbs

/-- The point lies in the box spanned by the line, within half a pixel of it. -/
structure Beside (s : Segment) (u : Int × Int) : Prop where
  spans : Spans (s.x0, s.y0) (s.x1, s.y1) u
  near : 2 * (s.turn u.1 u.2).natAbs ≤ s.reach

/-- The line from `p` to `q` passes `g` in the box after any side beyond which `p` lies. -/
structure Passes (s : Segment) (w h : Int) (p q g : Int × Int) : Prop where
  inside : Inside w h g
  spans : Spans p q g
  row : ∀ r : Side, r.Beyond h p.2 → Spans (s.atRow h r) q g
  column : ∀ k : Side, k.Beyond w p.1 → Spans (s.atColumn w k) q g

variable {s : Segment} {w h : Int} {p q p' q' u u' g : Int × Int} {r k : Side} {n : Nat}

theorem Spans.symm (hu : Spans p q u) : Spans q p u := by
  unfold Spans at *
  omega

theorem spans_left (p q : Int × Int) : Spans p q p := by
  unfold Spans
  omega

theorem spans_right (p q : Int × Int) : Spans p q q := by
  unfold Spans
  omega

/-- Two ends that each have the point between themselves and the other's start have it between them. -/
theorem Spans.meet (hp' : Spans p q p') (hq' : Spans p q q') (hp : Spans p' q g)
    (hq : Spans q' p g) : Spans p' q' g := by
  unfold Spans at *
  omega

section Ends
variable (hs : s.Scope w h) (hj : s.Joins p q) (ha : Apart w h p q)
include hs hj ha

/-- What every move to a side keeps, moving on keeps. -/
theorem Scope.leads_keeps {I : Int × Int → Prop} (hspan : ∀ u, I u → Spans p q u)
    (hrow : ∀ u r, I u → r.Beyond h u.2 → I (s.atRow h r))
    (hcolumn : ∀ u k, I u → k.Beyond w u.1 → I (s.atColumn w k)) (hl : Leads s w h n u u')
    (hu : I u) : I u' := by
  induction hl with
  | inside _ => exact hu
  | @move _ u v _ hout hc _ ih =>
    by_cases hr : ∃ r : Side, r.Beyond h u.2
    · obtain ⟨r, hr⟩ := hr
      -- one of the ends of the line is beyond that side
      have hmove : s.crossing w h (Sides.of w h u) = .ok (s.atRow h r) := by
        rcases hr.of_between (hspan u hu).2 with hp | hq
        · exact hs.moves_row hj hp (ha.row r hp) hr
        · exact hs.moves_row hj.symm hq (ha.symm.row r hq) hr
      rw [hmove] at hc
      cases hc
      exact ih (hrow u r hu hr)
    · have hrows : ∀ r : Side, ¬ r.Beyond h u.2 := fun r hr' => hr ⟨r, hr'⟩
      obtain ⟨k, hk⟩ : ∃ k : Side, k.Beyond w u.1 := by
        by_contra hk
        exact hout ⟨fun k hk' => hk ⟨k, hk'⟩, hrows⟩
      have hmove : s.crossing w h (Sides.of w h u) = .ok (s.atColumn w k) := by
        rcases hk.of_between (hspan u hu).1 with hp | hq
        · exact hs.moves_column hj hp (ha.column k hp) hrows hk
        · exact hs.moves_column hj.symm hq (ha.symm.column k hq) hrows hk
      rw [hmove] at hc
      cases hc
      exact ih (hcolumn u k hu hk)

end Ends

section Apart
variable (hj : s.Joins p q) (ha : Apart w h p q)
include hj ha

/-- The line is not level where it crosses a row side, and meets the side between its ends. -/
theorem spans_atRow (hu : Spans p q u) (hr : r.Beyond h u.2) :
    s.y0 ≠ s.y1 ∧ Spans p q (s.atRow h r) := by
  have hedge := hr.crosses hu.2 (ha.row r)
  have hbetween := columnNear_between (s := s) (y := r.edge h)
  rcases hj with ⟨rfl, rfl⟩ | ⟨rfl, rfl⟩ <;> simp only [Spans, atRow] at * <;> omega

theorem spans_atColumn (hu : Spans p q u) (hk : k.Beyond w u.1) :
    s.x0 ≠ s.x1 ∧ Spans p q (s.atColumn w k) := by
  obtain ⟨hne, hspans⟩ := spans_atRow (u := (u.2, u.1)) hj.transpose ha.transpose ⟨hu.2, hu.1⟩ hk
  exact ⟨hne, hspans.2, hspans.1⟩

end Apart

/-! Ends stay beside the line. -/

section Beside
variable (ha : Apart w h (s.x0, s.y0) (s.x1, s.y1)) (hu : s.Beside u)
include ha hu

theorem Beside.atRow (hr : r.Beyond h u.2) : s.Beside (s.atRow h r) := by
  obtain ⟨hne, hspans⟩ := spans_atRow (Or.inl ⟨rfl, rfl⟩) ha hu.spans hr
  refine ⟨hspans, ?_⟩
  have hnear := turn_columnNear hne (r.edge h)
  exact Nat.le_trans hnear (Nat.le_max_right ..)

theorem Beside.atColumn (hk : k.Beyond w u.1) : s.Beside (s.atColumn w k) := by
  obtain ⟨hne, hspans⟩ := spans_atColumn (Or.inl ⟨rfl, rfl⟩) ha hu.spans hk
  refine ⟨hspans, ?_⟩
  have hnear := turn_rowNear hne (k.edge w)
  exact Nat.le_trans hnear (Nat.le_max_left ..)

theorem Beside.leads (hs : s.Scope w h) (hl : Leads s w h n u u') : s.Beside u' :=
  hs.leads_keeps (Or.inl ⟨rfl, rfl⟩) ha (fun _ hu => hu.spans) (fun _ _ hu hr => hu.atRow ha hr)
    (fun _ _ hu hk => hu.atColumn ha hk) hl hu

end Beside

theorem beside_first (s : Segment) : s.Beside (s.x0, s.y0) :=
  ⟨spans_left _ _, by simp only [turn_first, Int.natAbs_zero, Nat.mul_zero, Nat.zero_le]⟩

theorem beside_second (s : Segment) : s.Beside (s.x1, s.y1) :=
  ⟨spans_right _ _, by simp only [turn_second, Int.natAbs_zero, Nat.mul_zero, Nat.zero_le]⟩

/-- The ends of what clipping leaves are beside the line. -/
theorem Near.clip_beside {t : Segment} (hs : s.Near) (hw0 : 0 ≤ w) (hh0 : 0 ≤ h)
    (hw : w ≤ 0x7fffffff) (hh : h ≤ 0x7fffffff) (ht : s.clip w h = .ok (some t)) :
    s.Beside (t.x0, t.y0) ∧ s.Beside (t.x1, t.y1) := by
  by_cases hempty : w = 0 ∨ h = 0
  · rw [clip, if_pos hempty] at ht
    cases ht
  have hscope : s.Scope w h := ⟨hs, by omega, by omega, hw, hh⟩
  have hj : s.Joins (s.x0, s.y0) (s.x1, s.y1) := Or.inl ⟨rfl, rfl⟩
  rw [hscope.clip_eq.1] at ht
  have ha : Apart w h (s.x0, s.y0) (s.x1, s.y1) := by
    by_contra ha
    rw [trim_of_not_apart ha 15] at ht
    cases ht
  have hb : ¬ Barred s w h (s.x0, s.y0) (s.x1, s.y1) := by
    intro hb
    rw [hscope.trim_of_barred hj ha hb 13] at ht
    cases ht
  obtain ⟨p, q, ⟨_, hp⟩, ⟨_, hq⟩, htrim⟩ := hscope.trim_of_not_barred hj ha hb
  rw [htrim] at ht
  cases ht
  exact ⟨s.beside_first.leads ha hscope hp, s.beside_second.leads ha hscope hq⟩

/-! Points that the line passes in the box. -/

namespace Passes

/-- Rows and columns may be exchanged. -/
theorem of_transpose (hg : s.transpose.Passes h w (p.2, p.1) (q.2, q.1) (g.2, g.1)) :
    s.Passes w h p q g :=
  ⟨⟨hg.inside.2, hg.inside.1⟩, ⟨hg.spans.2, hg.spans.1⟩,
    fun r hr => ⟨(hg.column r hr).2, (hg.column r hr).1⟩,
    fun k hk => ⟨(hg.row k hk).2, (hg.row k hk).1⟩⟩

variable (hg : s.Passes w h p q g)
include hg

theorem apart : Apart w h p q :=
  ⟨fun k hp hq => hg.inside.1 k (hp.between hq hg.spans.1),
    fun r hp hq => hg.inside.2 r (hp.between hq hg.spans.2)⟩

variable (hs : s.Scope w h) (hj : s.Joins p q)
include hs hj

/-- A line that passes a point of the box does not miss the box. -/
theorem not_barred : ¬ Barred s w h p q := by
  have ha := hg.apart
  intro hb
  rcases hb with ⟨r, hr, k, hk, hmiss⟩ | ⟨hrows, k, hkp, t, ht⟩
  · have hrq := ha.row r hr
    have hkq : ¬ k.Beyond w q.1 := fun hkq => hg.inside.1 k (hk.between hkq (hg.row r hr).1)
    have hkp := (hj.column_between hr hrq hk).resolve_right hkq
    obtain ⟨t, ht⟩ := hmiss.resolve_left hkq
    have htq : ¬ t.Beyond h q.2 := fun htq => hg.inside.2 t (ht.between htq (hg.column k hkp).2)
    have htp := (hj.row_between hkp hkq ht).resolve_right htq
    rw [htp.unique hs.h_pos hr] at ht
    exact hj.outer hr hkp hrq hkq hk ht
  · have htq := (hj.row_between hkp (ha.column k hkp) ht).resolve_left (hrows t)
    exact hg.inside.2 t (ht.between htq (hg.column k hkp).2)

/-- The end does not move past the point. -/
theorem leads (hl : Leads s w h n p p') : Spans p q p' ∧ Spans p' q g := by
  have ha := hg.apart
  -- a side beyond which the end still lies is before the point, hence beyond it lies `p`
  refine hs.leads_keeps hj ha (I := fun u => Spans p q u ∧ Spans u q g) (fun u hu => hu.1) ?_ ?_ hl
    ⟨spans_left p q, hg.spans⟩
  · intro u r hu hr
    have hrq : ¬ r.Beyond h q.2 := fun hrq => hg.inside.2 r (hr.between hrq hu.2.2)
    have hrp := (hr.of_between hu.1.2).resolve_right hrq
    exact ⟨(spans_atRow hj ha hu.1 hr).2, hg.row r hrp⟩
  · intro u k hu hk
    have hkq : ¬ k.Beyond w q.1 := fun hkq => hg.inside.1 k (hk.between hkq hu.2.1)
    have hkp := (hk.of_between hu.1.1).resolve_right hkq
    exact ⟨(spans_atColumn hj ha hu.1 hk).2, hg.column k hkp⟩

end Passes

/-- Clipping keeps the points that the line passes in both directions. -/
theorem Scope.clip_passes (hs : s.Scope w h) (hg : s.Passes w h (s.x0, s.y0) (s.x1, s.y1) g)
    (hg' : s.Passes w h (s.x1, s.y1) (s.x0, s.y0) g) :
    ∃ t, s.clip w h = .ok (some t) ∧ Spans (t.x0, t.y0) (t.x1, t.y1) g := by
  have hj : s.Joins (s.x0, s.y0) (s.x1, s.y1) := Or.inl ⟨rfl, rfl⟩
  obtain ⟨p, q, ⟨_, hp⟩, ⟨_, hq⟩, htrim⟩ :=
    hs.trim_of_not_barred hj hg.apart (hg.not_barred hs hj)
  obtain ⟨hp₀, hp₁⟩ := hg.leads hs hj hp
  obtain ⟨hq₀, hq₁⟩ := hg'.leads hs hj.symm hq
  refine ⟨_, hs.clip_eq.1.trans htrim, ?_⟩
  exact hp₀.meet hq₀.symm hp₁ hq₁

end Segment

end Raster
