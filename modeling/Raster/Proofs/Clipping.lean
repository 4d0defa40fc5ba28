import Raster.Proofs.Crossing

/- Clipping. The ends of a line move into the box one after the other, each from side to
   side (`Leads`); a move may show that the line misses the box after all. Whether this
   happens to the first end is decided by where the line meets the sides around one corner
   (`Barred`); the second end always arrives (`second_leads`). The order of the ends
   matters only to a line that grazes a corner: the rounded meeting points with the two
   sides of the corner disagree on whether the line passes it inside (`GrazesAt`). Then
   one order finds nothing and the other just the pixel in the corner
   (`clip_of_grazes`); in all other cases both orders find the same part
   (`clip_swap`). -/
namespace Raster.Segment

/-- The line and the box are not too large for clipping. -/
structure Scope (s : Segment) (w h : Int) : Prop where
  near : s.Near
  w_pos : 0 < w
  h_pos : 0 < h
  w_le : w ≤ 0x7fffffff
  h_le : h ≤ 0x7fffffff

/-- The point lies in the box. -/
def Inside (w h : Int) (p : Int × Int) : Prop :=
  (∀ k : Side, ¬ k.Beyond w p.1) ∧ ∀ r : Side, ¬ r.Beyond h p.2

/-- No side of the box has both points beyond it. -/
structure Apart (w h : Int) (p q : Int × Int) : Prop where
  column : ∀ k : Side, k.Beyond w p.1 → ¬ k.Beyond w q.1
  row : ∀ r : Side, r.Beyond h p.2 → ¬ r.Beyond h q.2

/-- The point to which an end beyond row side `r` moves. -/
def atRow (s : Segment) (h : Int) (r : Side) : Int × Int := (s.columnNear (r.edge h), r.edge h)

/-- The point to which an end beyond column side `k` moves. -/
def atColumn (s : Segment) (w : Int) (k : Side) : Int × Int := (k.edge w, s.rowNear (k.edge w))

/-- The pixel in the corner between row side `r` and column side `k`. -/
def cornerPoint (w h : Int) (r k : Side) : Int × Int := (k.edge w, r.edge h)

variable {s : Segment} {w h : Int} {p q p' q' u : Int × Int} {r k : Side} {n m : Nat}

theorem Apart.symm (ha : Apart w h p q) : Apart w h q p :=
  ⟨fun k hq hp => ha.column k hp hq, fun r hq hp => ha.row r hp hq⟩

theorem Apart.transpose (ha : Apart w h p q) : Apart h w (p.2, p.1) (q.2, q.1) := ⟨ha.row, ha.column⟩

theorem Inside.apart (hp : Inside w h p) (q : Int × Int) : Apart w h p q :=
  ⟨fun k hk => absurd hk (hp.1 k), fun r hr => absurd hr (hp.2 r)⟩

theorem inside_iff : Inside w h p ↔ 0 ≤ p.1 ∧ p.1 < w ∧ 0 ≤ p.2 ∧ p.2 < h := by
  constructor
  · intro hp
    have h₁ := hp.1 .low
    have h₂ := hp.1 .high
    have h₃ := hp.2 .low
    have h₄ := hp.2 .high
    simp only [Side.Beyond, Side.excess] at h₁ h₂ h₃ h₄
    omega
  · intro hp
    constructor <;> intro σ <;> cases σ <;> simp only [Side.Beyond, Side.excess] <;> omega

theorem isInside_iff : (Sides.of w h p).isInside = true ↔ Inside w h p := by
  rw [inside_iff]
  simp only [Sides.isInside, Sides.of, Bool.not_or, Bool.and_eq_true, Bool.not_eq_eq_eq_not,
    Bool.not_true, decide_eq_false_iff_not, not_lt, not_le]
  omega

theorem meets_eq_false_iff : (Sides.of w h p).meets (Sides.of w h q) = false ↔ Apart w h p q := by
  simp only [Sides.of, Sides.meets, Bool.or_eq_false_iff, Bool.and_eq_false_iff,
    decide_eq_false_iff_not]
  constructor
  · intro hm
    constructor <;> intro σ <;> cases σ <;> simp only [Side.Beyond, Side.excess] <;> omega
  · intro ha
    have h₁ := ha.column .low
    have h₂ := ha.column .high
    have h₃ := ha.row .low
    have h₄ := ha.row .high
    simp only [Side.Beyond, Side.excess] at h₁ h₂ h₃ h₄
    omega

/-! Single moves. -/

theorem crossing_row (hr : r.Beyond h p.2) (hh : 0 < h) :
    s.crossing w h (Sides.of w h p) = (do return (← s.columnAt (r.edge h), r.edge h)) := by
  cases r <;> simp only [Side.Beyond, Side.excess] at hr
  · have h₁ : ¬ h ≤ p.2 := by omega
    have h₂ : p.2 < 0 := by omega
    simp [crossing, Sides.of, h₁, h₂, Side.edge]
  · have h₁ : h ≤ p.2 := by omega
    simp [crossing, Sides.of, h₁, Side.edge]

theorem crossing_column (hrow : ∀ r : Side, ¬ r.Beyond h p.2) (hk : k.Beyond w p.1) (hw : 0 < w) :
    s.crossing w h (Sides.of w h p) = (do return (k.edge w, ← s.rowAt (k.edge w))) := by
  have h₁ := hrow .low
  have h₂ := hrow .high
  simp only [Side.Beyond, Side.excess] at h₁ h₂
  have h₃ : ¬ p.2 < 0 := by omega
  have h₄ : ¬ h ≤ p.2 := by omega
  cases k <;> simp only [Side.Beyond, Side.excess] at hk
  · have h₅ : ¬ w ≤ p.1 := by omega
    simp [crossing, Sides.of, h₃, h₄, h₅, Side.edge]
  · have h₅ : w ≤ p.1 := by omega
    simp [crossing, Sides.of, h₃, h₄, h₅, Side.edge]

theorem trim_inside (hp : Inside w h p) (hq : Inside w h q) (n : Nat) :
    s.trim w h (n + 1) p q = .ok (some ⟨p.1, p.2, q.1, q.2⟩) := by
  simp [trim, isInside_iff.2 hp, isInside_iff.2 hq]

/-- Both ends beyond one side miss the box. -/
theorem trim_of_not_apart (ha : ¬ Apart w h p q) (n : Nat) : s.trim w h (n + 1) p q = .ok none := by
  have hm : (Sides.of w h p).meets (Sides.of w h q) = true := by
    rw [← Bool.not_eq_false, meets_eq_false_iff]
    exact ha
  have hp : (Sides.of w h p).isInside = false := by
    rw [← Bool.not_eq_true, isInside_iff]
    exact fun hp => ha (hp.apart q)
  simp [trim, hm, hp]

/-- The first end moves as long as it is outside. -/
theorem trim_first (hp : ¬ Inside w h p) (ha : Apart w h p q)
    (hc : s.crossing w h (Sides.of w h p) = .ok p') (n : Nat) :
    s.trim w h (n + 1) p q = s.trim w h n p' q := by
  rw [← isInside_iff, Bool.not_eq_true] at hp
  rw [← meets_eq_false_iff] at ha
  simp [trim, hp, ha, hc]

/-- Then the second end does. -/
theorem trim_second (hp : Inside w h p) (hq : ¬ Inside w h q)
    (hc : s.crossing w h (Sides.of w h q) = .ok q') (n : Nat) :
    s.trim w h (n + 1) p q = s.trim w h n p q' := by
  have ha := meets_eq_false_iff.2 (hp.apart q)
  rw [← isInside_iff] at hp hq
  rw [Bool.not_eq_true] at hq
  simp [trim, hp, hq, ha, hc]

/-! Sequences of moves. -/

/-- After `n` moves from `p` on the end is inside, in `p'`. -/
inductive Leads (s : Segment) (w h : Int) : Nat → Int × Int → Int × Int → Prop where
  | inside {p : Int × Int} (hp : Inside w h p) : Leads s w h 0 p p
  | move {n : Nat} {p u p' : Int × Int} (hp : ¬ Inside w h p)
      (hc : s.crossing w h (Sides.of w h p) = .ok u) (hu : Leads s w h n u p') :
      Leads s w h (n + 1) p p'

theorem Leads.isInside (hl : Leads s w h n p p') : Inside w h p' := by
  induction hl with
  | inside hp => exact hp
  | move _ _ _ ih => exact ih

/-- A point is led to one place only. -/
theorem Leads.unique (hl : Leads s w h n p p') (hl' : Leads s w h m p q') : p' = q' := by
  induction hl generalizing m with
  | inside hp =>
    cases hl' with
    | inside _ => rfl
    | move hout _ _ => exact absurd hp hout
  | move hout hc _ ih =>
    cases hl' with
    | inside hp => exact absurd hp hout
    | move _ hc' hu =>
      rw [hc] at hc'
      cases hc'
      exact ih hu

theorem Leads.trim_second (hl : Leads s w h n q q') (hp : Inside w h p) (m : Nat) :
    s.trim w h (m + n) p q = s.trim w h m p q' := by
  induction hl with
  | inside _ => rfl
  | move hout hc _ ih => rw [← Nat.add_assoc, Segment.trim_second hp hout hc, ih]

/-! The way of the first end. -/

/-- The first end `p` shows that the line misses the box: where it meets the first side it is beyond
a side that the other end is beyond as well, or beyond another one where it meets that. -/
def Barred (s : Segment) (w h : Int) (p q : Int × Int) : Prop :=
  (∃ r : Side, r.Beyond h p.2 ∧ ∃ k : Side, k.Beyond w (s.columnNear (r.edge h)) ∧
    (k.Beyond w q.1 ∨ ∃ t : Side, t.Beyond h (s.rowNear (k.edge w)))) ∨
  ((∀ r : Side, ¬ r.Beyond h p.2) ∧ ∃ k : Side, k.Beyond w p.1 ∧
    ∃ t : Side, t.Beyond h (s.rowNear (k.edge w)))

section Ends
variable (hs : s.Scope w h)
include hs

theorem Scope.inside_atRow (hr : ∀ k : Side, ¬ k.Beyond w (s.columnNear (r.edge h))) :
    Inside w h (s.atRow h r) :=
  ⟨hr, fun _ => Side.not_beyond_edge hs.h_pos _ _⟩

theorem Scope.inside_atColumn (hk : ∀ r : Side, ¬ r.Beyond h (s.rowNear (k.edge w))) :
    Inside w h (s.atColumn w k) :=
  ⟨fun _ => Side.not_beyond_edge hs.w_pos _ _, hk⟩

/-- The meeting point with a row side is beyond a column side of the other end only. -/
theorem Scope.apart_atRow (hk : k.Beyond w (s.columnNear (r.edge h))) (hq : ¬ k.Beyond w q.1) :
    Apart w h (s.atRow h r) q := by
  refine ⟨fun k' hk' => ?_, fun r' hr' => absurd hr' (Side.not_beyond_edge hs.h_pos _ _)⟩
  rw [hk'.unique hs.w_pos hk]
  exact hq

variable (hj : s.Joins p q)
include hj

/-- Any point beyond a row side that is beyond one end only moves to that side. -/
theorem Scope.moves_row (hp : r.Beyond h p.2) (hq : ¬ r.Beyond h q.2) (hu : r.Beyond h u.2) :
    s.crossing w h (Sides.of w h u) = .ok (s.atRow h r) := by
  have hle : h.natAbs ≤ 2 ^ 32 := by
    have h₁ := hs.h_pos
    have h₂ := hs.h_le
    omega
  rw [crossing_row hu hs.h_pos, hj.columnAt_eq hs.near hle hp hq]
  rfl

/-- Any point beyond a column side only that is beyond one end only moves to that side. -/
theorem Scope.moves_column (hp : k.Beyond w p.1) (hq : ¬ k.Beyond w q.1)
    (hrow : ∀ r : Side, ¬ r.Beyond h u.2) (hu : k.Beyond w u.1) :
    s.crossing w h (Sides.of w h u) = .ok (s.atColumn w k) := by
  have hle : w.natAbs ≤ 2 ^ 32 := by
    have h₁ := hs.w_pos
    have h₂ := hs.w_le
    omega
  rw [crossing_column hrow hu hs.w_pos, hj.rowAt_eq hs.near hle hp hq]
  rfl

/-- A first end that is not barred at a corner meets its row side in the box, if the line is beyond
that side where it meets the other one. -/
theorem Scope.inside_of_corner (hb : ¬ Barred s w h p q) (hc : AtCorner w h r k p q)
    (hr : r.Beyond h (s.rowNear (k.edge w))) : Inside w h (s.atRow h r) := by
  refine hs.inside_atRow (fun k' hk' => hb (Or.inl ⟨r, hc.1, k', hk', Or.inl ?_⟩))
  have he := Side.not_opposite_of_excess hs.w_pos ((hj.corner hc).2 hr)
  have heq : k' = k := by
    by_contra hne
    rw [Side.eq_opposite hne] at hk'
    exact he hk'
  rw [heq]
  exact hc.2.2.1

/-- From a column side beyond which only the second end lies, it arrives by at most one move. -/
theorem Scope.column_leads (hb : ¬ Barred s w h p q) (hkp : ¬ k.Beyond w p.1)
    (hkq : k.Beyond w q.1)
    (hcross : ∀ t : Side, t.Beyond h (s.rowNear (k.edge w)) → ¬ t.Beyond h q.2) :
    ∃ n q', n ≤ 1 ∧ Leads s w h n (s.atColumn w k) q' := by
  by_cases hrow : ∃ t : Side, t.Beyond h (s.rowNear (k.edge w))
  · obtain ⟨t, ht⟩ := hrow
    -- the line passes the box on the far side and enters it only there
    have htq := hcross t ht
    have htp := (hj.symm.row_between hkq hkp ht).resolve_left htq
    have hout : ¬ Inside w h (s.atColumn w k) := fun hin => hin.2 t ht
    have hmove := hs.moves_row (u := s.atColumn w k) hj htp htq ht
    have hin := hs.inside_of_corner hj hb ⟨htp, hkp, hkq, htq⟩ ht
    exact ⟨1, _, Nat.le_refl 1, .move hout hmove (.inside hin)⟩
  · have hin := hs.inside_atColumn (fun t ht => hrow ⟨t, ht⟩)
    exact ⟨0, _, Nat.zero_le 1, .inside hin⟩

variable (ha : Apart w h p q)
include ha

/-- A first end that is not barred arrives. -/
theorem Scope.first_leads (hb : ¬ Barred s w h p q) :
    ∃ n p', n ≤ 2 ∧ Leads s w h n p p' ∧ ∀ m, s.trim w h (m + n) p q = s.trim w h m p' q := by
  -- it moves to a row side first, if it is beyond one, and from there to a column side
  by_cases hrow : ∃ r : Side, r.Beyond h p.2
  · obtain ⟨r, hr⟩ := hrow
    have hout : ¬ Inside w h p := fun hp => hp.2 r hr
    have hmove := hs.moves_row hj hr (ha.row r hr) hr
    by_cases hcol : ∃ k : Side, k.Beyond w (s.columnNear (r.edge h))
    · obtain ⟨k, hk⟩ := hcol
      have hq : ¬ k.Beyond w q.1 := fun hq => hb (Or.inl ⟨r, hr, k, hk, Or.inl hq⟩)
      have hp : k.Beyond w p.1 := (hj.column_between hr (ha.row r hr) hk).resolve_right hq
      have hmove' := hs.moves_column (u := s.atRow h r) hj hp hq
        (fun r' => Side.not_beyond_edge hs.h_pos r r') hk
      have hout' : ¬ Inside w h (s.atRow h r) := fun hin => hin.1 k hk
      have hin : Inside w h (s.atColumn w k) :=
        hs.inside_atColumn (fun t ht => hb (Or.inl ⟨r, hr, k, hk, Or.inr ⟨t, ht⟩⟩))
      refine ⟨2, _, Nat.le_refl 2, .move hout hmove (.move hout' hmove' (.inside hin)), fun m => ?_⟩
      rw [trim_first hout ha hmove, trim_first hout' (hs.apart_atRow hk hq) hmove']
    · have hin : Inside w h (s.atRow h r) := hs.inside_atRow (fun k hk => hcol ⟨k, hk⟩)
      refine ⟨1, _, by decide, .move hout hmove (.inside hin), fun m => ?_⟩
      rw [trim_first hout ha hmove]
  · have hrows : ∀ r : Side, ¬ r.Beyond h p.2 := fun r hr => hrow ⟨r, hr⟩
    by_cases hcol : ∃ k : Side, k.Beyond w p.1
    · obtain ⟨k, hk⟩ := hcol
      have hout : ¬ Inside w h p := fun hp => hp.1 k hk
      have hmove := hs.moves_column hj hk (ha.column k hk) hrows hk
      have hin : Inside w h (s.atColumn w k) :=
        hs.inside_atColumn (fun t ht => hb (Or.inr ⟨hrows, k, hk, t, ht⟩))
      refine ⟨1, _, by decide, .move hout hmove (.inside hin), fun m => ?_⟩
      rw [trim_first hout ha hmove]
    · refine ⟨0, p, by decide, .inside ⟨fun k hk => hcol ⟨k, hk⟩, hrows⟩, fun m => rfl⟩

/-- A first end that is barred shows that the line misses the box. -/
theorem Scope.trim_of_barred (hb : Barred s w h p q) (n : Nat) :
    s.trim w h (n + 3) p q = .ok none := by
  rcases hb with ⟨r, hr, k, hk, hmiss⟩ | ⟨hrows, k, hk, t, ht⟩
  · have hout : ¬ Inside w h p := fun hp => hp.2 r hr
    rw [trim_first hout ha (hs.moves_row hj hr (ha.row r hr) hr)]
    by_cases hq : k.Beyond w q.1
    · exact trim_of_not_apart (fun h' => h'.column k hk hq) _
    · obtain ⟨t, ht⟩ := hmiss.resolve_left hq
      have hp : k.Beyond w p.1 := (hj.column_between hr (ha.row r hr) hk).resolve_right hq
      have hmove := hs.moves_column (u := s.atRow h r) hj hp hq
        (fun r' => Side.not_beyond_edge hs.h_pos r r') hk
      have hout' : ¬ Inside w h (s.atRow h r) := fun hin => hin.1 k hk
      rw [trim_first hout' (hs.apart_atRow hk hq) hmove]
      -- the line has passed side `r`, so it is beyond the other one, like the second end
      have htp : ¬ t.Beyond h p.2 := by
        intro htp
        rw [htp.unique hs.h_pos hr] at ht
        exact hj.outer hr hp (ha.row r hr) hq hk ht
      have htq := (hj.row_between hp hq ht).resolve_left htp
      exact trim_of_not_apart (fun h' => h'.row t ht htq) _
  · have hout : ¬ Inside w h p := fun hp => hp.1 k hk
    rw [trim_first hout ha (hs.moves_column hj hk (ha.column k hk) hrows hk)]
    have htq := (hj.row_between hk (ha.column k hk) ht).resolve_left (hrows t)
    exact trim_of_not_apart (fun h' => h'.row t ht htq) _

/-! The way of the second end. -/

/-- The second end arrives if the first one does. -/
theorem Scope.second_leads (hb : ¬ Barred s w h p q) : ∃ n q', n ≤ 3 ∧ Leads s w h n q q' := by
  by_cases hrow : ∃ r : Side, r.Beyond h q.2
  · obtain ⟨r, hr⟩ := hrow
    have hrp : ¬ r.Beyond h p.2 := ha.symm.row r hr
    have hout : ¬ Inside w h q := fun hq => hq.2 r hr
    have hmove := hs.moves_row hj.symm hr hrp hr
    by_cases hcol : ∃ k : Side, k.Beyond w (s.columnNear (r.edge h))
    · obtain ⟨k, hk⟩ := hcol
      have hout' : ¬ Inside w h (s.atRow h r) := fun hin => hin.1 k hk
      have hedge : ∀ r' : Side, ¬ r'.Beyond h (s.atRow h r).2 :=
        fun r' => Side.not_beyond_edge hs.h_pos r r'
      by_cases hkp : k.Beyond w p.1
      · -- the line comes around the corner from the first end, which was not barred there
        have hkq := ha.column k hkp
        have hmove' := hs.moves_column (u := s.atRow h r) hj hkp hkq hedge hk
        have hin : Inside w h (s.atColumn w k) := by
          refine hs.inside_atColumn (fun t ht => hb ?_)
          by_cases hpr : ∃ r' : Side, r'.Beyond h p.2
          · obtain ⟨r', hr'⟩ := hpr
            have hne : r' ≠ r := fun he => hrp (he ▸ hr')
            rw [Side.eq_opposite hne] at hr'
            have hfar := hj.symm.far hs.h_pos ⟨hr, hkq, hkp, hrp⟩ hr' hk
            exact Or.inl ⟨_, hr', k, hfar, Or.inr ⟨t, ht⟩⟩
          · exact Or.inr ⟨fun r' hr' => hpr ⟨r', hr'⟩, k, hkp, t, ht⟩
        exact ⟨2, _, by decide, .move hout hmove (.move hout' hmove' (.inside hin))⟩
      · have hkq := (hj.symm.column_between hr hrp hk).resolve_right hkp
        have hmove' := hs.moves_column hj.symm hkq hkp hedge hk
        have hcross : ∀ t : Side, t.Beyond h (s.rowNear (k.edge w)) → ¬ t.Beyond h q.2 := by
          intro t ht htq
          rw [htq.unique hs.h_pos hr] at ht
          exact hj.symm.outer hr hkq hrp hkp hk ht
        obtain ⟨n, q', hn, hleads⟩ := hs.column_leads hj hb hkp hkq hcross
        exact ⟨n + 2, q', by omega, .move hout hmove (.move hout' hmove' hleads)⟩
    · have hin := hs.inside_atRow (fun k hk => hcol ⟨k, hk⟩)
      exact ⟨1, _, by decide, .move hout hmove (.inside hin)⟩
  · have hrows : ∀ r : Side, ¬ r.Beyond h q.2 := fun r hr => hrow ⟨r, hr⟩
    by_cases hcol : ∃ k : Side, k.Beyond w q.1
    · obtain ⟨k, hk⟩ := hcol
      have hkp : ¬ k.Beyond w p.1 := ha.symm.column k hk
      have hout : ¬ Inside w h q := fun hq => hq.1 k hk
      have hmove := hs.moves_column hj.symm hk hkp hrows hk
      obtain ⟨n, q', hn, hleads⟩ := hs.column_leads hj hb hkp hk (fun t _ => hrows t)
      exact ⟨n + 1, q', by omega, .move hout hmove hleads⟩
    · exact ⟨0, q, by decide, .inside ⟨fun k hk => hcol ⟨k, hk⟩, hrows⟩⟩

/-- Both ends arrive if the first one is not barred. -/
theorem Scope.trim_of_not_barred (hb : ¬ Barred s w h p q) :
    ∃ p' q', (∃ n, Leads s w h n p p') ∧ (∃ n, Leads s w h n q q') ∧
      s.trim w h 16 p q = .ok (some ⟨p'.1, p'.2, q'.1, q'.2⟩) := by
  obtain ⟨n, p', hn, hp, htrim⟩ := hs.first_leads hj ha hb
  obtain ⟨m, q', hm, hq⟩ := hs.second_leads hj ha hb
  refine ⟨p', q', ⟨n, hp⟩, ⟨m, hq⟩, ?_⟩
  obtain ⟨rest, hrest⟩ : ∃ rest, 16 = rest + 1 + m + n := ⟨15 - m - n, by omega⟩
  rw [hrest, htrim, hq.trim_second hp.isInside, trim_inside hp.isInside hq.isInside]

end Ends

/-! Grazed corners. -/

/-- The line grazes the corner between row side `r` and column side `k`, beyond which the ends `p` and
`q` lie: one of them is barred and the other is not. With `p` first the line misses the box if it is
beyond `k` where it meets `r`. With `q` first it does if it is beyond `r` where it meets `k`, unless
`q` has come over the far row side and entered there. -/
def GrazesAt (s : Segment) (w h : Int) (r k : Side) (p q : Int × Int) : Prop :=
  AtCorner w h r k p q ∧
    ¬ (k.Beyond w (s.columnNear (r.edge h)) ↔
      r.Beyond h (s.rowNear (k.edge w)) ∧
        ¬ (r.opposite.Beyond h q.2 ∧ ¬ k.Beyond w (s.columnNear (r.opposite.edge h))))

/-- A row side other than `r` beyond which the second end lies is the far one. -/
theorem far_side (hc : AtCorner w h r k p q) {r' : Side} (hr' : r'.Beyond h q.2) :
    r' = r.opposite :=
  Side.eq_opposite (fun he => hc.2.2.2 (he ▸ hr'))

/-- A second end that is beyond `r` where the line meets `k` is barred if it goes first, unless it has
entered over the far row side. -/
theorem barred_of_beyond (hc : AtCorner w h r k p q)
    (hr : r.Beyond h (s.rowNear (k.edge w)))
    (hfar : ¬ (r.opposite.Beyond h q.2 ∧ ¬ k.Beyond w (s.columnNear (r.opposite.edge h)))) :
    Barred s w h q p := by
  by_cases hrow : ∃ r' : Side, r'.Beyond h q.2
  · obtain ⟨r', hr'⟩ := hrow
    obtain rfl := far_side hc hr'
    have hk : k.Beyond w (s.columnNear (r.opposite.edge h)) := by
      by_contra hk
      exact hfar ⟨hr', hk⟩
    exact Or.inl ⟨_, hr', k, hk, Or.inr ⟨r, hr⟩⟩
  · exact Or.inr ⟨fun r' hr' => hrow ⟨r', hr'⟩, k, hc.2.2.1, r, hr⟩

section Corner
variable (hs : s.Scope w h)
include hs

theorem Scope.apart_of_corner (hc : AtCorner w h r k p q) : Apart w h p q := by
  obtain ⟨hrp, hkp, hkq, hrq⟩ := hc
  constructor
  · intro k' hp hq
    rw [hq.unique hs.w_pos hkq] at hp
    exact hkp hp
  · intro r' hp hq
    rw [hp.unique hs.h_pos hrp] at hq
    exact hrq hq

theorem Scope.cornerPoint_inside (r k : Side) : Inside w h (cornerPoint w h r k) :=
  ⟨fun _ => Side.not_beyond_edge hs.w_pos _ _, fun _ => Side.not_beyond_edge hs.h_pos _ _⟩

variable (hj : s.Joins p q)
include hj

/-- A line that is beyond `k` where it meets `r`, and in the corner where it meets `k`: it misses the
box with the first end first only, and both ends are led to the corner. -/
theorem Scope.graze_column (hc : AtCorner w h r k p q)
    (hk : k.Beyond w (s.columnNear (r.edge h))) (hr : ¬ r.Beyond h (s.rowNear (k.edge w))) :
    (Barred s w h p q ∧ ¬ Barred s w h q p) ∧ (∃ n, Leads s w h n p (cornerPoint w h r k)) ∧
      ∃ n, Leads s w h n q (cornerPoint w h r k) := by
  have ⟨hrp, hkp, hkq, hrq⟩ := hc
  have hrow : s.rowNear (k.edge w) = r.edge h := Side.eq_edge hr ((hj.corner hc).1 hk)
  have hpoint : s.atColumn w k = cornerPoint w h r k := by rw [atColumn, hrow, cornerPoint]
  have hin : Leads s w h 0 (s.atColumn w k) (cornerPoint w h r k) := by
    rw [hpoint]
    exact .inside (hs.cornerPoint_inside r k)
  -- from any row side where the line is beyond `k` the corner is one move away
  have hstep : ∀ t : Side, k.Beyond w (s.columnNear (t.edge h)) →
      Leads s w h 1 (s.atRow h t) (cornerPoint w h r k) := by
    intro t ht
    have hmove := hs.moves_column (u := s.atRow h t) hj.symm hkq hkp
      (fun r' => Side.not_beyond_edge hs.h_pos t r') ht
    exact .move (fun hi => hi.1 k ht) hmove hin
  refine ⟨⟨Or.inl ⟨r, hrp, k, hk, Or.inl hkq⟩, ?_⟩, ?_, ?_⟩
  · intro hb
    rcases hb with ⟨r', hr', k', hk', hmiss⟩ | ⟨hrows, k', hk', t, ht⟩
    · obtain rfl := far_side hc hr'
      have hfar := hj.far hs.h_pos hc hr' hk
      rw [hk'.unique hs.w_pos hfar, hrow] at hmiss
      rcases hmiss with hp | ⟨t, ht⟩
      · exact hkp hp
      · exact Side.not_beyond_edge hs.h_pos _ _ ht
    · rw [hk'.unique hs.w_pos hkq, hrow] at ht
      exact Side.not_beyond_edge hs.h_pos _ _ ht
  · exact ⟨2, .move (fun hi => hi.2 r hrp) (hs.moves_row hj hrp hrq hrp) (hstep r hk)⟩
  · by_cases hrow' : ∃ r' : Side, r'.Beyond h q.2
    · obtain ⟨r', hr'⟩ := hrow'
      obtain rfl := far_side hc hr'
      have hmove := hs.moves_row hj.symm hr' (hrp.not_opposite hs.h_pos) hr'
      exact ⟨2, .move (fun hi => hi.2 _ hr') hmove (hstep _ (hj.far hs.h_pos hc hr' hk))⟩
    · have hmove := hs.moves_column hj.symm hkq hkp (fun r' hr' => hrow' ⟨r', hr'⟩) hkq
      exact ⟨1, .move (fun hi => hi.1 k hkq) hmove hin⟩

/-- A line that is beyond `r` where it meets `k`, and in the corner where it meets `r`: it misses the
box with the second end first only, and both ends are led to the corner. -/
theorem Scope.graze_row (hc : AtCorner w h r k p q)
    (hr : r.Beyond h (s.rowNear (k.edge w))) (hk : ¬ k.Beyond w (s.columnNear (r.edge h)))
    (hfar : ¬ (r.opposite.Beyond h q.2 ∧ ¬ k.Beyond w (s.columnNear (r.opposite.edge h)))) :
    (¬ Barred s w h p q ∧ Barred s w h q p) ∧ (∃ n, Leads s w h n p (cornerPoint w h r k)) ∧
      ∃ n, Leads s w h n q (cornerPoint w h r k) := by
  have ⟨hrp, hkp, hkq, hrq⟩ := hc
  have hcolumn : s.columnNear (r.edge h) = k.edge w := Side.eq_edge hk ((hj.corner hc).2 hr)
  have hpoint : s.atRow h r = cornerPoint w h r k := by rw [atRow, hcolumn, cornerPoint]
  have hin : Leads s w h 0 (s.atRow h r) (cornerPoint w h r k) := by
    rw [hpoint]
    exact .inside (hs.cornerPoint_inside r k)
  have hstep : Leads s w h 1 (s.atColumn w k) (cornerPoint w h r k) :=
    .move (fun hi => hi.2 r hr) (hs.moves_row (u := s.atColumn w k) hj hrp hrq hr) hin
  refine ⟨⟨?_, barred_of_beyond hc hr hfar⟩, ?_, ?_⟩
  · intro hb
    rcases hb with ⟨r', hr', k', hk', -⟩ | ⟨hrows, -⟩
    · rw [hr'.unique hs.h_pos hrp, hcolumn] at hk'
      exact Side.not_beyond_edge hs.w_pos _ _ hk'
    · exact hrows r hrp
  · exact ⟨1, .move (fun hi => hi.2 r hrp) (hs.moves_row hj hrp hrq hrp) hin⟩
  · by_cases hrow : ∃ r' : Side, r'.Beyond h q.2
    · obtain ⟨r', hr'⟩ := hrow
      obtain rfl := far_side hc hr'
      have hk' : k.Beyond w (s.columnNear (r.opposite.edge h)) := by
        by_contra hk'
        exact hfar ⟨hr', hk'⟩
      have hmove := hs.moves_row hj.symm hr' (hrp.not_opposite hs.h_pos) hr'
      have hmove' := hs.moves_column (u := s.atRow h r.opposite) hj.symm hkq hkp
        (fun t => Side.not_beyond_edge hs.h_pos _ t) hk'
      exact ⟨3, .move (fun hi => hi.2 _ hr') hmove (.move (fun hi => hi.1 k hk') hmove' hstep)⟩
    · have hmove := hs.moves_column hj.symm hkq hkp (fun r' hr' => hrow ⟨r', hr'⟩) hkq
      exact ⟨2, .move (fun hi => hi.1 k hkq) hmove hstep⟩

/-- Just one end of a line that grazes a corner is barred, and both are led to the corner. -/
theorem Scope.graze (hg : GrazesAt s w h r k p q) :
    (Barred s w h p q ∧ ¬ Barred s w h q p ∨ ¬ Barred s w h p q ∧ Barred s w h q p) ∧
      (∃ n, Leads s w h n p (cornerPoint w h r k)) ∧
      ∃ n, Leads s w h n q (cornerPoint w h r k) := by
  obtain ⟨hc, hdiffer⟩ := hg
  by_cases hk : k.Beyond w (s.columnNear (r.edge h))
  · have hr : ¬ r.Beyond h (s.rowNear (k.edge w)) := by
      intro hr
      refine hdiffer ⟨fun _ => ⟨hr, ?_⟩, fun _ => hk⟩
      intro hfar
      exact hfar.2 (hj.far hs.h_pos hc hfar.1 hk)
    obtain ⟨hb, hleads⟩ := hs.graze_column hj hc hk hr
    exact ⟨Or.inl hb, hleads⟩
  · have hr : r.Beyond h (s.rowNear (k.edge w)) ∧
        ¬ (r.opposite.Beyond h q.2 ∧ ¬ k.Beyond w (s.columnNear (r.opposite.edge h))) := by
      by_contra hr
      exact hdiffer ⟨fun h' => absurd h' hk, fun h' => absurd h' hr⟩
    obtain ⟨hb, hleads⟩ := hs.graze_row hj hc hr.1 hk hr.2
    exact ⟨Or.inr hb, hleads⟩

/-- A line of which just the first end is barred grazes a corner. -/
theorem Scope.grazes_of_barred (ha : Apart w h p q) (hb : Barred s w h p q)
    (hb' : ¬ Barred s w h q p) : ∃ r k, GrazesAt s w h r k p q ∨ GrazesAt s w h r k q p := by
  -- a corner that the line passes with `q` beyond its row side and `p` beyond its column side
  have hbeyond : ∀ t k : Side, AtCorner w h t k q p → t.Beyond h (s.rowNear (k.edge w)) →
      ¬ (t.opposite.Beyond h p.2 ∧ ¬ k.Beyond w (s.columnNear (t.opposite.edge h))) →
      GrazesAt s w h t k q p := by
    intro t k hc ht hfar
    refine ⟨hc, fun hiff => hb' ?_⟩
    have hk := hiff.2 ⟨ht, hfar⟩
    exact Or.inl ⟨t, hc.1, k, hk, Or.inl hc.2.2.1⟩
  rcases hb with ⟨r, hr, k, hk, hmiss⟩ | ⟨hrows, k, hkp, t, ht⟩
  · have hrq := ha.row r hr
    by_cases hkq : k.Beyond w q.1
    · have hc : AtCorner w h r k p q := ⟨hr, ha.symm.column k hkq, hkq, hrq⟩
      refine ⟨r, k, Or.inl ⟨hc, fun hiff => hb' ?_⟩⟩
      obtain ⟨ht, hfar⟩ := hiff.1 hk
      exact barred_of_beyond hc ht hfar
    · have hkp := (hj.column_between hr hrq hk).resolve_right hkq
      obtain ⟨t, ht⟩ := hmiss.resolve_left hkq
      have hne : r ≠ t := fun he => hj.outer hr hkp hrq hkq hk (he ▸ ht)
      have htp : ¬ t.Beyond h p.2 := fun htp => hne (hr.unique hs.h_pos htp)
      have htq := (hj.row_between hkp hkq ht).resolve_left htp
      refine ⟨t, k, Or.inr (hbeyond t k ⟨htq, hkq, hkp, htp⟩ ht ?_)⟩
      rw [← Side.eq_opposite hne]
      exact fun hfar => hfar.2 hk
  · have hkq := ha.column k hkp
    have htq := (hj.row_between hkp hkq ht).resolve_left (hrows t)
    exact ⟨t, k, Or.inr (hbeyond t k ⟨htq, hkq, hkp, hrows t⟩ ht (fun hfar => hrows _ hfar.1))⟩

end Corner

/-! Both orders of the ends. -/

/-- The line grazes the corner of the box in the pixel `x`, `y`. -/
def Grazes (s : Segment) (w h x y : Int) : Prop :=
  0 < w ∧ 0 < h ∧ ∃ r k : Side, (x, y) = cornerPoint w h r k ∧
    (GrazesAt s w h r k (s.x0, s.y0) (s.x1, s.y1) ∨ GrazesAt s w h r k (s.x1, s.y1) (s.x0, s.y0))

theorem Scope.crossing_swap (hs : s.Scope w h) (sides : Sides) :
    s.swap.crossing w h sides = s.crossing w h sides := by
  have h₁ := hs.w_pos
  have h₂ := hs.h_pos
  have h₃ := hs.w_le
  have h₄ := hs.h_le
  simp only [crossing, hs.near.columnAt_swap (show (h - 1).natAbs ≤ 2 ^ 33 by omega),
    hs.near.columnAt_swap (show (0 : Int).natAbs ≤ 2 ^ 33 by decide),
    hs.near.rowAt_swap (show (w - 1).natAbs ≤ 2 ^ 33 by omega),
    hs.near.rowAt_swap (show (0 : Int).natAbs ≤ 2 ^ 33 by decide)]

theorem Scope.trim_swap (hs : s.Scope w h) (n : Nat) (p q : Int × Int) :
    s.swap.trim w h n p q = s.trim w h n p q := by
  induction n generalizing p q with
  | zero => rfl
  | succ n ih => simp only [trim, hs.crossing_swap, ih]

theorem Scope.clip_eq (hs : s.Scope w h) :
    s.clip w h = s.trim w h 16 (s.x0, s.y0) (s.x1, s.y1) ∧
      s.swap.clip w h = s.trim w h 16 (s.x1, s.y1) (s.x0, s.y0) := by
  have h₁ := hs.w_pos
  have h₂ := hs.h_pos
  have hne : ¬ (w = 0 ∨ h = 0) := by omega
  rw [clip, clip, if_neg hne, if_neg hne, hs.trim_swap]
  exact ⟨rfl, rfl⟩

/-- The ends of the line are inside the box. -/
def Within (t : Segment) (w h : Int) : Prop := Inside w h (t.x0, t.y0) ∧ Inside w h (t.x1, t.y1)

/-- One order of the ends finds nothing of a line that grazes a corner, the other one its pixel. -/
theorem Near.clip_of_grazes {x y : Int} (hs : s.Near) (hw : w ≤ 0x7fffffff) (hh : h ≤ 0x7fffffff)
    (hg : s.Grazes w h x y) : Within ⟨x, y, x, y⟩ w h ∧
      (s.clip w h = .ok none ∧ s.swap.clip w h = .ok (some ⟨x, y, x, y⟩) ∨
        s.clip w h = .ok (some ⟨x, y, x, y⟩) ∧ s.swap.clip w h = .ok none) := by
  obtain ⟨hw0, hh0, r, k, hxy, hg⟩ := hg
  have hscope : s.Scope w h := ⟨hs, hw0, hh0, hw, hh⟩
  have hj : s.Joins (s.x0, s.y0) (s.x1, s.y1) := Or.inl ⟨rfl, rfl⟩
  have hin : Inside w h (x, y) := hxy ▸ hscope.cornerPoint_inside r k
  refine ⟨⟨hin, hin⟩, ?_⟩
  -- both ends are led to the corner, if the first one is not barred
  have hfind : ∀ p q, s.Joins p q → Apart w h p q → (∃ n, Leads s w h n p (x, y)) →
      (∃ n, Leads s w h n q (x, y)) → ¬ Barred s w h p q →
      s.trim w h 16 p q = .ok (some ⟨x, y, x, y⟩) := by
    intro p q hj ha hp hq hb
    obtain ⟨n, hp⟩ := hp
    obtain ⟨m, hq⟩ := hq
    obtain ⟨p', q', ⟨_, hp'⟩, ⟨_, hq'⟩, htrim⟩ := hscope.trim_of_not_barred hj ha hb
    rw [htrim, ← hp.unique hp', ← hq.unique hq']
  rw [hscope.clip_eq.1, hscope.clip_eq.2]
  rcases hg with hg | hg
  · have ha := hscope.apart_of_corner hg.1
    obtain ⟨hb, hp, hq⟩ := hscope.graze hj hg
    rw [← hxy] at hp hq
    rcases hb with ⟨hb, hb'⟩ | ⟨hb, hb'⟩
    · exact Or.inl ⟨hscope.trim_of_barred hj ha hb 13, hfind _ _ hj.symm ha.symm hq hp hb'⟩
    · exact Or.inr ⟨hfind _ _ hj ha hp hq hb, hscope.trim_of_barred hj.symm ha.symm hb' 13⟩
  · have ha := hscope.apart_of_corner hg.1
    obtain ⟨hb, hp, hq⟩ := hscope.graze hj.symm hg
    rw [← hxy] at hp hq
    rcases hb with ⟨hb, hb'⟩ | ⟨hb, hb'⟩
    · exact Or.inr ⟨hfind _ _ hj ha.symm hq hp hb', hscope.trim_of_barred hj.symm ha hb 13⟩
    · exact Or.inl ⟨hscope.trim_of_barred hj ha.symm hb' 13, hfind _ _ hj.symm ha hp hq hb⟩

/-- A line grazes one pixel at most. -/
theorem Near.grazes_unique {x y x' y' : Int} (hs : s.Near) (hw : w ≤ 0x7fffffff)
    (hh : h ≤ 0x7fffffff) (hg : s.Grazes w h x y) (hg' : s.Grazes w h x' y') : x = x' ∧ y = y' := by
  obtain ⟨-, hc⟩ := hs.clip_of_grazes hw hh hg
  obtain ⟨-, hc'⟩ := hs.clip_of_grazes hw hh hg'
  rcases hc with ⟨h₁, h₂⟩ | ⟨h₁, h₂⟩ <;> rcases hc' with ⟨h₃, h₄⟩ | ⟨h₃, h₄⟩
  · rw [h₂] at h₄
    cases h₄
    exact ⟨rfl, rfl⟩
  · rw [h₁] at h₃
    cases h₃
  · rw [h₁] at h₃
    cases h₃
  · rw [h₁] at h₃
    cases h₃
    exact ⟨rfl, rfl⟩

/-- The ends of a line that grazes no corner are barred both or none. -/
theorem Scope.barred_comm (hs : s.Scope w h) (ha : Apart w h (s.x0, s.y0) (s.x1, s.y1))
    (hg : ∀ x y, ¬ s.Grazes w h x y) :
    Barred s w h (s.x0, s.y0) (s.x1, s.y1) ↔ Barred s w h (s.x1, s.y1) (s.x0, s.y0) := by
  have hj : s.Joins (s.x0, s.y0) (s.x1, s.y1) := Or.inl ⟨rfl, rfl⟩
  constructor
  · intro hb
    by_contra hb'
    obtain ⟨r, k, hg'⟩ := hs.grazes_of_barred hj ha hb hb'
    exact hg _ _ ⟨hs.w_pos, hs.h_pos, r, k, rfl, hg'⟩
  · intro hb
    by_contra hb'
    obtain ⟨r, k, hg'⟩ := hs.grazes_of_barred hj.symm ha.symm hb hb'
    exact hg _ _ ⟨hs.w_pos, hs.h_pos, r, k, rfl, hg'.symm⟩

/-- Clipping always answers, and what it finds lies in the box. -/
theorem Near.clip_within (hs : s.Near) (hw0 : 0 ≤ w) (hh0 : 0 ≤ h) (hw : w ≤ 0x7fffffff)
    (hh : h ≤ 0x7fffffff) : Yields (s.clip w h) (fun o => ∀ t ∈ o, t.Within w h) := by
  by_cases hempty : w = 0 ∨ h = 0
  · refine ⟨none, if_pos hempty, ?_⟩
    simp
  have hscope : s.Scope w h := ⟨hs, by omega, by omega, hw, hh⟩
  have hj : s.Joins (s.x0, s.y0) (s.x1, s.y1) := Or.inl ⟨rfl, rfl⟩
  rw [hscope.clip_eq.1]
  by_cases ha : Apart w h (s.x0, s.y0) (s.x1, s.y1)
  · by_cases hb : Barred s w h (s.x0, s.y0) (s.x1, s.y1)
    · refine ⟨none, hscope.trim_of_barred hj ha hb 13, ?_⟩
      simp
    · obtain ⟨p, q, ⟨_, hp⟩, ⟨_, hq⟩, htrim⟩ := hscope.trim_of_not_barred hj ha hb
      refine ⟨_, htrim, ?_⟩
      intro t ht
      cases ht
      exact ⟨hp.isInside, hq.isInside⟩
  · refine ⟨none, trim_of_not_apart ha 15, ?_⟩
    simp

/-- Both orders of the ends find the same part of a line that grazes no corner. -/
theorem Near.clip_swap (hs : s.Near) (hw0 : 0 ≤ w) (hh0 : 0 ≤ h) (hw : w ≤ 0x7fffffff)
    (hh : h ≤ 0x7fffffff) (hg : ∀ x y, ¬ s.Grazes w h x y) :
    ∃ o, s.clip w h = .ok o ∧ s.swap.clip w h = .ok (o.map Segment.swap) ∧ ∀ t ∈ o, t.Within w h := by
  by_cases hempty : w = 0 ∨ h = 0
  · refine ⟨none, if_pos hempty, if_pos hempty, ?_⟩
    simp
  have hscope : s.Scope w h := ⟨hs, by omega, by omega, hw, hh⟩
  have hj : s.Joins (s.x0, s.y0) (s.x1, s.y1) := Or.inl ⟨rfl, rfl⟩
  rw [hscope.clip_eq.1, hscope.clip_eq.2]
  by_cases ha : Apart w h (s.x0, s.y0) (s.x1, s.y1)
  · have hsame := hscope.barred_comm ha hg
    by_cases hb : Barred s w h (s.x0, s.y0) (s.x1, s.y1)
    · refine ⟨none, hscope.trim_of_barred hj ha hb 13, ?_, by simp⟩
      exact hscope.trim_of_barred hj.symm ha.symm (hsame.1 hb) 13
    · have hb' := fun hb' => hb (hsame.2 hb')
      obtain ⟨p, q, ⟨_, hp⟩, ⟨_, hq⟩, htrim⟩ := hscope.trim_of_not_barred hj ha hb
      obtain ⟨q', p', ⟨_, hq'⟩, ⟨_, hp'⟩, htrim'⟩ := hscope.trim_of_not_barred hj.symm ha.symm hb'
      refine ⟨_, htrim, ?_, ?_⟩
      · rw [htrim', hp'.unique hp, hq'.unique hq]
        rfl
      · intro t ht
        cases ht
        exact ⟨hp.isInside, hq.isInside⟩
  · have ha' : ¬ Apart w h (s.x1, s.y1) (s.x0, s.y0) := fun ha' => ha ha'.symm
    refine ⟨none, trim_of_not_apart ha 15, trim_of_not_apart ha' 15, ?_⟩
    simp

end Raster.Segment
