import Raster.Proofs.CircleShape

/- Filled circles row by row. For a radius that is not zero the rows of the disc reach from
   the leftmost to the rightmost point of the rim (`disc_iff_inRows`), so that the filled
   circle is the filled outline. For radius zero the outline is one point, but the filled
   circle is a dash of three pixels along a row of the buffer (`Addressable.dot_paints`).
   So the two agree just where the ends of the dash change nothing
   (`fillCircle_rows_iff`). -/
namespace Raster

/-- The points of the outline of a circle, for every radius. -/
def Outline (r : Nat) (dx dy : Int) : Prop := if r = 0 then dx = 0 ∧ dy = 0 else Rim r dx dy

instance (r : Nat) (dx dy : Int) : Decidable (Outline r dx dy) := by
  unfold Outline; infer_instance

/-- The point lies on its row between two points of `S`, or on one of them. -/
def InRows (S : Int → Int → Prop) (x y : Int) : Prop :=
  (∃ x', x' ≤ x ∧ S x' y) ∧ ∃ x', x ≤ x' ∧ S x' y

/-- The offset is one column of the buffer at most. -/
def Dash (o : Orientation) (dx dy : Int) : Prop :=
  (o.exchange (dx, dy)).1.natAbs ≤ 1 ∧ (o.exchange (dx, dy)).2 = 0

instance (o : Orientation) (dx dy : Int) : Decidable (Dash o dx dy) :=
  inferInstanceAs (Decidable (_ ∧ _))

section Rows
variable {r : Nat} {dx dy : Int}

/-- From a point of the disc the rim is reached in either direction of its row. -/
theorem Disc.exists_rim (h : Disc r dx dy) {step : Int} (hstep : step = 1 ∨ step = -1) :
    ∃ k : Nat, Rim r (dx + step * k) dy := by
  by_contra hnone
  have hall : ∀ k : Nat, Disc r (dx + step * k) dy := by
    intro k
    induction k with
    | zero => simpa using h
    | succ k ih =>
      -- the point before is no point of the rim, so this neighbour lies inside as well
      by_contra hout
      have hnext : dx + step * (k + 1 : Nat) = dx + step * k + step := by
        rw [Nat.cast_succ, Int.mul_add, Int.mul_one, Int.add_assoc]
      rw [hnext] at hout
      refine hnone ⟨k, ih, fun hin => hout ?_⟩
      rcases hstep with rfl | rfl
      · exact hin.1
      · exact hin.2.1
  have hfar := (hall (r + dx.natAbs + 1)).natAbs_le.1
  rcases hstep with rfl | rfl <;> omega

/-- A row of the disc has no gap. -/
theorem Disc.between {x₀ x₁ : Int} (h₀ : Disc r x₀ dy) (h₁ : Disc r x₁ dy) (hx₀ : x₀ ≤ dx)
    (hx₁ : dx ≤ x₁) : Disc r dx dy := by
  unfold Disc at *
  rcases Int.le_total 0 dx with hpos | hneg
  · have hsquare : dx * dx ≤ x₁ * x₁ := Int.mul_le_mul hx₁ hx₁ hpos (by omega)
    omega
  · have hsquare : -dx * -dx ≤ -x₀ * -x₀ := Int.mul_le_mul (by omega) (by omega) (by omega) (by omega)
    rw [Int.neg_mul_neg, Int.neg_mul_neg] at hsquare
    omega

theorem disc_iff_inRows : Disc r dx dy ↔ InRows (Rim r) dx dy := by
  constructor
  · intro h
    obtain ⟨k, hk⟩ := h.exists_rim (Or.inr rfl)
    obtain ⟨m, hm⟩ := h.exists_rim (Or.inl rfl)
    exact ⟨⟨_, by omega, hk⟩, _, by omega, hm⟩
  · rintro ⟨⟨x₀, hx₀, h₀⟩, x₁, hx₁, h₁⟩
    exact h₀.1.between h₁.1 hx₀ hx₁

theorem disc_iff_inOutline (hr : r ≠ 0) : Disc r dx dy ↔ InRows (Outline r) dx dy := by
  rw [disc_iff_inRows]
  simp only [InRows, Outline, if_neg hr]

/-- The rows of a point are the point. -/
theorem inRows_outline_zero : InRows (Outline 0) dx dy ↔ dx = 0 ∧ dy = 0 := by
  simp only [InRows, Outline, if_true]
  constructor
  · rintro ⟨⟨x₀, h₀, rfl, hy⟩, x₁, h₁, rfl, -⟩
    exact ⟨by omega, hy⟩
  · rintro ⟨rfl, rfl⟩
    exact ⟨⟨0, Int.le_refl 0, rfl, rfl⟩, 0, Int.le_refl 0, rfl, rfl⟩

theorem inRows_shift (S : Int → Int → Prop) (x y x' y' : Int) :
    InRows (fun x y => S (x - x') (y - y')) x y ↔ InRows S (x - x') (y - y') := by
  have hback : ∀ d : Int, S d (y - y') → S (d + x' - x') (y - y') := by
    intro d h
    rwa [Int.add_sub_cancel]
  constructor
  · rintro ⟨⟨x₀, h₀, hS₀⟩, x₁, h₁, hS₁⟩
    exact ⟨⟨x₀ - x', by omega, hS₀⟩, x₁ - x', by omega, hS₁⟩
  · rintro ⟨⟨d₀, h₀, hS₀⟩, d₁, h₁, hS₁⟩
    exact ⟨⟨d₀ + x', by omega, hback d₀ hS₀⟩, d₁ + x', by omega, hback d₁ hS₁⟩

end Rows

namespace Frame
variable {f : Frame} {b : Bytes}

/-- A circle of radius zero is a point. -/
theorem Addressable.point_paints (hf : f.Addressable b.size) (c : Point) (v : Pixel) :
    Yields (f.circle c 0 v b) (f.Paints (fun x y => x = (f.toRaw c.x.toInt c.y.toInt).1 ∧
      y = (f.toRaw c.x.toInt c.y.toInt).2) (fun _ _ => f.stored v) b) := by
  rw [circle, rawPoint_point, ok_bind]
  exact hf.writeClipped_paints _ _ v

/-- A filled circle of radius zero sets its center and the pixels beside it, if the center lies in the
frame. -/
theorem Addressable.dot_paints (hf : f.Addressable b.size) (c : Point) (v : Pixel) :
    Yields (f.fillCircle c 0 v b) (f.Paints (fun x y =>
      f.Contains (f.toRaw c.x.toInt c.y.toInt).1 (f.toRaw c.x.toInt c.y.toInt).2 ∧
        (x - (f.toRaw c.x.toInt c.y.toInt).1).natAbs ≤ 1 ∧ y - (f.toRaw c.x.toInt c.y.toInt).2 = 0)
      (fun _ _ => f.stored v) b) := by
  rw [fillCircle, rawPoint_point, ok_bind]
  show Yields (f.disc (f.toRaw c.x.toInt c.y.toInt).1 (f.toRaw c.x.toInt c.y.toInt).2 0 v b) _
  generalize (f.toRaw c.x.toInt c.y.toInt).1 = xc, (f.toRaw c.x.toInt c.y.toInt).2 = yc
  have hmiss : f.misses xc yc (0 : Nat) (0 : Nat) = true ↔ ¬ f.Contains xc yc := by
    simp only [misses, Bool.or_eq_true, decide_eq_true_eq, Contains]
    omega
  unfold disc
  by_cases hc : f.Contains xc yc
  · rw [if_neg (fun h => hmiss.1 h hc)]
    -- no step is taken, so that the half width falls to minus one
    have hrun : circleWalk.run (f.insideVisitor xc yc v) 0 (-((0 : Nat) : Int)) b =
        f.plotRows xc yc v (-1) 0 b >>= Except.ok := by
      simp [QuadrantWalk.run, QuadrantWalk.rows, QuadrantWalk.advance, insideVisitor, circleWalk,
        Bounds.check, Bounds.Holds, Bounds.int64]
    rw [hrun]
    apply (hf.plotRows_paints v xc yc (-1) 0).bind
    intro d hpaint
    refine Yields.ok (hpaint.area (fun x y _ => ?_))
    rw [and_iff_right hc]
    omega
  · rw [if_pos (hmiss.2 hc)]
    exact Yields.ok (Paints.none (fun x y _ hin => hc hin.1))

theorem dash_toRaw (f : Frame) (x y x' y' : Int) :
    (((f.toRaw x y).1 - (f.toRaw x' y').1).natAbs ≤ 1 ∧ (f.toRaw x y).2 - (f.toRaw x' y').2 = 0) ↔
      Dash f.orientation (x - x') (y - y') := by
  obtain ⟨hx, hy⟩ := f.natAbs_toRaw_sub x y x' y'
  rw [← Int.natAbs_eq_zero, hx, hy, Dash, Orientation.exchange]
  split <;> simp only [Int.natAbs_eq_zero]

end Frame

namespace Pixmap
variable {p : Pixmap}

theorem Addressable.circle_outline (hp : p.Addressable) (s : Space) (c : Point) (r : Int32)
    (v : Pixel) : Yields (p.draw s fun f b => f.circle c r v b) (p.Colours s (fun x y =>
      Outline r.toInt.natAbs (x - c.x.toInt) (y - c.y.toInt)) v) := by
  have hf : (p.toFrame.seen s).Addressable p.bytes.size := Frame.Addressable.seen hp s
  by_cases hr : r = 0
  · subst hr
    have hpaint := hf.point_paints c v
    refine hp.draw_colours hpaint (fun x y _ => ?_)
    rw [← Prod.mk.injEq, Prod.mk.eta, Prod.mk.eta, Frame.toRaw_inj]
    show x = c.x.toInt ∧ y = c.y.toInt ↔ x - c.x.toInt = 0 ∧ y - c.y.toInt = 0
    omega
  · refine hp.draw_colours (hf.circle_paints c hr v) (fun x y _ => ?_)
    rw [Frame.rim_toRaw, Outline, if_neg (Frame.natAbs_toInt_ne_zero hr)]

/-- The filled circle of radius zero. -/
theorem Addressable.fillCircle_dot (hp : p.Addressable) (s : Space) (c : Point) (v : Pixel) :
    Yields (p.draw s fun f b => f.fillCircle c 0 v b) (p.Colours s (fun x y =>
      p.Holds s c.x.toInt c.y.toInt ∧
        Dash (p.toFrame.seen s).orientation (x - c.x.toInt) (y - c.y.toInt)) v) := by
  have hf : (p.toFrame.seen s).Addressable p.bytes.size := Frame.Addressable.seen hp s
  refine hp.draw_colours (hf.dot_paints c v) (fun x y _ => ?_)
  rw [Frame.contains_toRaw, Frame.dash_toRaw]
  rfl

/-- A filled circle sets just the rows between the points of the outline, which a circle sets. Only
for radius zero it sets the pixels beside the center as well, which must have its colour before. -/
theorem fillCircle_rows_iff (hp : p.Addressable) (s : Space) (c : Point) (r : Int32) (v : Pixel) :
    Yields (p.draw s fun f b => f.circle c r v b) (p.Colours s (fun x y =>
        Outline r.toInt.natAbs (x - c.x.toInt) (y - c.y.toInt)) v) ∧
      Yields (p.draw s fun f b => f.fillCircle c r v b) (fun q =>
        p.Colours s (InRows fun x y => Outline r.toInt.natAbs (x - c.x.toInt) (y - c.y.toInt)) v q ↔
          (r = 0 → p.Holds s c.x.toInt c.y.toInt → ∀ t : Point, p.Holds s t.x.toInt t.y.toInt →
            Dash (p.toFrame.seen s).orientation (t.x.toInt - c.x.toInt) (t.y.toInt - c.y.toInt) →
              t ≠ c → (p.seen s).get t = .ok (UInt32.ofNat (v.toNat % 2 ^ p.bpp)))) := by
  refine ⟨hp.circle_outline s c r v, ?_⟩
  have hf : (p.toFrame.seen s).Addressable p.bytes.size := Frame.Addressable.seen hp s
  by_cases hr : r = 0
  · subst hr
    have hpoint : ∀ x y, InRows (fun x y => Outline (0 : Int32).toInt.natAbs (x - c.x.toInt)
        (y - c.y.toInt)) x y ↔ x = c.x.toInt ∧ y = c.y.toInt := by
      intro x y
      rw [inRows_shift]
      refine inRows_outline_zero.trans ?_
      omega
    apply (hp.fillCircle_dot s c v).mono
    intro q hq
    rw [hq.part_iff]
    · constructor
      · intro hrest _ hc t ht hdash hne
        refine hrest t ht ⟨hc, hdash⟩ (fun hin => hne ?_)
        obtain ⟨hx, hy⟩ := (hpoint _ _).1 hin
        exact Point.ext_toInt hx hy
      · intro hrest t ht hin hout
        refine hrest rfl hin.1 t ht hin.2 (fun he => hout ?_)
        rw [he, hpoint]
        exact ⟨rfl, rfl⟩
    · intro x y hxy hin
      obtain ⟨rfl, rfl⟩ := (hpoint x y).1 hin
      refine ⟨hxy, ?_⟩
      rw [Int.sub_self, Int.sub_self, Dash, Orientation.exchange]
      split <;> exact ⟨by decide, rfl⟩
  · have hcolours : Yields (p.draw s fun f b => f.fillCircle c r v b) (p.Colours s
        (InRows fun x y => Outline r.toInt.natAbs (x - c.x.toInt) (y - c.y.toInt)) v) := by
      refine hp.draw_colours (hf.fillCircle_paints c hr v) (fun x y _ => ?_)
      rw [Frame.disc_toRaw, inRows_shift]
      exact disc_iff_inOutline (Frame.natAbs_toInt_ne_zero hr)
    apply hcolours.mono
    intro q hq
    exact ⟨fun _ h => absurd h hr, fun _ => hq⟩

/-- The filled circle of radius zero in the middle of 5 by 5 pixels is wider than the circle. -/
theorem fillCircle_rows_dash : ∃ p q : Pixmap, p.Addressable ∧
    (p.draw .user fun f b => f.fillCircle ⟨2, 2⟩ 0 1 b) = .ok q ∧
      ¬ p.Colours .user (InRows fun x y => Outline (0 : Int32).toInt.natAbs (x - 2) (y - 2)) 1 q := by
  let p : Pixmap := ⟨⟨0, 5, 5, 5, 0, .g8, .identity, none⟩, Array.replicate 25 0⟩
  have hp : p.Addressable := by
    refine ⟨⟨?_, ?_, ?_, ?_, ?_, ?_, ?_⟩, ?_, ?_⟩ <;> decide
  obtain ⟨-, q, hq, hiff⟩ := fillCircle_rows_iff hp .user ⟨2, 2⟩ 0 1
  refine ⟨p, q, hp, hq, fun hcolours => ?_⟩
  have hset := hiff.1 hcolours rfl (by decide) ⟨1, 2⟩ (by decide) (by decide) (by decide)
  exact absurd hset (by decide)

end Pixmap

end Raster
