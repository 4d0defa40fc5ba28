import Mathlib.Tactic.SplitIfs
import Raster.Proofs.ExactFloat
import Raster.Proofs.Rectangles

/- Rectangles as polygons. The edges of a box are level or upright. Of an upright edge the
   column is computed in double precision without an error, but a half is added before it is
   taken toward zero: on columns before the first one this is the next column
   (`columnAt_upright`). So the polygon through the corners of a box fills the box, and
   where the box ends right before the first column, that column as well
   (`fillPolygon_box_iff`). -/
namespace Raster

open Raster.Decimal.Numeral (Within)
open Raster.Double

/-! Upright edges. -/

/-- The column on which an upright edge at column `x` is filled. -/
def uprightColumn (x : Int) : Int := if 0 ≤ x then x else x + 1

namespace Edge

/-- The edge at column `x` between two rows. -/
def upright (x top bottom : Int) : Edge := ⟨x, top, bottom, 0, bottom - top⟩

section Upright
variable {x top bottom y : Int}

theorem between?_level (last : Int) {p q : Int × Int} (h : p.2 = q.2) : between? last p q = none :=
  if_pos h

/-- An upright edge counts on all its rows if it ends on the last row. -/
theorem between?_upright (x : Int) {y y' : Int} (h : y ≠ y') :
    between? (max y y') (x, y) (x, y') = some (upright x (min y y') (max y y')) := by
  unfold between?
  rw [if_neg h]
  by_cases hlt : y < y'
  · simp only [hlt, if_true, max_eq_right hlt.le, min_eq_left hlt.le, Int.sub_self]
    rfl
  · have hle : y' ≤ y := not_lt.1 hlt
    simp only [hlt, if_false, max_eq_left hle, min_eq_right hle, Int.sub_self]
    rfl

/-- Wherever the row is taken, the column has no error. -/
theorem columnAt_upright (hx : x.natAbs < 2 ^ 51) (hrows : top ≠ bottom)
    (hsize : (bottom - top).natAbs < 2 ^ 53) {E : Int} {t : Float} (ht : Within E t.toModel.unpack) :
    (upright x top bottom).columnAt t = uprightColumn x := by
  have hzero : (Float.ofInt 0).toModel.unpack = .zero .positive := unpack_ofInt (by decide)
  obtain ⟨s, hproduct⟩ := unpack_zero_mul hzero ht
  obtain ⟨s', hquotient⟩ := unpack_zero_div hproduct (show bottom - top ≠ 0 by omega) (unpack_ofInt hsize)
  have hcolumn := unpack_add_zero (unpack_ofInt (show x.natAbs < 2 ^ 53 by omega)) (by omega) hquotient
  exact truncate_half (unpack_add_half hcolumn hx) hx

/-- On each of its rows an upright edge covers one column. -/
theorem span?_upright (hx : x.natAbs < 2 ^ 51) (hrows : top ≠ bottom)
    (hsize : (bottom - top).natAbs < 2 ^ 53) (htop : top ≤ y) (hbottom : y ≤ bottom) :
    (upright x top bottom).span? y = some ⟨uprightColumn x, uprightColumn x⟩ := by
  obtain ⟨hbefore, hafter⟩ := within_shifted (unpack_ofInt (show (y - top).natAbs < 2 ^ 53 by omega))
    (by omega)
  unfold span?
  rw [if_neg (show ¬ (y < (upright x top bottom).top ∨ (upright x top bottom).bottom < y) from by
    show ¬ (y < top ∨ bottom < y)
    omega)]
  simp only [show (upright x top bottom).top = top from rfl, columnAt_upright hx hrows hsize hbefore,
    columnAt_upright hx hrows hsize hafter, Int.min_self, Int.max_self]

end Upright
end Edge

/-! The polygon through the corners of a box. -/

/-- The corners between `p` and `q` in turn, first along a column where the axes are swapped. -/
def boxCorners (swap : Bool) (p q : Int × Int) : List (Int × Int) :=
  if swap then [p, (p.1, q.2), q, (q.1, p.2)] else [p, (q.1, p.2), q, (p.1, q.2)]

/-- The corners of a box of the user are those of a raw box, in the turn of the user. -/
theorem Orientation.toRaw_corners (o : Orientation) (w h x y x' y' : Int) :
    [o.toRaw w h x y, o.toRaw w h x' y, o.toRaw w h x' y', o.toRaw w h x y'] =
      boxCorners o.swapAxes (o.toRaw w h x y) (o.toRaw w h x' y') := by
  obtain ⟨swap, mx, my⟩ := o
  cases swap <;> rfl

/-- The pixels of the first column beside a box of several rows that ends right before it. -/
def Spills (p q : Int × Int) (x y : Int) : Prop :=
  max p.1 q.1 = -1 ∧ p.2 ≠ q.2 ∧ x = 0 ∧ min p.2 q.2 ≤ y ∧ y ≤ max p.2 q.2

instance (p q : Int × Int) (x y : Int) : Decidable (Spills p q x y) :=
  inferInstanceAs (Decidable (_ ∧ _ ∧ _ ∧ _ ∧ _))

section Corners
variable (swap : Bool) (p q : Int × Int)

theorem neighbours_boxCorners : neighbours (boxCorners swap p q) =
    if swap then [((q.1, p.2), p), (p, (p.1, q.2)), ((p.1, q.2), q), (q, (q.1, p.2))]
    else [((p.1, q.2), p), (p, (q.1, p.2)), ((q.1, p.2), q), (q, (p.1, q.2))] := by
  cases swap <;> rfl

/-- In either turn the edges that count are the one at the first and the one at the second column. -/
theorem ofPoints_boxCorners : Edge.ofPoints (boxCorners swap p q) (max p.2 q.2) =
    if p.2 = q.2 then []
    else [.upright p.1 (min p.2 q.2) (max p.2 q.2), .upright q.1 (min p.2 q.2) (max p.2 q.2)] := by
  obtain ⟨x, y⟩ := p
  obtain ⟨x', y'⟩ := q
  have hlevel : ∀ x x' y last, Edge.between? last (x, y) (x', y) = none :=
    fun _ _ _ last => Edge.between?_level last rfl
  rw [Edge.ofPoints, neighbours_boxCorners]
  dsimp only
  by_cases hrows : y = y'
  · subst hrows
    cases swap <;> simp only [Bool.false_eq_true, if_false, if_true, List.filterMap_cons,
      List.filterMap_nil, hlevel]
  · have hdown : ∀ x, Edge.between? (max y y') (x, y) (x, y') =
        some (.upright x (min y y') (max y y')) := fun x => Edge.between?_upright x hrows
    have hup : ∀ x, Edge.between? (max y y') (x, y') (x, y) =
        some (.upright x (min y y') (max y y')) := by
      intro x
      rw [max_comm, min_comm]
      exact Edge.between?_upright x (Ne.symm hrows)
    cases swap <;> simp only [Bool.false_eq_true, if_false, if_true, if_neg hrows,
      List.filterMap_cons, List.filterMap_nil, hlevel, hdown, hup]

/-- The level edges are the first and the last row of the box. -/
theorem level_boxCorners (x y : Int) :
    (∃ e ∈ neighbours (boxCorners swap p q), e.2.2 = e.1.2 ∧ InBox e.2 e.1 x y) ↔
      InBox p q x y ∧ (y = p.2 ∨ y = q.2) := by
  rw [neighbours_boxCorners]
  cases swap <;>
    simp only [Bool.false_eq_true, if_false, if_true, List.mem_cons, List.not_mem_nil, or_false,
      exists_eq_or_imp, exists_eq_left, true_and, InBox] <;> omega

end Corners

/-- In the frame the columns between both sides are those of the box, but for the first column. -/
theorem between_uprightColumn {a a' x : Int} (hx : 0 ≤ x) :
    (min (uprightColumn a) (uprightColumn a') ≤ x ∧ x ≤ max (uprightColumn a) (uprightColumn a')) ↔
      (min a a' ≤ x ∧ x ≤ max a a') ∨ (max a a' = -1 ∧ x = 0) := by
  unfold uprightColumn
  split_ifs <;> omega

/-- A row of a box that is taken for a polygon has the column of either side once. -/
theorem rowSpans_boxCorners (swap : Bool) {p q : Int × Int} {y : Int} (hrows : p.2 ≠ q.2)
    (hp : p.1.natAbs ≤ 2 ^ 33 ∧ p.2.natAbs ≤ 2 ^ 33) (hq : q.1.natAbs ≤ 2 ^ 33 ∧ q.2.natAbs ≤ 2 ^ 33)
    (htop : min p.2 q.2 ≤ y) (hbottom : y ≤ max p.2 q.2) :
    rowSpans (Edge.ofPoints (boxCorners swap p q) (max p.2 q.2)) y =
      Span.sort [⟨uprightColumn p.1, uprightColumn p.1⟩, ⟨uprightColumn q.1, uprightColumn q.1⟩] := by
  have hspan : ∀ x : Int, x.natAbs ≤ 2 ^ 33 →
      (Edge.upright x (min p.2 q.2) (max p.2 q.2)).span? y =
        some ⟨uprightColumn x, uprightColumn x⟩ :=
    fun x hx => Edge.span?_upright (by omega) (by omega) (by omega) htop hbottom
  simp only [rowSpans, ofPoints_boxCorners, if_neg hrows, List.filterMap_cons, List.filterMap_nil,
    hspan p.1 hp.1, hspan q.1 hq.1]

/-- Of two spans the one that begins further left comes first. -/
theorem Span.sort_pair (s t : Span) :
    Span.sort [s, t] = if s.left ≤ t.left then [s, t] else [t, s] := by
  rw [sort, List.mergeSort]
  simp [List.merge]

namespace Frame
variable {f : Frame} {b : Bytes}

/-- The rows of the polygon are those of the box. -/
theorem inside_boxCorners (f : Frame) (swap : Bool) (p q : Int × Int) (v : Pixel) (b : Bytes) :
    f.inside (boxCorners swap p q) v b = (f.levelEdges (boxCorners swap p q) v b >>= fun b =>
      forRange (max (min p.2 q.2) 0) (min (max p.2 q.2) (f.height.toNat - 1) + 1) b fun y b =>
        f.fillPairs y v (rowSpans (Edge.ofPoints (boxCorners swap p q) (max p.2 q.2)) y) b) := by
  have hrange : rowRange p (boxCorners swap p q).tail = (min p.2 q.2, max p.2 q.2) := by
    cases swap <;> simp only [boxCorners, Bool.false_eq_true, if_false, if_true, List.tail_cons,
      rowRange, List.foldl_cons, List.foldl_nil, Prod.mk.injEq] <;> omega
  have hunfold : f.inside (boxCorners swap p q) v b = (f.levelEdges (boxCorners swap p q) v b >>= fun b =>
      forRange (max (rowRange p (boxCorners swap p q).tail).1 0)
        (min (rowRange p (boxCorners swap p q).tail).2 (f.height.toNat - 1) + 1) b fun y b =>
          f.fillPairs y v (rowSpans (Edge.ofPoints (boxCorners swap p q)
            (rowRange p (boxCorners swap p q).tail).2) y) b) := by
    cases swap <;> rfl
  rw [hunfold, hrange]

/-- The raw corners of a box of the user, in the turn of the user. -/
theorem rawPoints_box (f : Frame) (c c' : Point) :
    f.rawPoints [c, ⟨c'.x, c.y⟩, c', ⟨c.x, c'.y⟩] = .ok (boxCorners f.orientation.swapAxes
      (f.toRaw c.x.toInt c.y.toInt) (f.toRaw c'.x.toInt c'.y.toInt)) := by
  have hraw : f.rawPoints [c, ⟨c'.x, c.y⟩, c', ⟨c.x, c'.y⟩] = .ok [f.toRaw c.x.toInt c.y.toInt,
      f.toRaw c'.x.toInt c.y.toInt, f.toRaw c'.x.toInt c'.y.toInt, f.toRaw c.x.toInt c'.y.toInt] := by
    simp only [rawPoints, List.mapM_cons, List.mapM_nil, rawPoint_point, ok_bind, pure_eq_ok]
  rw [hraw]
  exact congrArg Except.ok (f.orientation.toRaw_corners _ _ _ _ _ _)

section Addressable
variable (hf : f.Addressable b.size) (v : Pixel)
include hf

/-- The level edges of any polygon are painted with both ends. -/
theorem Addressable.levelEdges_paints (ps : List (Int × Int)) :
    Yields (f.levelEdges ps v b)
      (f.Paints (fun x y => ∃ e ∈ neighbours ps, e.2.2 = e.1.2 ∧ InBox e.2 e.1 x y)
        (fun _ _ => f.stored v) b) := by
  refine Paints.foldlM (fun (e : (Int × Int) × Int × Int) x y => e.2.2 = e.1.2 ∧ InBox e.2 e.1 x y) _
    (fun (p, q) _ c hc => ?_)
  have hf' : f.Addressable c.size := hc ▸ hf
  dsimp only
  split_ifs with hlevel
  · refine (hf'.spanRow_paints_box v (p := q) (q := p) hlevel.symm).mono
      (fun d hd => hd.area (fun x y _ => ?_))
    simp only [hlevel, true_and]
  · exact Yields.ok (Paints.none (fun _ _ _ h => hlevel h.1))

/-- Between two columns a row is filled in either order of them. -/
theorem Addressable.fillPairs_paints (y c c' : Int) :
    Yields (f.fillPairs y v (Span.sort [⟨c, c⟩, ⟨c', c'⟩]) b)
      (f.Paints (InBox (c, y) (c', y)) (fun _ _ => f.stored v) b) := by
  have hfill : ∀ {s t : Int}, Yields (f.fillPairs y v [⟨s, s⟩, ⟨t, t⟩] b)
      (f.Paints (InBox (s, y) (t, y)) (fun _ _ => f.stored v) b) := by
    intro s t
    refine Yields.bind (hf.spanRow_paints_box v (p := (s, y)) (q := (t, y)) rfl) (fun d hd => ?_)
    exact Yields.ok hd
  rw [Span.sort_pair]
  split_ifs
  · exact hfill
  · refine (hfill (s := c') (t := c)).mono (fun d hd => hd.area (fun x' y' _ => ?_))
    simp only [InBox]
    omega

/-- The polygon through the corners of a box paints the box and what it spills. -/
theorem Addressable.inside_paints_box (swap : Bool) {p q : Int × Int}
    (hp : p.1.natAbs ≤ 2 ^ 33 ∧ p.2.natAbs ≤ 2 ^ 33) (hq : q.1.natAbs ≤ 2 ^ 33 ∧ q.2.natAbs ≤ 2 ^ 33) :
    Yields (f.inside (boxCorners swap p q) v b)
      (f.Paints (fun x y => InBox p q x y ∨ Spills p q x y) (fun _ _ => f.stored v) b) := by
  rw [inside_boxCorners]
  refine Yields.bind (hf.levelEdges_paints v _) (fun c hc => ?_)
  have hf' : f.Addressable c.size := hc.keeps.size_eq ▸ hf
  -- row `y` of the loop is filled between the columns of both sides, if there are any
  have hrow : ∀ y d, max (min p.2 q.2) 0 ≤ y → y < min (max p.2 q.2) (f.height.toNat - 1) + 1 →
      d.size = c.size →
      Yields (f.fillPairs y v (rowSpans (Edge.ofPoints (boxCorners swap p q) (max p.2 q.2)) y) d)
        (f.Paints (fun x' y' => p.2 ≠ q.2 ∧
          InBox (uprightColumn p.1, y) (uprightColumn q.1, y) x' y') (fun _ _ => f.stored v) d) := by
    intro y d hlo hhi hd
    by_cases hrows : p.2 = q.2
    · have hnone : rowSpans [] y = [] := List.mergeSort_nil
      rw [ofPoints_boxCorners, if_pos hrows, hnone]
      exact Yields.ok (Paints.none (fun _ _ _ h => h.1 hrows))
    · rw [rowSpans_boxCorners swap hrows hp hq (by omega) (by omega)]
      refine ((hd ▸ hf' : f.Addressable d.size).fillPairs_paints v y _ _).mono
        (fun d' hd' => hd'.area (fun x' y' _ => ?_))
      exact (and_iff_right hrows).symm
  refine (Paints.forRange _ hrow).mono (fun d hd => (hc.trans hd).area (fun x y hin => ?_))
  obtain ⟨hx, hy, -, hh⟩ := hin
  have hrows : (∃ i, max (min p.2 q.2) 0 ≤ i ∧ i < min (max p.2 q.2) (f.height.toNat - 1) + 1 ∧
      p.2 ≠ q.2 ∧ InBox (uprightColumn p.1, i) (uprightColumn q.1, i) x y) ↔
        p.2 ≠ q.2 ∧ (min p.2 q.2 ≤ y ∧ y ≤ max p.2 q.2) ∧
          ((min p.1 q.1 ≤ x ∧ x ≤ max p.1 q.1) ∨ (max p.1 q.1 = -1 ∧ x = 0)) := by
    rw [← between_uprightColumn hx]
    simp only [InBox]
    constructor
    · rintro ⟨i, hlo, hhi, hne, hbox⟩
      omega
    · intro h
      exact ⟨y, by omega⟩
  rw [level_boxCorners, hrows]
  simp only [InBox, Spills]
  omega

/-- The polygon through the corners of a box of the user, and the box. -/
theorem Addressable.fillPolygon_box (c c' : Point) :
    ∃ d e, f.fillPolygon [c, ⟨c'.x, c.y⟩, c', ⟨c.x, c'.y⟩] v b = .ok d ∧ f.fillRect c c' v b = .ok e ∧
      (d = e ↔ ∀ x y, f.Contains x y →
        Spills (f.toRaw c.x.toInt c.y.toInt) (f.toRaw c'.x.toInt c'.y.toInt) x y →
          f.pixel b x y = f.stored v) := by
  have hnear : ∀ n : Int32, n.toInt.natAbs ≤ 2 ^ 62 := fun n => (natAbs_add_le n 0).1
  obtain ⟨d, hd, hpolygon⟩ := hf.inside_paints_box v f.orientation.swapAxes (f.natAbs_toRaw_le c)
    (f.natAbs_toRaw_le c')
  obtain ⟨e, he, hbox⟩ := byCorners_paints v (hnear c.x) (hnear c.y) (hnear c'.x) (hnear c'.y)
    (hf.box_paints v)
  refine ⟨d, e, ?_, he, ?_⟩
  · rw [fillPolygon, rawPoints_box, ok_bind]
    exact hd
  · rw [hpolygon.eq_part_iff hf.toValid hbox]
    refine forall₂_congr (fun x y => forall_congr' (fun _ => forall_congr' (fun hspills => ?_)))
    -- what is spilled lies beside the box
    have hbeside : ¬ InBox (f.toRaw c.x.toInt c.y.toInt) (f.toRaw c'.x.toInt c'.y.toInt) x y := by
      obtain ⟨hright, -, rfl, -, -⟩ := hspills
      simp only [InBox]
      omega
    exact forall_prop_of_true hbeside

end Addressable
end Frame

namespace Pixmap

/-- In either space the polygon through the corners of a box and the box are always filled. They leave
the same buffer, unless the box ends right before the first column of the buffer, over several rows, and a
pixel of this column in its rows has another value. -/
theorem fillPolygon_box_iff {p : Pixmap} (hp : p.Addressable) (s : Space) (c c' : Point) (v : Pixel) :
    ∃ q r, (p.draw s fun f b => f.fillPolygon [c, ⟨c'.x, c.y⟩, c', ⟨c.x, c'.y⟩] v b) = .ok q ∧
      (p.draw s fun f b => f.fillRect c c' v b) = .ok r ∧
      (q.bytes = r.bytes ↔ ∀ x y, p.Contains x y →
        Spills ((p.toFrame.seen s).toRaw c.x.toInt c.y.toInt)
          ((p.toFrame.seen s).toRaw c'.x.toInt c'.y.toInt) x y → p.pixel p.bytes x y = p.stored v) := by
  obtain ⟨d, e, hd, he, hiff⟩ := (Frame.Addressable.seen hp s).fillPolygon_box v c c'
  refine ⟨{ p with bytes := d }, { p with bytes := e }, p.draw_ok hd, p.draw_ok he, ?_⟩
  cases s with
  | user => exact hiff
  | raw => exact hiff

/-- The box from (-5, 0) to (-1, 2) lies beside 4 by 4 pixels, the polygon sets three of them. -/
theorem fillPolygon_box_spills : ∃ p q r : Pixmap, p.Addressable ∧
    (p.draw .user fun f b => f.fillPolygon [⟨-5, 0⟩, ⟨-1, 0⟩, ⟨-1, 2⟩, ⟨-5, 2⟩] 255 b) = .ok q ∧
      (p.draw .user fun f b => f.fillRect ⟨-5, 0⟩ ⟨-1, 2⟩ 255 b) = .ok r ∧ q.bytes ≠ r.bytes := by
  let p : Pixmap := ⟨⟨0, 4, 4, 4, 0, .g8, .identity, none⟩, Array.replicate 16 0⟩
  have hp : p.Addressable := by
    refine ⟨⟨?_, ?_, ?_, ?_, ?_, ?_, ?_⟩, ?_, ?_⟩ <;> decide
  obtain ⟨q, r, hq, hr, hiff⟩ := fillPolygon_box_iff hp .user ⟨-5, 0⟩ ⟨-1, 2⟩ 255
  refine ⟨p, q, r, hp, hq, hr, fun hsame => ?_⟩
  have hstored : p.pixel p.bytes 0 1 ≠ p.stored 255 := by decide
  exact hstored (hiff.1 hsame 0 1 (by decide) (by decide))

end Pixmap

end Raster
