import Mathlib.Algebra.Group.Nat.Even
import Mathlib.Tactic.SplitIfs
import Raster.Proofs.Inks

/- Rows of a polygon have their spans in pairs. Row `y` has two sides, the points up to the
   row and those below it; on the last row of the polygon the points on the row count as
   below (`sideRow`). With its end shortened as it is, an edge reaches the row just if its
   ends lie on different sides (`between?_reaches`), level edges never. A path changes sides
   an even number of times just if it ends on the side where it started
   (`even_changes_iff`), and the points of a polygon are a path from the last one to itself;
   so the edges that reach a row are even in number, wherever the points lie
   (`even_reaching`). Hence nothing is left over when the spans of a row are taken two by two
   (`rowSpans_paired`). -/
namespace Raster

/-! Sides of a row. -/

section Changes
variable {α : Type} (side : α → Bool)

/-- The neighbours lie on different sides. -/
def changes (e : α × α) : Bool := side e.1 != side e.2

/-- A path from `a` along `l` changes sides an even number of times just if it ends on the side of
`a`. -/
theorem even_changes_iff (a : α) (l : List α) :
    Even (((a :: l).zip l).countP (changes side)) ↔ side a = side (l.getLastD a) := by
  induction l generalizing a with
  | nil => simp
  | cons b l ih =>
    rw [List.zip_cons_cons, List.countP_cons, List.getLastD_cons]
    by_cases h : side a = side b
    · have hstays : changes side (a, b) = false := by simp [changes, h]
      rw [hstays, h]
      simpa using ih b
    · have hchanges : changes side (a, b) = true := by simp [changes, h]
      rw [hchanges, if_pos rfl, Nat.even_add_one, ih b]
      -- there are two sides
      cases ha : side a <;> cases hb : side b <;> simp_all

theorem even_changes (ps : List α) : Even ((neighbours ps).countP (changes side)) := by
  unfold neighbours
  split
  · next p hlast =>
    rw [even_changes_iff, List.getLastD_eq_getLast?, hlast]
    rfl
  · exact Even.zero

end Changes

/-- The last row of the points that count as above row `y`, in a polygon that ends on row `last`. -/
def sideRow (last y : Int) : Int := if y = last then last - 1 else y

/-- The point counts as above row `y`. -/
def isAbove (last y : Int) (p : Int × Int) : Bool := decide (p.2 ≤ sideRow last y)

namespace Edge
variable {last y : Int} {p q : Int × Int}

theorem isSome_span? (e : Edge) (y : Int) : (e.span? y).isSome = decide (e.top ≤ y ∧ y ≤ e.bottom) := by
  unfold span?
  by_cases h : y < e.top ∨ e.bottom < y
  · rw [if_pos h, decide_eq_false (by omega)]
    rfl
  · rw [if_neg h, decide_eq_true (by omega)]
    rfl

/-- An edge reaches row `y` just if one end counts as above the row and the other does not. -/
theorem between?_reaches (hp : p.2 ≤ last) (hq : q.2 ≤ last) :
    ((between? last p q).map fun e => (e.span? y).isSome).getD false =
      changes (isAbove last y) (p, q) := by
  unfold between?
  by_cases hlevel : p.2 = q.2
  · simp [hlevel, changes, isAbove]
  · rw [if_neg hlevel, Bool.eq_iff_iff]
    simp only [Option.map_some, Option.getD_some, isSome_span?, changes, isAbove, decide_eq_true_eq,
      bne_iff_ne, ne_eq, decide_eq_decide]
    -- the upper end is the point that is further up
    by_cases hdown : p.2 < q.2
    · simp only [hdown, if_true, sideRow]
      split_ifs <;> omega
    · simp only [hdown, if_false, sideRow]
      split_ifs <;> omega

/-- The edges of a polygon that reach row `y` are even in number, if no point lies below row `last`. -/
theorem even_reaching {ps : List (Int × Int)} (hlast : ∀ p ∈ ps, p.2 ≤ last) (y : Int) :
    Even ((ofPoints ps last).countP fun e => (e.span? y).isSome) := by
  have hcount : (ofPoints ps last).countP (fun e => (e.span? y).isSome) =
      (neighbours ps).countP (changes (isAbove last y)) := by
    rw [ofPoints, List.countP_filterMap]
    apply List.countP_congr
    rintro ⟨p, q⟩ hpq
    obtain ⟨hp, hq⟩ := Frame.mem_of_neighbours hpq
    rw [← between?_reaches (hlast p hp) (hlast q hq)]
  rw [hcount]
  exact even_changes _ ps

/-- Four edges of a diamond end on its middle row, and the lower two count there. -/
example : (ofPoints [(2, 0), (4, 2), (2, 4), (0, 2)] 4).countP (fun e => (e.span? 2).isSome) = 2 := by
  decide

end Edge

/-! Spans two by two. -/

namespace Span
variable {l : List Span}

/-- The first span with the second one, the third with the fourth and so on. -/
def pairs : List Span → List (Span × Span)
  | s :: t :: rest => (s, t) :: pairs rest
  | _ => []

/-- No span of an even number is left over. -/
theorem pairs_flatMap (h : Even l.length) : (pairs l).flatMap (fun (s, t) => [s, t]) = l := by
  fun_induction pairs l with
  | case1 s t rest ih =>
    have hrest : Even rest.length := by
      simpa [Nat.even_add_one] using h
    rw [List.flatMap_cons, ih hrest]
    rfl
  | case2 l hshort =>
    cases l with
    | nil => rfl
    | cons s rest =>
      cases rest with
      | nil => simp at h
      | cons t rest => exact absurd rfl (hshort s t rest)

end Span

namespace Frame

/-- A row is filled from the first span to the second one of each pair. -/
theorem fillPairs_flatMap (f : Frame) (y : Int) (v : Pixel) (runs : List (Span × Span)) (b : Bytes) :
    f.fillPairs y v (runs.flatMap fun (s, t) => [s, t]) b =
      runs.foldlM (fun b (s, t) => f.spanRow s.left t.right y v b) b := by
  induction runs generalizing b with
  | nil => rfl
  | cons run runs ih =>
    obtain ⟨s, t⟩ := run
    rw [List.flatMap_cons, List.foldlM_cons]
    show (f.spanRow s.left t.right y v b >>= fun c =>
      f.fillPairs y v (runs.flatMap fun (s, t) => [s, t]) c) = _
    exact bind_congr ih

theorem le_foldl_rows (ps : List (Int × Int)) (lo hi : Int) :
    let last := (ps.foldl (fun (lo, hi) q => (min lo q.2, max hi q.2)) (lo, hi)).2
    hi ≤ last ∧ ∀ q ∈ ps, q.2 ≤ last := by
  induction ps generalizing lo hi with
  | nil => simp
  | cons q ps ih =>
    obtain ⟨hstart, hrest⟩ := ih (min lo q.2) (max hi q.2)
    rw [List.foldl_cons]
    refine ⟨le_trans (le_max_left ..) hstart, List.forall_mem_cons.2 ⟨?_, hrest⟩⟩
    exact le_trans (le_max_right ..) hstart

/-- No point of a polygon lies below its last row. -/
theorem le_rowRange (p : Int × Int) (ps : List (Int × Int)) :
    ∀ q ∈ p :: ps, q.2 ≤ (rowRange p ps).2 :=
  List.forall_mem_cons.2 (le_foldl_rows ps p.2 p.2)

end Frame

/-- The edges that reach row `y` are even in number, and their spans, in the order of the row, fall
into pairs: the row is filled from the first to the second span of each pair. -/
structure Paired (edges : List Edge) (y : Int) : Prop where
  even : Even (edges.countP fun e => (e.span? y).isSome)
  perm : (rowSpans edges y).Perm (edges.filterMap (·.span? y))
  runs : ∃ runs : List (Span × Span), rowSpans edges y = runs.flatMap (fun (s, t) => [s, t]) ∧
    ∀ (f : Frame) (v : Pixel) (b : Bytes), f.fillPairs y v (rowSpans edges y) b =
      runs.foldlM (fun b (s, t) => f.spanRow s.left t.right y v b) b

theorem paired_of_even {edges : List Edge} {y : Int}
    (heven : Even (edges.countP fun e => (e.span? y).isSome)) : Paired edges y := by
  have hperm : (rowSpans edges y).Perm (edges.filterMap (·.span? y)) := List.mergeSort_perm ..
  have hlength : Even (rowSpans edges y).length := by
    rw [hperm.length_eq, List.length_filterMap_eq_countP]
    exact heven
  have hruns := Span.pairs_flatMap hlength
  refine ⟨heven, hperm, Span.pairs (rowSpans edges y), hruns.symm, fun f v b => ?_⟩
  rw [← f.fillPairs_flatMap, hruns]

/-- Whatever the points of a polygon are, no span is left over on any row when it is filled. -/
theorem rowSpans_paired (p : Int × Int) (rest : List (Int × Int)) (y : Int) :
    Paired (Edge.ofPoints (p :: rest) (Frame.rowRange p rest).2) y := by
  have hlast := Frame.le_rowRange p rest
  exact paired_of_even (Edge.even_reaching hlast y)

end Raster
