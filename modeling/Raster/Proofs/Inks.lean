import Raster.Draw.Polygon
import Raster.Draw.Rect
import Raster.Draw.ThickLine
import Raster.Proofs.Fill
import Raster.Proofs.Line

/- Drawing with one pixel value. `Inks f v b c` says that from `b` to `c` some pixels of
   the frame took the value `v` and that all other bits of the buffer stay. It is carried
   from drawing to drawing (`Draws.bind`, `Draws.forRange`, `Draws.foldlM`), and whatever
   clips to the frame before it sets pixels draws in this sense: points and spans for any
   coordinates, with them rectangles, thick lines and the inside of polygons wherever
   floating point numbers put their spans, and lines because clipping leaves them inside
   the frame (`Addressable.segment_draws`). -/
namespace Raster.Frame

/-- From `b` to `c` some pixels of the frame take the value `v`, and nothing else changes. -/
structure Inks (f : Frame) (v : Pixel) (b c : Bytes) : Prop where
  keeps : f.Keeps b c
  pixel_eq : ∀ x y, f.Contains x y → f.pixel c x y = f.pixel b x y ∨ f.pixel c x y = f.stored v

/-- A drawing from `b` on answers, and it inks with `v`. -/
def Draws (f : Frame) (v : Pixel) (b : Bytes) (x : Except Fault Bytes) : Prop := Yields x (f.Inks v b)

variable {f : Frame} {v : Pixel} {b c d : Bytes} {S : Int → Int → Prop}

namespace Inks

theorem refl (f : Frame) (v : Pixel) (b : Bytes) : f.Inks v b b :=
  ⟨Keeps.refl f b, fun _ _ _ => Or.inl rfl⟩

theorem trans (h₁ : f.Inks v b c) (h₂ : f.Inks v c d) : f.Inks v b d := by
  refine ⟨h₁.keeps.trans h₂.keeps, fun x y hxy => ?_⟩
  rcases h₂.pixel_eq x y hxy with h | h
  · rw [h]
    exact h₁.pixel_eq x y hxy
  · exact Or.inr h

theorem of_paints (h : f.Paints S (fun _ _ => f.stored v) b c) : f.Inks v b c := by
  refine ⟨h.keeps, fun x y hxy => ?_⟩
  by_cases hs : S x y
  · exact Or.inr (h.inside x y hxy hs)
  · exact Or.inl (h.outside x y hxy hs)

end Inks

namespace Draws
variable {x : Except Fault Bytes}

theorem ok (f : Frame) (v : Pixel) (b : Bytes) : f.Draws v b (.ok b) := Yields.ok (Inks.refl f v b)

theorem of_paints (h : Yields x (f.Paints S (fun _ _ => f.stored v) b)) : f.Draws v b x :=
  h.mono (fun _ hc => Inks.of_paints hc)

theorem bind {k : Bytes → Except Fault Bytes} (hx : f.Draws v b x)
    (hk : ∀ c, c.size = b.size → f.Draws v c (k c)) : f.Draws v b (x >>= k) := by
  refine Yields.bind hx (fun c hc => ?_)
  exact (hk c hc.keeps.size_eq).mono (fun d hd => hc.trans hd)

theorem forRange {lo hi : Int} {step : Int → Bytes → Except Fault Bytes}
    (hstep : ∀ i c, lo ≤ i → i < hi → c.size = b.size → f.Draws v c (step i c)) :
    f.Draws v b (Raster.forRange lo hi b step) := by
  refine Yields.forRange (fun _ c => f.Inks v b c) (Inks.refl f v b) (fun i c h₀ h₁ hc => ?_)
  exact (hstep i c h₀ h₁ hc.keeps.size_eq).mono (fun d hd => hc.trans hd)

theorem foldlM {ι : Type} {g : Bytes → ι → Except Fault Bytes} (l : List ι)
    (hg : ∀ i ∈ l, ∀ c, c.size = b.size → f.Draws v c (g c i)) : f.Draws v b (l.foldlM g b) := by
  refine Yields.foldlM l (fun i hi c hc => ?_) (Inks.refl f v b)
  exact (hg i hi c hc.keeps.size_eq).mono (fun d hd => hc.trans hd)

theorem ite {p : Prop} [Decidable p] {y : Except Fault Bytes} (hx : p → f.Draws v b x)
    (hy : ¬ p → f.Draws v b y) : f.Draws v b (if p then x else y) := by
  by_cases h : p
  · rw [if_pos h]
    exact hx h
  · rw [if_neg h]
    exact hy h

end Draws

section Addressable
variable {n : Nat} (hf : f.Addressable n) (v : Pixel)
include hf

/-! Points and runs. -/

theorem Addressable.writeClipped_draws (hb : b.size = n) (x y : Int) :
    f.Draws v b (f.writeClipped x y v b) := by
  subst hb
  refine Draws.ite (fun hxy => ?_) (fun _ => Draws.ok f v b)
  exact .of_paints (hf.write_paints hxy v)

theorem Addressable.write_draws (hb : b.size = n) (p : Point) : f.Draws v b (f.write p v b) := by
  subst hb
  exact .of_paints (hf.user_write_paints p v)

theorem Addressable.fill_draws (hb : b.size = n) : f.Draws v b (f.fill v b) := by
  subst hb
  exact .of_paints (hf.fill_paints v)

theorem Addressable.spanRow_draws (hb : b.size = n) (x0 x1 y : Int) :
    f.Draws v b (f.spanRow x0 x1 y v b) := by
  subst hb
  exact .of_paints (hf.spanRow_paints x0 x1 y v)

theorem Addressable.spanColumn_draws (hb : b.size = n) (x y0 y1 : Int) :
    f.Draws v b (f.spanColumn x y0 y1 v b) := by
  subst hb
  exact .of_paints (hf.spanColumn_paints x y0 y1 v)

theorem Addressable.userRow_draws (hb : b.size = n) {x0 x1 y : Int} (h₀ : x0.natAbs ≤ 2 ^ 62)
    (h₁ : x1.natAbs ≤ 2 ^ 62) (h₂ : y.natAbs ≤ 2 ^ 62) : f.Draws v b (f.userRow x0 x1 y v b) := by
  rw [userRow, f.rawPoint_eq h₀ h₂, ok_bind, f.rawPoint_eq h₁ h₂, ok_bind]
  exact Draws.ite (fun _ => hf.spanColumn_draws v hb ..) (fun _ => hf.spanRow_draws v hb ..)

theorem Addressable.userColumn_draws (hb : b.size = n) {x y0 y1 : Int} (h₀ : x.natAbs ≤ 2 ^ 62)
    (h₁ : y0.natAbs ≤ 2 ^ 62) (h₂ : y1.natAbs ≤ 2 ^ 62) :
    f.Draws v b (f.userColumn x y0 y1 v b) := by
  rw [userColumn, f.rawPoint_eq h₀ h₁, ok_bind, f.rawPoint_eq h₀ h₂, ok_bind]
  exact Draws.ite (fun _ => hf.spanRow_draws v hb ..) (fun _ => hf.spanColumn_draws v hb ..)

omit hf in
/-- Coordinates of 32 bits, and such with a size added, have raw points. -/
theorem natAbs_add_le (x : Int32) (w : UInt32) :
    x.toInt.natAbs ≤ 2 ^ 62 ∧ (x.toInt + w.toNat - 1).natAbs ≤ 2 ^ 62 := by
  have hx := natAbs_toInt_le x
  have hw := w.toNat_lt
  constructor <;> omega

theorem Addressable.hline_draws (hb : b.size = n) (x0 x1 y : Int32) :
    f.Draws v b (f.hline x0 x1 y v b) :=
  hf.userRow_draws v hb (natAbs_add_le x0 0).1 (natAbs_add_le x1 0).1 (natAbs_add_le y 0).1

theorem Addressable.hlineOf_draws (hb : b.size = n) (x y : Int32) (w : UInt32) :
    f.Draws v b (f.hlineOf x y w v b) := by
  obtain ⟨hx, hend⟩ := natAbs_add_le x w
  refine Draws.ite (fun _ => Draws.ok f v b) (fun _ => ?_)
  exact hf.userRow_draws v hb hx hend (natAbs_add_le y 0).1

theorem Addressable.vline_draws (hb : b.size = n) (x y0 y1 : Int32) :
    f.Draws v b (f.vline x y0 y1 v b) :=
  hf.userColumn_draws v hb (natAbs_add_le x 0).1 (natAbs_add_le y0 0).1 (natAbs_add_le y1 0).1

theorem Addressable.vlineOf_draws (hb : b.size = n) (x y : Int32) (h : UInt32) :
    f.Draws v b (f.vlineOf x y h v b) := by
  obtain ⟨hy, hend⟩ := natAbs_add_le y h
  refine Draws.ite (fun _ => Draws.ok f v b) (fun _ => ?_)
  exact hf.userColumn_draws v hb (natAbs_add_le x 0).1 hy hend

/-! Rectangles. -/

theorem Addressable.border_draws (hb : b.size = n) (x0 y0 x1 y1 : Int) :
    f.Draws v b (f.border x0 y0 x1 y1 v b) := by
  refine (hf.spanRow_draws v hb ..).bind (fun b₁ h₁ => ?_)
  refine (hf.spanRow_draws v (h₁.trans hb) ..).bind (fun b₂ h₂ => ?_)
  refine (hf.spanColumn_draws v (h₂.trans (h₁.trans hb)) ..).bind (fun b₃ h₃ => ?_)
  exact hf.spanColumn_draws v (h₃.trans (h₂.trans (h₁.trans hb))) ..

theorem Addressable.box_draws (hb : b.size = n) (x0 y0 x1 y1 : Int) :
    f.Draws v b (f.box x0 y0 x1 y1 v b) :=
  Draws.forRange (fun _ _ _ _ hc => hf.spanRow_draws v (hc.trans hb) ..)

omit hf in
/-- What draws between any raw corners draws rectangles by their corners and by their size. -/
theorem byCorners_draws {paint : Int → Int → Int → Int → Pixel → Bytes → Except Fault Bytes}
    (hpaint : ∀ x0 y0 x1 y1, f.Draws v b (paint x0 y0 x1 y1 v b)) (p q : Point) (w h : UInt32) :
    f.Draws v b (f.byCorners paint p.x.toInt p.y.toInt q.x.toInt q.y.toInt v b) ∧
      f.Draws v b (bySize (f.byCorners paint) p w h v b) := by
  have hcorners : ∀ {x0 y0 x1 y1 : Int}, x0.natAbs ≤ 2 ^ 62 → y0.natAbs ≤ 2 ^ 62 →
      x1.natAbs ≤ 2 ^ 62 → y1.natAbs ≤ 2 ^ 62 →
      f.Draws v b (f.byCorners paint x0 y0 x1 y1 v b) := by
    intro x0 y0 x1 y1 h₀ h₁ h₂ h₃
    simp only [byCorners, f.rawPoint_eq h₀ h₁, f.rawPoint_eq h₂ h₃, ok_bind]
    exact hpaint ..
  obtain ⟨hpx, hpw⟩ := natAbs_add_le p.x w
  obtain ⟨hpy, hph⟩ := natAbs_add_le p.y h
  refine ⟨hcorners hpx hpy (natAbs_add_le q.x 0).1 (natAbs_add_le q.y 0).1, ?_⟩
  exact Draws.ite (fun _ => Draws.ok f v b) (fun _ => hcorners hpx hpy hpw hph)

theorem Addressable.rect_draws (hb : b.size = n) (p q : Point) : f.Draws v b (f.rect p q v b) :=
  (byCorners_draws v (fun _ _ _ _ => hf.border_draws v hb ..) p q 0 0).1

theorem Addressable.rectOf_draws (hb : b.size = n) (p : Point) (w h : UInt32) :
    f.Draws v b (f.rectOf p w h v b) :=
  (byCorners_draws v (fun _ _ _ _ => hf.border_draws v hb ..) p p w h).2

theorem Addressable.fillRect_draws (hb : b.size = n) (p q : Point) :
    f.Draws v b (f.fillRect p q v b) :=
  (byCorners_draws v (fun _ _ _ _ => hf.box_draws v hb ..) p q 0 0).1

theorem Addressable.fillRectOf_draws (hb : b.size = n) (p : Point) (w h : UInt32) :
    f.Draws v b (f.fillRectOf p w h v b) :=
  (byCorners_draws v (fun _ _ _ _ => hf.box_draws v hb ..) p p w h).2

/-! Lines. -/

theorem Addressable.segment_draws {s : Segment} (hs : s.Near) (hb : b.size = n) :
    f.Draws v b (f.segment s v b) := by
  have hw := hf.width_le
  have hh := hf.height_le
  have hclip := hs.clip_within (w := f.width.toNat) (h := f.height.toNat) (by omega) (by omega)
    (by omega) (by omega)
  subst hb
  refine Yields.bind hclip (fun o ho => ?_)
  cases o with
  | none => exact Draws.ok f v b
  | some t => exact Draws.of_paints (hf.paintSegment_paints (ho t rfl) v)

theorem Addressable.line_draws (hb : b.size = n) (p q : Point) : f.Draws v b (f.line p q v b) := by
  rw [line, rawSegment_eq, ok_bind]
  exact hf.segment_draws v (f.joining_near p q) hb

/-- Whatever the corners are, the rows of a convex polygon are spans. -/
theorem Addressable.fillConvex_draws (hb : b.size = n) (corners : List Place) :
    f.Draws v b (f.fillConvex corners v b) := by
  refine Draws.forRange (fun y c _ _ hc => ?_)
  exact Draws.ite (fun _ => hf.spanRow_draws v (hc.trans hb) ..) (fun _ => Draws.ok f v c)

theorem Addressable.thickLine_draws (hb : b.size = n) (p q : Point) (r : UInt32) :
    f.Draws v b (f.thickLine p q r v b) := by
  rw [thickLine, rawSegment_eq, ok_bind]
  refine Draws.ite (fun _ => hf.segment_draws v (f.joining_near p q) hb) (fun _ => ?_)
  exact Draws.ite (fun _ => hf.box_draws v hb ..) (fun _ => hf.fillConvex_draws v hb _)

/-! Polygons. -/

omit hf in
/-- Points of 32 bits have raw points within 33 bits. -/
theorem rawPoints_yields (f : Frame) (ps : List Point) :
    Yields (f.rawPoints ps) (fun qs => ∀ q ∈ qs, q.1.natAbs ≤ 2 ^ 33 ∧ q.2.natAbs ≤ 2 ^ 33) := by
  induction ps with
  | nil => exact Yields.ok (by simp)
  | cons p ps ih =>
    rw [rawPoints, List.mapM_cons, rawPoint_point, ok_bind]
    apply Yields.bind ih
    intro qs hqs
    exact Yields.ok (List.forall_mem_cons.2 ⟨f.natAbs_toRaw_le p, hqs⟩)

omit hf in
theorem mem_of_neighbours {α : Type} {ps : List α} {p q : α} (h : (p, q) ∈ neighbours ps) :
    p ∈ ps ∧ q ∈ ps := by
  unfold neighbours at h
  split at h
  · next last hlast =>
    obtain ⟨hp, hq⟩ := List.of_mem_zip h
    refine ⟨?_, hq⟩
    rcases List.mem_cons.1 hp with rfl | hp
    · exact List.mem_of_getLast? hlast
    · exact hp
  · cases h

section Polygon
variable {ps : List (Int × Int)} (hps : ∀ q ∈ ps, q.1.natAbs ≤ 2 ^ 33 ∧ q.2.natAbs ≤ 2 ^ 33)

include hps in
theorem Addressable.outline_draws (hb : b.size = n) : f.Draws v b (f.outline ps v b) := by
  refine Draws.foldlM _ (fun (p, q) hpq c hc => ?_)
  obtain ⟨hp, hq⟩ := mem_of_neighbours hpq
  have hnear : Segment.Near ⟨p.1, p.2, q.1, q.2⟩ :=
    ⟨(hps p hp).1, (hps p hp).2, (hps q hq).1, (hps q hq).2⟩
  exact hf.segment_draws v hnear (hc.trans hb)

theorem Addressable.levelEdges_draws (hb : b.size = n) (ps : List (Int × Int)) :
    f.Draws v b (f.levelEdges ps v b) := by
  refine Draws.foldlM _ (fun (p, q) _ c hc => ?_)
  exact Draws.ite (fun _ => hf.spanRow_draws v (hc.trans hb) ..) (fun _ => Draws.ok f v c)

/-- Whatever the spans are, every second gap between them is one span of the row. -/
theorem Addressable.fillPairs_draws (hb : b.size = n) (y : Int) (spans : List Span) :
    f.Draws v b (f.fillPairs y v spans b) := by
  fun_induction fillPairs f y v spans b with
  | case1 b s t rest ih =>
    exact (hf.spanRow_draws v hb ..).bind (fun c hc => ih c (hc.trans hb))
  | case2 => exact Draws.ok f v _

include hps in
theorem Addressable.inside_draws (hb : b.size = n) : f.Draws v b (f.inside ps v b) := by
  unfold inside
  split
  · exact Draws.ok f v b
  · exact hf.writeClipped_draws v hb ..
  · next p q =>
    have hnear : Segment.Near ⟨p.1, p.2, q.1, q.2⟩ :=
      ⟨(hps p (by simp)).1, (hps p (by simp)).2, (hps q (by simp)).1, (hps q (by simp)).2⟩
    exact hf.segment_draws v hnear hb
  · refine (hf.levelEdges_draws v hb _).bind (fun c hc => ?_)
    exact Draws.forRange (fun y d _ _ hd => hf.fillPairs_draws v (hd.trans (hc.trans hb)) y _)

end Polygon

theorem Addressable.polygon_draws (hb : b.size = n) (ps : List Point) :
    f.Draws v b (f.polygon ps v b) :=
  Yields.bind (f.rawPoints_yields ps) (fun _ hqs => hf.outline_draws v hqs hb)

theorem Addressable.fillPolygon_draws (hb : b.size = n) (ps : List Point) :
    f.Draws v b (f.fillPolygon ps v b) :=
  Yields.bind (f.rawPoints_yields ps) (fun _ hqs => hf.inside_draws v hqs hb)

end Addressable

end Raster.Frame
