import Raster.Proofs.Checker
import Raster.Proofs.Curves
import Raster.Proofs.SoftLine
import Raster.Scene.Decode
import Raster.Scene.Draw

/- When scenes are rendered. On a canvas every shape is drawn, whatever its coordinates,
   apart from lines with partial coverage and checkers that do not fit (`Shape.Fits`);
   what the shapes before leave on the canvas has no part in it. So a scene, the buffers of
   which can be allocated, is refused if its type is unknown, rendered if all its shapes
   fit, and faults if one does not (`Scene.render_cases`). -/
namespace Raster

namespace Shape
open Raster.Frame Checker

/-- The shape is drawn on a canvas of width `w` and height `h`: positions of lines with partial
coverage are not too far apart, and a checker is too large to be made or neither its tile nor the
copy of it breaks off. -/
def Fits (w h : UInt32) (type : PixelType) : Shape → Prop
  | softLine x0 y0 x1 y1 _ =>
    SoftFits w.toNat h.toNat (fixedOf x0).toInt (fixedOf y0).toInt (fixedOf x1).toInt
      (fixedOf y1).toInt
  | checker corner size cell _ _ =>
    Pixmap.sizeLimit ≤ type.rowBytes size * size.toNat ∨
      ¬ Oversized type size (max cell 1) ∧ ¬ Overruns w h type corner size
  | _ => True

instance (w h : UInt32) (type : PixelType) : (s : Shape) → Decidable (s.Fits w h type)
  | softLine .. => inferInstanceAs (Decidable (SoftFits ..))
  | checker .. => inferInstanceAs (Decidable (_ ∨ _))
  | line .. | thickLine .. | rect .. | fillRect .. | circle .. | fillCircle .. | circleSegments ..
  | ellipse .. | fillEllipse .. | triangle .. | polygon .. => .isTrue trivial

/-- The buffer of its own that the shape is drawn with can be allocated, if it needs one. -/
def Affordable (type : PixelType) : Shape → Prop
  | checker _ size _ _ _ => Pixmap.alloc size size type ≠ .error (.fault .outOfMemory)
  | _ => True

section Checker
variable {f : Frame} {b : Bytes} {corner : Point} {size cell : UInt32} {even odd : Rgb}

/-- A checker whose tile cannot be made is left out. -/
theorem paint_checker_of_refused {e : Error}
    (he : Pixmap.alloc size size f.pixelType = .error (.error e)) :
    (checker corner size cell even odd).paint f b = .ok b := by
  simp only [paint, tile, he]
  rfl

variable {p : Pixmap} (hp : Pixmap.alloc size size f.pixelType = .ok p)
include hp

/-- A checker whose tile can be painted is copied from it. -/
theorem paint_checker_of_tile (hsmall : ¬ Oversized f.pixelType size (max cell 1))
    (corner : Point) (even odd : Rgb) (b : Bytes) :
    ∃ tile, Tile f.pixelType size tile ∧
      (checker corner size cell even odd).paint f b =
        f.blitClippedOf tile ⟨0, 0⟩ size size corner b := by
  obtain ⟨tile, htile, ht⟩ :=
    tile_yields hp hsmall (f.pixelType.encodeRgb even) (f.pixelType.encodeRgb odd)
  exact ⟨tile, ht, by simp only [paint, htile]⟩

theorem paint_checker_keeps (hf : f.Addressable b.size) (hplain : f.Plain)
    (hsmall : ¬ Oversized f.pixelType size (max cell 1))
    (hno : ¬ Overruns f.width f.height f.pixelType corner size) :
    Yields ((checker corner size cell even odd).paint f b) (f.Keeps b) := by
  obtain ⟨tile, ht, hpaint⟩ := paint_checker_of_tile hp hsmall corner even odd b
  rw [hpaint, blitClippedOf]
  by_cases hsize : size = 0 ∨ size = 0
  · rw [if_pos hsize]
    exact Yields.ok (Keeps.refl f b)
  rw [if_neg hsize]
  have hpos : 0 < size.toNat := UInt32.pos_iff_ne_zero.2 (fun h => hsize (Or.inl h))
  apply hf.blitClipped_keeps
  · rw [rectangle_eq hpos]
    exact part_legible ht ..
  · rw [overruns_iff hplain ht hpos]
    exact hno

theorem paint_checker_stops (hplain : f.Plain)
    (h : ¬ (¬ Oversized f.pixelType size (max cell 1) ∧
      ¬ Overruns f.width f.height f.pixelType corner size)) :
    Stops ((checker corner size cell even odd).paint f b) := by
  by_cases hlarge : Oversized f.pixelType size (max cell 1)
  · obtain ⟨e, he⟩ :=
      tile_faults hp hlarge (f.pixelType.encodeRgb even) (f.pixelType.encodeRgb odd)
    simp only [paint, he]
    exact Stops.error e
  · have hover : Overruns f.width f.height f.pixelType corner size :=
      Decidable.of_not_not (fun hno => h ⟨hlarge, hno⟩)
    obtain ⟨tile, ht, hpaint⟩ := paint_checker_of_tile hp hlarge corner even odd b
    have hpos : 0 < size.toNat := by
      obtain ⟨-, -, hy, -, -, hy'⟩ := hover
      omega
    have hsize : ¬ (size = 0 ∨ size = 0) := by
      intro h
      rw [h.elim id id] at hpos
      exact absurd hpos (by decide)
    rw [← overruns_iff (n := b.size) hplain ht hpos] at hover
    rw [hpaint, blitClippedOf, if_neg hsize, blitClipped_of_overruns hover
      (ht.stride_pos (fun h => hsize (Or.inl h))) ht.size_le]
    exact Stops.error _

end Checker

section Paint
variable {f : Frame} {b : Bytes} (hf : f.Addressable b.size) (hplain : f.Plain) (s : Shape)
  (hmem : s.Affordable f.pixelType)
include hf hplain hmem

/-- What fits is drawn, and what lies between the pixels of the canvas is kept. -/
theorem paint_keeps (hfits : s.Fits f.width f.height f.pixelType) :
    Yields (s.paint f b) (f.Keeps b) := by
  have hinks : ∀ {v : Pixel} {x : Except Fault Bytes}, f.Draws v b x → Yields x (f.Keeps b) :=
    fun h => h.mono (fun _ hc => hc.keeps)
  cases s with
  | line p q c => exact hinks (hf.line_draws _ rfl p q)
  | thickLine p q r c => exact hinks (hf.thickLine_draws _ rfl p q r)
  | rect p q c => exact hinks (hf.rect_draws _ rfl p q)
  | fillRect p q c => exact hinks (hf.fillRect_draws _ rfl p q)
  | circle p r c => exact hinks (hf.circle_draws _ rfl p r)
  | fillCircle p r c => exact hinks (hf.fillCircle_draws _ rfl p r)
  | circleSegments p r n c => exact hinks (hf.circleSegments_draws _ rfl p r _)
  | ellipse p u v c => exact hinks (hf.ellipse_draws _ rfl p u v)
  | fillEllipse p u v c => exact hinks (hf.fillEllipse_draws _ rfl p u v)
  | triangle p q r fill c =>
    exact hinks (Draws.ite (fun _ => hf.fillPolygon_draws _ rfl [p, q, r])
      (fun _ => hf.polygon_draws _ rfl [p, q, r]))
  | polygon ps fill c =>
    exact hinks (Draws.ite (fun _ => hf.fillPolygon_draws _ rfl ps)
      (fun _ => hf.polygon_draws _ rfl ps))
  | softLine x0 y0 x1 y1 c =>
    simp only [paint, softLine_eq _ _ _ _ _ hplain.orientation_eq]
    exact hf.slant_keeps _ _ _ _ _ rfl hfits
  | checker corner size cell even odd =>
    cases halloc : Pixmap.alloc size size f.pixelType with
    | ok p =>
      have hmade : ¬ Pixmap.sizeLimit ≤ f.pixelType.rowBytes size * size.toNat := by
        intro hlarge
        obtain ⟨e, he⟩ := (Pixmap.alloc_refused_iff hf.known).2 hlarge
        rw [halloc] at he
        cases he
      obtain ⟨hsmall, hno⟩ := hfits.resolve_left hmade
      exact paint_checker_keeps halloc hf hplain hsmall hno
    | error e =>
      cases e with
      | error e =>
        rw [paint_checker_of_refused halloc]
        exact Yields.ok (Keeps.refl f b)
      | fault e => exact absurd (Pixmap.alloc_fault halloc) hmem

/-- What does not fit breaks off, whatever is on the canvas. -/
theorem paint_stops (hfits : ¬ s.Fits f.width f.height f.pixelType) : Stops (s.paint f b) := by
  cases s with
  | softLine x0 y0 x1 y1 c =>
    simp only [paint, softLine_eq _ _ _ _ _ hplain.orientation_eq]
    exact slant_stops _ _ _ _ _ hfits
  | checker corner size cell even odd =>
    obtain ⟨hmade, hbreaks⟩ := not_or.1 hfits
    cases halloc : Pixmap.alloc size size f.pixelType with
    | ok p => exact paint_checker_stops halloc hplain hbreaks
    | error e =>
      cases e with
      | error e => exact absurd ((Pixmap.alloc_refused_iff hf.known).1 ⟨e, halloc⟩) hmade
      | fault e => exact absurd (Pixmap.alloc_fault halloc) hmem
  | _ => exact absurd trivial hfits

end Paint

end Shape

namespace Scene
open Raster.Frame

/-- Every shape of the scene is drawn on its canvas. -/
def Fits (s : Scene) : Prop := ∀ shape ∈ s.shapes, shape.Fits s.width s.height s.pixelType

instance (s : Scene) : Decidable s.Fits := inferInstanceAs (Decidable (∀ shape ∈ s.shapes, _))

/-- The buffers that the scene is rendered with can be allocated: that of the canvas and those of
the tiles of its checkers. -/
def Affordable (s : Scene) : Prop :=
  Pixmap.alloc s.width s.height s.pixelType ≠ .error (.fault .outOfMemory) ∧
    ∀ shape ∈ s.shapes, shape.Affordable s.pixelType

/-- A pixmap of the size and the type of the scene, in the form of a new one. -/
structure Canvas (s : Scene) (p : Pixmap) : Prop where
  addressable : p.Addressable
  plain : p.toFrame.Plain
  width_eq : p.width = s.width
  height_eq : p.height = s.height
  type_eq : p.pixelType = s.pixelType

section Paint
variable {s : Scene} {p : Pixmap} (hp : s.Canvas p)
  (hmem : ∀ shape ∈ s.shapes, shape.Affordable s.pixelType)
include hp hmem

theorem Canvas.paint_keeps (hfits : s.Fits) :
    Yields (s.paint p.toFrame p.bytes) (p.Keeps p.bytes) := by
  refine (hp.addressable.fill_paints _).bind (fun c hc => ?_)
  refine Yields.foldlM s.shapes (fun shape hs d hd => ?_) hc.keeps
  have hf : p.toFrame.Addressable d.size := hd.size_eq.symm ▸ hp.addressable
  have hshape := hfits shape hs
  rw [← hp.width_eq, ← hp.height_eq, ← hp.type_eq] at hshape
  exact (shape.paint_keeps hf hp.plain (hp.type_eq ▸ hmem shape hs) hshape).mono
    (fun e he => hd.trans he)

theorem Canvas.paint_stops (hfits : ¬ s.Fits) : Stops (s.paint p.toFrame p.bytes) := by
  obtain ⟨shape, hs, hshape⟩ : ∃ shape ∈ s.shapes, ¬ shape.Fits s.width s.height s.pixelType := by
    simpa only [Fits, not_forall, exists_prop] using hfits
  rw [← hp.width_eq, ← hp.height_eq, ← hp.type_eq] at hshape
  refine Stops.bind (P := fun c => c.size = p.bytes.size) (sized_fill rfl ..) (fun c hc => ?_)
  refine Stops.foldlM (fun d shape hd => shape.sized_paint hd) hc hs (fun d hd => ?_)
  have hf : p.toFrame.Addressable d.size := hd.symm ▸ hp.addressable
  exact shape.paint_stops hf hp.plain (hp.type_eq ▸ hmem shape hs) hshape

end Paint

/-- What is drawn on a canvas leaves one. -/
theorem Canvas.of_size {s : Scene} {p : Pixmap} (hp : s.Canvas p) {b : Bytes}
    (hb : b.size = p.bytes.size) : s.Canvas ⟨p.toFrame, b⟩ := by
  have hf : p.toFrame.Addressable b.size := hb ▸ hp.addressable
  exact ⟨hf, hp.plain, hp.width_eq, hp.height_eq, hp.type_eq⟩

theorem render_unknown {s : Scene} (h : s.pixelType = .unknown) :
    s.render = refuse (.notAllocatable .unknown) := by
  rw [render, Pixmap.alloc, Pixmap.minStride, if_pos h, h]
  rfl

/-- Rendering draws the scene on a canvas, if the type has a size. -/
theorem render_eq {s : Scene} (hk : s.pixelType ≠ .unknown) (hw : s.width.toNat ≤ 0x7fffffff)
    (hh : s.height.toNat ≤ 0x7fffffff)
    (hmem : Pixmap.alloc s.width s.height s.pixelType ≠ .error (.fault .outOfMemory)) :
    ∃ p, s.Canvas p ∧ s.render = liftM (p.draw .user s.paint) := by
  have hp := Pixmap.alloc_yields hk hw hh hmem
  have hvalid := ((Pixmap.alloc_owner ..).answer _ hp).wellFormed
  have hplain := Pixmap.plainFrame_plain s.width s.height s.pixelType (s.pixelType.rowBytes s.width)
  -- the gamma has no part in where the pixels lie
  let g : Option Gamma := s.gamma.map fun e => ⟨e, s.pixelType⟩
  refine ⟨{ Pixmap.blank s.width s.height s.pixelType with gamma := g }, ?_, ?_⟩
  · exact ⟨⟨hvalid.reorient .identity g, hw, hh⟩,
      ⟨hplain.start_eq, hplain.offset_eq, hplain.orientation_eq, hplain.stride_eq⟩, rfl, rfl, rfl⟩
  · rw [render, hp, ok_bind]

/-- A scene, with a canvas that 32-bit integers reach and buffers that can be allocated, is refused
if its type has no size, rendered if all its shapes fit, and faults if one does not. -/
theorem render_cases (s : Scene) (hw : s.width.toNat ≤ 0x7fffffff)
    (hh : s.height.toNat ≤ 0x7fffffff) (hmem : s.Affordable) :
    (s.pixelType = .unknown → s.render = refuse (.notAllocatable .unknown)) ∧
      (s.pixelType ≠ .unknown → s.Fits → ∃ p, s.render = .ok p ∧ s.Canvas p) ∧
      (s.pixelType ≠ .unknown → ¬ s.Fits → ∃ e, s.render = .error (.fault e)) := by
  refine ⟨render_unknown, fun hk hfits => ?_, fun hk hfits => ?_⟩
  · obtain ⟨p, hp, hrender⟩ := render_eq hk hw hh hmem.1
    obtain ⟨b, hb, hkeeps⟩ := hp.paint_keeps hmem.2 hfits
    refine ⟨⟨p.toFrame, b⟩, ?_, hp.of_size hkeeps.size_eq⟩
    rw [hrender, Pixmap.draw_ok p hb]
    rfl
  · obtain ⟨p, hp, hrender⟩ := render_eq hk hw hh hmem.1
    obtain ⟨e, he⟩ := hp.paint_stops hmem.2 hfits
    refine ⟨e, ?_⟩
    rw [hrender, Pixmap.draw_error p he]
    rfl

/-- A checker hangs over the upper edge of a canvas of five columns and no rows. -/
theorem render_faults_above : ∃ s,
    ofJson ("\x7b\"width\":5,\"height\":0,\"shapes\":[\x7b\"shape\":\"checker\",\"at\":[0,-1]," ++
        "\"size\":5,\"cell\":1,\"colors\":[[0,0,0],[9,9,9]]\x7d]\x7d") = .ok s ∧
      s.width.toNat ≤ 0x7fffffff ∧ s.height.toNat ≤ 0x7fffffff ∧ s.Affordable ∧
        ∃ e, s.render = .error (.fault e) := by
  let shape : Shape := .checker ⟨0, -1⟩ 5 1 ⟨0, 0, 0⟩ ⟨9, 9, 9⟩
  let s : Scene := ⟨"untitled", 5, 0, .rgb888, ⟨0, 0, 0⟩, none, [shape]⟩
  have hs : s.Affordable := by
    refine ⟨?_, fun t ht => ?_⟩
    · rw [Pixmap.alloc_ok (by decide) (by decide)]
      exact nofun
    · rw [List.mem_singleton.1 ht, Shape.Affordable, Pixmap.alloc_ok (by decide) (by decide)]
      exact nofun
  -- the tile can be made, and its rows are copied to a canvas without rows
  have hfits : ¬ s.Fits := by decide
  refine ⟨s, by decide +kernel, by decide, by decide, hs, ?_⟩
  exact (render_cases s (by decide) (by decide) hs).2.2 (by decide) hfits

end Scene

end Raster
