import Raster.Pixmap.Copy
import Raster.Proofs.Bits
import Raster.Proofs.Outcome
import Raster.Scene.Draw

/- Drawing keeps the size of the buffer. `Sized n x` says that `x` answers only buffers
   of `n` bytes. The primitive writes are so, and with the rules for binds, branches and
   loops every drawing and every copy is, on any frame and whatever it is given: nothing
   is asked of the frame, and a drawing may still fault. -/
namespace Raster

/-- `x` answers only buffers of `n` bytes. -/
abbrev Sized (n : Nat) (x : Except Fault Bytes) : Prop := Ensures x (fun b => b.size = n)

theorem Bytes.sized_writeBits {b : Bytes} {n : Nat} (h : b.size = n) (pos len v : Nat) :
    Sized n (b.writeBits pos len v) := by
  refine Ensures.ite (fun _ => Ensures.ok ?_) (fun _ => Ensures.error ..)
  rw [Bytes.size_writeLE, h]

namespace Frame
variable {f : Frame} {b : Bytes} {n : Nat} {v : Pixel}

/-! Pixels and runs. -/

theorem sized_writeRaw (h : b.size = n) (x y : Int32) (v : Pixel) : Sized n (f.writeRaw x y v b) :=
  Ensures.ite (fun _ => Ensures.bind_any (fun _ => Bytes.sized_writeBits h ..))
    (fun _ => Ensures.error ..)

theorem sized_writeClipped (h : b.size = n) (x y : Int) (v : Pixel) :
    Sized n (f.writeClipped x y v b) :=
  Ensures.ite (fun _ => sized_writeRaw h ..) (fun _ => Ensures.ok h)

theorem sized_write (h : b.size = n) (p : Point) (v : Pixel) : Sized n (f.write p v b) :=
  Ensures.bind_any (fun _ => sized_writeClipped h ..)

theorem sized_stampRow (h : b.size = n) (x y count : Nat) (v : Pixel) :
    Sized n (f.stampRow x y count v b) := by
  refine Ensures.bind_any (fun first => Ensures.ite (fun _ => Ensures.ok ?_) (fun _ => Ensures.error ..))
  rw [Bytes.size_stamp, h]

theorem sized_spanRow (h : b.size = n) (x0 x1 y : Int) (v : Pixel) :
    Sized n (f.spanRow x0 x1 y v b) := by
  refine Ensures.ite (fun _ => Ensures.ok h) (fun _ => Ensures.ite (fun _ => Ensures.ok h) (fun _ => ?_))
  exact Ensures.ite (fun _ => sized_stampRow h ..)
    (fun _ => Ensures.forRange (fun _ _ hb => sized_writeRaw hb ..) h)

theorem sized_spanColumn (h : b.size = n) (x y0 y1 : Int) (v : Pixel) :
    Sized n (f.spanColumn x y0 y1 v b) :=
  Ensures.ite (fun _ => Ensures.ok h)
    (fun _ => Ensures.forRange (fun _ _ hb => sized_writeRaw hb ..) h)

theorem sized_userRow (h : b.size = n) (x0 x1 y : Int) (v : Pixel) :
    Sized n (f.userRow x0 x1 y v b) :=
  Ensures.bind_any (fun _ => Ensures.bind_any (fun _ =>
    Ensures.ite (fun _ => sized_spanColumn h ..) (fun _ => sized_spanRow h ..)))

theorem sized_userColumn (h : b.size = n) (x y0 y1 : Int) (v : Pixel) :
    Sized n (f.userColumn x y0 y1 v b) :=
  Ensures.bind_any (fun _ => Ensures.bind_any (fun _ =>
    Ensures.ite (fun _ => sized_spanRow h ..) (fun _ => sized_spanColumn h ..)))

theorem sized_hlineOf (h : b.size = n) (x y : Int32) (w : UInt32) (v : Pixel) :
    Sized n (f.hlineOf x y w v b) :=
  Ensures.ite (fun _ => Ensures.ok h) (fun _ => sized_userRow h ..)

theorem sized_vlineOf (h : b.size = n) (x y : Int32) (w : UInt32) (v : Pixel) :
    Sized n (f.vlineOf x y w v b) :=
  Ensures.ite (fun _ => Ensures.ok h) (fun _ => sized_userColumn h ..)

/-! Rectangles and whole frames. -/

theorem sized_border (x0 y0 x1 y1 : Int) (v : Pixel) (h : b.size = n) :
    Sized n (f.border x0 y0 x1 y1 v b) := by
  apply Ensures.bind (sized_spanRow h ..)
  intro _ h
  apply Ensures.bind (sized_spanRow h ..)
  intro _ h
  exact Ensures.bind (sized_spanColumn h ..) (fun _ h => sized_spanColumn h ..)

theorem sized_box (x0 y0 x1 y1 : Int) (v : Pixel) (h : b.size = n) :
    Sized n (f.box x0 y0 x1 y1 v b) :=
  Ensures.forRange (fun _ _ hb => sized_spanRow hb ..) h

section Rect
variable {paint : Int → Int → Int → Int → Pixel → Bytes → Except Fault Bytes}
  (hp : ∀ {b : Bytes} (x0 y0 x1 y1 : Int) (v : Pixel), b.size = n → Sized n (paint x0 y0 x1 y1 v b))
include hp

theorem sized_byCorners (h : b.size = n) (x0 y0 x1 y1 : Int) (v : Pixel) :
    Sized n (f.byCorners paint x0 y0 x1 y1 v b) :=
  Ensures.bind_any (fun _ => Ensures.bind_any (fun _ => hp _ _ _ _ _ h))

theorem sized_bySize (h : b.size = n) (p : Point) (w k : UInt32) (v : Pixel) :
    Sized n (bySize paint p w k v b) :=
  Ensures.ite (fun _ => Ensures.ok h) (fun _ => hp _ _ _ _ _ h)

end Rect

theorem sized_rectOf (h : b.size = n) (p : Point) (w k : UInt32) (v : Pixel) :
    Sized n (f.rectOf p w k v b) :=
  sized_bySize (fun _ _ _ _ _ h => sized_byCorners sized_border h ..) h p w k v

theorem sized_fillRectOf (h : b.size = n) (p : Point) (w k : UInt32) (v : Pixel) :
    Sized n (f.fillRectOf p w k v b) :=
  sized_bySize (fun _ _ _ _ _ h => sized_byCorners sized_box h ..) h p w k v

theorem sized_stampBytes (h : b.size = n) (y count v : Nat) :
    Sized n (f.stampBytes y count v b) := by
  refine Ensures.bind_any (fun first => Ensures.ite (fun _ => Ensures.ok ?_) (fun _ => Ensures.error ..))
  rw [Bytes.size_stamp, h]

theorem sized_fillFrom (h : b.size = n) (x : Int) (v : Pixel) : Sized n (f.fillFrom x v b) :=
  Ensures.forRange (fun _ _ h => Ensures.forRange (fun _ _ h => sized_writeRaw h ..) h) h

theorem sized_fill (h : b.size = n) (v : Pixel) : Sized n (f.fill v b) := by
  refine Ensures.ite (fun _ => Ensures.ok h) (fun _ => Ensures.ite (fun _ => ?_) (fun _ => ?_))
  · exact Ensures.forRange (fun _ _ h => sized_stampRow h ..) h
  · refine Ensures.ite (fun _ => Ensures.bind ?_ (fun _ h => sized_fillFrom h ..))
      (fun _ => sized_fillFrom h ..)
    exact Ensures.forRange (fun _ _ h => sized_stampBytes h ..) h

/-! Lines. -/

theorem sized_plot (h : b.size = n) (steep : Bool) (major minor : Int) (v : Pixel) :
    Sized n (f.plot steep major minor v b) :=
  Ensures.ite (fun _ => sized_writeRaw h ..) (fun _ => sized_writeRaw h ..)

theorem sized_walkInward (s : Slope) (v : Pixel) :
    ∀ (count : Nat) (i drift error : Int) {b : Bytes}, b.size = n →
      Sized n (f.walkInward s v count i drift error b)
  | 0, _, _, _, _, h => Ensures.ok h
  | count + 1, i, drift, error, b, h => by
    rw [walkInward]
    refine Ensures.bind (sized_plot h ..) (fun _ h => Ensures.bind (sized_plot h ..) (fun _ h => ?_))
    refine Ensures.bind_any (fun e => Ensures.ite (fun _ => ?_) (fun _ => ?_))
    · exact Ensures.bind_any (fun _ => sized_walkInward s v count _ _ _ h)
    · exact sized_walkInward s v count _ _ _ h

theorem sized_paintSegment (h : b.size = n) (s : Segment) (v : Pixel) :
    Sized n (f.paintSegment s v b) := by
  refine Ensures.ite (fun _ => sized_writeRaw h ..) (fun _ => Ensures.ite (fun _ => ?_) (fun _ => ?_))
  · exact sized_spanColumn h ..
  · exact Ensures.ite (fun _ => sized_spanRow h ..) (fun _ => sized_walkInward _ _ _ _ _ _ h)

theorem sized_segment (h : b.size = n) (s : Segment) (v : Pixel) : Sized n (f.segment s v b) := by
  apply Ensures.bind_any
  intro t
  cases t with
  | none => exact Ensures.ok h
  | some t => exact sized_paintSegment h ..

theorem sized_line (h : b.size = n) (p q : Point) (v : Pixel) : Sized n (f.line p q v b) :=
  Ensures.bind_any (fun _ => sized_segment h ..)

theorem sized_fillConvex (h : b.size = n) (corners : List Place) (v : Pixel) :
    Sized n (f.fillConvex corners v b) :=
  Ensures.forRange (fun _ _ h => Ensures.ite (fun _ => sized_spanRow h ..) (fun _ => Ensures.ok h)) h

theorem sized_thickSegment (h : b.size = n) (s : Segment) (r : UInt32) (v : Pixel) :
    Sized n (f.thickSegment s r v b) :=
  Ensures.ite (fun _ => sized_segment h ..)
    (fun _ => Ensures.ite (fun _ => sized_box _ _ _ _ _ h) (fun _ => sized_fillConvex h ..))

theorem sized_thickLine (h : b.size = n) (p q : Point) (r : UInt32) (v : Pixel) :
    Sized n (f.thickLine p q r v b) :=
  Ensures.bind_any (fun _ => sized_thickSegment h ..)

end Frame

/-! Walks along quadrants. -/

namespace QuadrantWalk
variable {n : Nat} {visit : Visitor Bytes}
  (hpoint : ∀ (x y : Int) (b : Bytes), b.size = n → Sized n (visit.point x y b))
  (hrow : ∀ (x y : Int) (b : Bytes), b.size = n → Sized n (visit.row x y b))

include hpoint in
theorem sized_advance (w : QuadrantWalk) (y : Int) (x : Nat) (excess : Int) (b : Bytes)
    (h : b.size = n) : Ensures (w.advance visit y x excess b) (fun r => r.2.2.size = n) := by
  fun_induction w.advance visit y x excess b with
  | case1 x excess b _ gain _ c hc ih => exact ih ((hpoint _ _ _ h).answer c hc)
  | case2 => exact Ensures.error ..
  | case3 => exact Ensures.error ..
  | case4 => exact Ensures.ok h

include hpoint hrow in
theorem sized_rows (w : QuadrantWalk) : ∀ (m x : Nat) (excess : Int) (b : Bytes), b.size = n →
    Sized n (w.rows visit m x excess b)
  | 0, _, _, _, h => Ensures.ok h
  | y + 1, x, excess, b, h => by
    rw [rows]
    apply Ensures.bind (sized_advance hpoint w y x excess b h)
    intro r h
    apply Ensures.bind_any
    intro _
    apply Ensures.bind_any
    intro e
    refine Ensures.bind (hpoint _ _ _ h) (fun _ h => Ensures.bind (hrow _ _ _ h) (fun c h => ?_))
    exact sized_rows w y r.1 e c h

include hpoint hrow in
theorem sized_run (w : QuadrantWalk) (height : Nat) (excess : Int) (b : Bytes) (h : b.size = n) :
    Sized n (w.run visit height excess b) := sized_rows hpoint hrow w _ _ _ _ h

end QuadrantWalk

namespace Frame
variable {f : Frame} {b : Bytes} {n : Nat}

theorem sized_plotQuadrants (h : b.size = n) (q : Quadrants) (xc yc : Int) (v : Pixel) (x y : Int) :
    Sized n (f.plotQuadrants q xc yc v x y b) := by
  have hw : ∀ (c : Bool) (x y : Int) (b : Bytes), b.size = n →
      Sized n (if c then f.writeClipped x y v b else .ok b) := fun c x y b h =>
    Ensures.ite (fun _ => sized_writeClipped h ..) (fun _ => Ensures.ok h)
  refine Ensures.bind (hw _ _ _ _ h) (fun _ h => Ensures.bind (hw _ _ _ _ h) (fun _ h => ?_))
  exact Ensures.bind (hw _ _ _ _ h) (fun _ h => hw _ _ _ _ h)

theorem sized_plotRows (h : b.size = n) (xc yc : Int) (v : Pixel) (x y : Int) :
    Sized n (f.plotRows xc yc v x y b) :=
  Ensures.bind (sized_spanRow h ..) (fun _ h => sized_spanRow h ..)

theorem sized_run_outline (h : b.size = n) (w : QuadrantWalk) (q : Quadrants) (xc yc : Int)
    (v : Pixel) (height : Nat) (excess : Int) :
    Sized n (w.run (f.outlineVisitor q xc yc v) height excess b) :=
  QuadrantWalk.sized_run (fun _ _ _ h => sized_plotQuadrants h ..)
    (fun _ _ b h => (Ensures.ok h : Sized n (.ok b)))
    w _ _ _ h

theorem sized_run_inside (h : b.size = n) (w : QuadrantWalk) (xc yc : Int) (v : Pixel)
    (height : Nat) (excess : Int) :
    Sized n (w.run (f.insideVisitor xc yc v) height excess b) :=
  QuadrantWalk.sized_run (fun _ _ b h => (Ensures.ok h : Sized n (.ok b)))
    (fun _ _ _ h => sized_plotRows h ..)
    w _ _ _ h

theorem sized_arcs (h : b.size = n) (q : Quadrants) (xc yc : Int) (r : Nat) (v : Pixel) :
    Sized n (f.arcs q xc yc r v b) := by
  refine Ensures.ite (fun _ => Ensures.ok h) (fun _ => Ensures.ite (fun _ => ?_) (fun _ => ?_))
  · exact sized_writeClipped h ..
  · exact Ensures.ite (fun _ => Ensures.ok h) (fun _ => sized_run_outline h ..)

theorem sized_disc (h : b.size = n) (xc yc : Int) (r : Nat) (v : Pixel) :
    Sized n (f.disc xc yc r v b) :=
  Ensures.ite (fun _ => Ensures.ok h) (fun _ => sized_run_inside h ..)

theorem sized_walkEllipse (h : b.size = n) (xc yc : Int) (a c : Nat) {visit : Visitor Bytes}
    (hv : ∀ (w : QuadrantWalk) (height : Nat) (excess : Int), Sized n (w.run visit height excess b))
    (v : Pixel) : Sized n (f.walkEllipse xc yc a c visit v b) := by
  unfold walkEllipse
  split
  · exact sized_spanColumn h ..
  · exact sized_spanRow h ..
  · exact Ensures.ite (fun _ => Ensures.ok h) (fun _ => hv ..)

theorem sized_ellipse (h : b.size = n) (c : Point) (s t : UInt32) (v : Pixel) :
    Sized n (f.ellipse c s t v b) :=
  Ensures.bind_any (fun _ => sized_walkEllipse h _ _ _ _ (fun _ _ _ => sized_run_outline h ..) v)

theorem sized_fillEllipse (h : b.size = n) (c : Point) (s t : UInt32) (v : Pixel) :
    Sized n (f.fillEllipse c s t v b) :=
  Ensures.bind_any (fun _ => sized_walkEllipse h _ _ _ _ (fun _ _ _ => sized_run_inside h ..) v)

/-! Polygons. -/

theorem sized_outline (h : b.size = n) (ps : List (Int × Int)) (v : Pixel) :
    Sized n (f.outline ps v b) :=
  Ensures.foldlM (fun _ _ h => sized_segment h ..) _ _ h

theorem sized_levelEdges (h : b.size = n) (ps : List (Int × Int)) (v : Pixel) :
    Sized n (f.levelEdges ps v b) :=
  Ensures.foldlM (fun _ _ h => Ensures.ite (fun _ => sized_spanRow h ..) (fun _ => Ensures.ok h)) _ _ h

theorem sized_fillPairs (y : Int) (v : Pixel) :
    ∀ (spans : List Span) {b : Bytes}, b.size = n → Sized n (f.fillPairs y v spans b)
  | [], _, h => Ensures.ok h
  | [_], _, h => Ensures.ok h
  | _ :: _ :: rest, _, h => Ensures.bind (sized_spanRow h ..) (fun _ h => sized_fillPairs y v rest h)

theorem sized_inside (h : b.size = n) (ps : List (Int × Int)) (v : Pixel) :
    Sized n (f.inside ps v b) := by
  unfold inside
  split
  · exact Ensures.ok h
  · exact sized_writeClipped h ..
  · exact sized_segment h ..
  · apply Ensures.bind (sized_levelEdges h ..)
    intro _ h
    exact Ensures.forRange (fun _ _ h => sized_fillPairs _ _ _ h) h

theorem sized_polygon (h : b.size = n) (ps : List Point) (v : Pixel) :
    Sized n (f.polygon ps v b) :=
  Ensures.bind_any (fun _ => sized_outline h ..)

theorem sized_fillPolygon (h : b.size = n) (ps : List Point) (v : Pixel) :
    Sized n (f.fillPolygon ps v b) :=
  Ensures.bind_any (fun _ => sized_inside h ..)

/-! Partial coverage. -/

theorem sized_mixRaw (h : b.size = n) (x y : Int) (v : Pixel) (weight : UInt8) :
    Sized n (f.mixRaw x y v weight b) :=
  Ensures.ite (fun _ => Ensures.ok h) (fun _ => Ensures.bind_any (fun _ => sized_writeRaw h ..))

theorem sized_area (h : b.size = n) (x0 y0 x1 y1 : Int) (v : Pixel) :
    Sized n (f.area x0 y0 x1 y1 v b) := by
  apply Ensures.bind_any
  intro _
  apply Ensures.bind_any
  intro _
  refine Ensures.bind_any (fun _ => Ensures.bind_any (fun _ => Ensures.forRange (fun _ c h => ?_) h))
  refine Ensures.bind_any (fun _ => Ensures.ite (fun _ => Ensures.ok h) (fun _ => ?_))
  exact Ensures.forRange (fun _ _ h => Ensures.bind_any (fun _ => sized_mixRaw h ..)) h

theorem sized_mixAlong (h : b.size = n) (steep : Bool) (major minor : Int) (v : Pixel)
    (weight : UInt8) : Sized n (f.mixAlong steep major minor v weight b) :=
  Ensures.ite (fun _ => sized_mixRaw h ..) (fun _ => sized_mixRaw h ..)

theorem sized_mixStep (h : b.size = n) (s : Slant) (length rise : Int) (minorSize : Nat)
    (v : Pixel) (i : Int) : Sized n (s.mixStep f length rise minorSize v i b) := by
  refine Ensures.bind_any (fun _ => Ensures.ite (fun _ => Ensures.ok h) (fun _ => ?_))
  refine Ensures.bind_any (fun _ => Ensures.ite (fun _ => Ensures.ok h) (fun _ => ?_))
  refine Ensures.bind_any (fun _ => Ensures.bind (sized_mixAlong h ..) (fun _ h => ?_))
  exact sized_mixAlong h ..

theorem sized_slant (h : b.size = n) (x0 y0 x1 y1 : Int) (v : Pixel) :
    Sized n (f.slant x0 y0 x1 y1 v b) := by
  refine Ensures.bind_any (fun _ => Ensures.bind_any (fun _ => Ensures.bind_any (fun _ => ?_)))
  refine Ensures.ite (fun _ => Ensures.ok h) (fun _ => ?_)
  apply Ensures.bind_any
  intro _
  apply Ensures.bind_any
  intro _
  exact Ensures.forRange (fun _ _ h => sized_mixStep h ..) h

theorem sized_softRow (h : b.size = n) (x0 x1 y : Int) (v : Pixel) :
    Sized n (f.softRow x0 x1 y v b) :=
  Ensures.bind_any (fun _ => Ensures.bind_any (fun _ => sized_area h ..))

theorem sized_softColumn (h : b.size = n) (x y0 y1 : Int) (v : Pixel) :
    Sized n (f.softColumn x y0 y1 v b) :=
  Ensures.bind_any (fun _ => Ensures.bind_any (fun _ => sized_area h ..))

theorem sized_softBox (h : b.size = n) (x0 y0 x1 y1 : Int) (v : Pixel) :
    Sized n (f.softBox x0 y0 x1 y1 v b) :=
  Ensures.bind_any (fun _ => Ensures.bind_any (fun _ =>
    Ensures.bind_any (fun _ => Ensures.bind_any (fun _ => sized_area h ..))))

theorem sized_softPoint (h : b.size = n) (x y : Int64) (v : Pixel) :
    Sized n (f.softPoint x y v b) := Ensures.bind_any (fun _ => sized_softBox h ..)

theorem sized_softHline (h : b.size = n) (x0 x1 y : Int64) (v : Pixel) :
    Sized n (f.softHline x0 x1 y v b) :=
  Ensures.bind_any (fun _ => Ensures.bind_any (fun _ =>
    Ensures.ite (fun _ => sized_softColumn h ..) (fun _ => sized_softRow h ..)))

theorem sized_softVline (h : b.size = n) (x y0 y1 : Int64) (v : Pixel) :
    Sized n (f.softVline x y0 y1 v b) :=
  Ensures.bind_any (fun _ => Ensures.bind_any (fun _ =>
    Ensures.ite (fun _ => sized_softRow h ..) (fun _ => sized_softColumn h ..)))

theorem sized_softLine (h : b.size = n) (x0 y0 x1 y1 : Int64) (v : Pixel) :
    Sized n (f.softLine x0 y0 x1 y1 v b) :=
  Ensures.bind_any (fun _ => Ensures.bind_any (fun _ => sized_slant h ..))

theorem sized_softRectAt (h : b.size = n) (x0 y0 x1 y1 : Int) (v : Pixel) :
    Sized n (f.softRectAt x0 y0 x1 y1 v b) :=
  Ensures.bind_any (fun _ => Ensures.bind_any (fun _ => sized_softBox h ..))

theorem sized_softRectOf (h : b.size = n) (x y w k : Int64) (v : Pixel) :
    Sized n (f.softRectOf x y w k v b) :=
  Ensures.ite (fun _ => Ensures.ok h)
    (fun _ => Ensures.bind_any (fun _ => Ensures.bind_any (fun _ => sized_softRectAt h ..)))

/-! Copies. -/

theorem sized_blitRows (h : b.size = n) (src : Pixmap) (r : BlitRect) :
    Sized n (f.blitRows src r b) := by
  refine Ensures.forRange (fun _ c h => ?_) h
  refine Ensures.ite (fun _ => Ensures.ok ?_) (fun _ => Ensures.error ..)
  rw [Bytes.size_copyRun, h]

theorem sized_blitPixels (h : b.size = n) (rows columns : Int) (r : BlitRect)
    {get : Int32 → Int32 → Except Fault Pixel}
    {put : Int32 → Int32 → Pixel → Bytes → Except Fault Bytes}
    (hput : ∀ (x y : Int32) (v : Pixel) (b : Bytes), b.size = n → Sized n (put x y v b)) :
    Sized n (blitPixels rows columns r get put b) := by
  refine Ensures.forRange (fun _ _ h => Ensures.forRange (fun _ _ h => ?_) h) h
  refine Ensures.bind_any (fun _ => Ensures.bind_any (fun _ => Ensures.bind_any (fun _ => ?_)))
  exact Ensures.bind_any (fun _ => Ensures.bind_any (fun _ => hput _ _ _ _ h))

theorem sized_blitRaw (h : b.size = n) (src : Pixmap) (r : BlitRect) :
    Sized n (f.blitRaw src r b) :=
  Ensures.ite (fun _ => sized_blitRows h ..)
    (fun _ => sized_blitPixels h _ _ _ (fun _ _ _ _ h => sized_writeRaw h ..))

theorem sized_blitUser (h : b.size = n) (src : Pixmap) (r : BlitRect) :
    Sized n (f.blitUser src r b) :=
  Ensures.ite (fun _ => sized_blitRaw h ..)
    (fun _ => sized_blitPixels h _ _ _ (fun _ _ _ _ h => sized_write h ..))

theorem sized_blitClipped (h : b.size = n) (src : Pixmap) (p q dest : Point) :
    Sized n (f.blitClipped src p q dest b) := by
  unfold blitClipped
  split
  · exact sized_blitUser h ..
  · exact Ensures.ok h

theorem sized_blitClippedOf (h : b.size = n) (src : Pixmap) (p : Point) (w k : UInt32)
    (dest : Point) : Sized n (f.blitClippedOf src p w k dest b) :=
  Ensures.ite (fun _ => Ensures.ok h) (fun _ => sized_blitClipped h ..)

theorem sized_takeRows (h : b.size = n) (src : Pixmap) : Sized n (f.takeRows src b) := by
  refine Ensures.forRange (fun _ c h => Ensures.bind_any (fun _ => ?_)) h
  refine Ensures.ite (fun _ => Ensures.ok ?_) (fun _ => Ensures.error ..)
  rw [Bytes.size_copyRun, h]

theorem sized_takePixels (h : b.size = n) (src : Pixmap) : Sized n (f.takePixels src b) :=
  Ensures.forRange (fun _ _ h => Ensures.forRange
    (fun _ _ h => Ensures.bind_any (fun _ => sized_writeRaw h ..)) h) h

end Frame

/-! Scenes. -/

theorem Shape.sized_paint (s : Shape) {f : Frame} {b : Bytes} {n : Nat} (h : b.size = n) :
    Sized n (s.paint f b) := by
  cases s with
  | line => exact Frame.sized_line h ..
  | thickLine => exact Frame.sized_thickLine h ..
  | rect => exact Frame.sized_byCorners Frame.sized_border h ..
  | fillRect => exact Frame.sized_byCorners Frame.sized_box h ..
  | circle => exact Ensures.bind_any (fun _ => Frame.sized_arcs h ..)
  | fillCircle => exact Ensures.bind_any (fun _ => Frame.sized_disc h ..)
  | circleSegments => exact Ensures.bind_any (fun _ => Frame.sized_arcs h ..)
  | ellipse => exact Frame.sized_ellipse h ..
  | fillEllipse => exact Frame.sized_fillEllipse h ..
  | triangle =>
    exact Ensures.ite (fun _ => Frame.sized_fillPolygon h ..) (fun _ => Frame.sized_polygon h ..)
  | polygon =>
    exact Ensures.ite (fun _ => Frame.sized_fillPolygon h ..) (fun _ => Frame.sized_polygon h ..)
  | softLine => exact Frame.sized_softLine h ..
  | checker =>
    simp only [paint]
    split
    · exact Frame.sized_blitClippedOf h ..
    · exact Ensures.ok h
    · exact Ensures.error ..

theorem Scene.sized_paint (s : Scene) {f : Frame} {b : Bytes} {n : Nat} (h : b.size = n) :
    Sized n (s.paint f b) :=
  Ensures.bind (Frame.sized_fill h ..)
    (fun _ h => Ensures.foldlM (fun _ shape h => shape.sized_paint h) _ _ h)

end Raster
