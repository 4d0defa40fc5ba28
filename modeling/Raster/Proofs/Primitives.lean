import Raster.Proofs.Curves
import Raster.Proofs.Drawing

/- The plain primitives as a whole. Every drawing with any arguments answers on every
   addressable pixmap, and it only inks (`Pixmap.draw_inks`). -/
namespace Raster

namespace Drawing

theorem paint_draws (w : Drawing) (v : Pixel) {f : Frame} {b : Bytes} (hf : f.Addressable b.size) :
    f.Draws v b (w.paint v f b) := by
  cases w with
  | fill => exact hf.fill_draws v rfl
  | pixel p => exact hf.write_draws v rfl p
  | clippedPixel x y => exact hf.writeClipped_draws v rfl x y
  | hline x0 x1 y => exact hf.hline_draws v rfl x0 x1 y
  | hlineOf x y w => exact hf.hlineOf_draws v rfl x y w
  | vline x y0 y1 => exact hf.vline_draws v rfl x y0 y1
  | vlineOf x y h => exact hf.vlineOf_draws v rfl x y h
  | line p q => exact hf.line_draws v rfl p q
  | thickLine p q r => exact hf.thickLine_draws v rfl p q r
  | rect p q => exact hf.rect_draws v rfl p q
  | rectOf p w h => exact hf.rectOf_draws v rfl p w h
  | fillRect p q => exact hf.fillRect_draws v rfl p q
  | fillRectOf p w h => exact hf.fillRectOf_draws v rfl p w h
  | circle c r => exact hf.circle_draws v rfl c r
  | fillCircle c r => exact hf.fillCircle_draws v rfl c r
  | circleSegments c r q => exact hf.circleSegments_draws v rfl c r q
  | ellipse c s t => exact hf.ellipse_draws v rfl c s t
  | fillEllipse c s t => exact hf.fillEllipse_draws v rfl c s t
  | triangle p q r => exact hf.polygon_draws v rfl [p, q, r]
  | fillTriangle p q r => exact hf.fillPolygon_draws v rfl [p, q, r]
  | polygon ps => exact hf.polygon_draws v rfl ps
  | fillPolygon ps => exact hf.fillPolygon_draws v rfl ps

end Drawing

namespace Pixmap

/-- In either space every plain primitive with any arguments is drawn. Afterwards every pixel has its
old value or the low bits of the drawn one, and all bits between the pixels are as before. -/
theorem draw_inks {d : Pixmap} (hd : d.Addressable) (s : Space) (w : Drawing) (v : Pixel) :
    ∃ e, d.draw s (w.paint v) = .ok e ∧ e.toFrame = d.toFrame ∧ d.Inks v d.bytes e.bytes := by
  obtain ⟨c, hc, hinks⟩ := w.paint_draws v (Frame.Addressable.seen hd s)
  refine ⟨{ d with bytes := c }, d.draw_ok hc, rfl, ?_⟩
  cases s with
  | user => exact hinks
  | raw => exact ⟨⟨hinks.keeps.size_eq, hinks.keeps.bit_eq⟩, hinks.pixel_eq⟩

/-- The longest diagonal there is crosses the corner of a turned view that starts inside a byte. -/
theorem draw_inks_diagonal : ∃ d e : Pixmap, d.Addressable ∧
    d.draw .user ((Drawing.line ⟨-0x80000000, -0x80000000⟩ ⟨0x7fffffff, 0x7fffffff⟩).paint 2) = .ok e ∧
      d.Inks 2 d.bytes e.bytes ∧ d.bytes = #[0xff, 0x1b, 0x1b, 0x1b, 0x1b, 0x1b, 0x1b, 0xff] ∧
        e.bytes = #[0xff, 0x1b, 0x9b, 0x1a, 0x1b, 0x1b, 0x1b, 0xff] := by
  let d : Pixmap := ⟨⟨1, 5, 3, 2, 4, .g2ub, ⟨true, false, true⟩, none⟩,
    #[0xff, 0x1b, 0x1b, 0x1b, 0x1b, 0x1b, 0x1b, 0xff]⟩
  have hd : d.Addressable := by
    refine ⟨⟨?_, ?_, ?_, ?_, ?_, ?_, ?_⟩, ?_, ?_⟩ <;> decide
  obtain ⟨e, he, -, hinks⟩ :=
    draw_inks hd .user (.line ⟨-0x80000000, -0x80000000⟩ ⟨0x7fffffff, 0x7fffffff⟩) 2
  refine ⟨d, e, hd, he, hinks, rfl, ?_⟩
  have hbytes : d.draw .user
      ((Drawing.line ⟨-0x80000000, -0x80000000⟩ ⟨0x7fffffff, 0x7fffffff⟩).paint 2) =
        .ok { d with bytes := #[0xff, 0x1b, 0x9b, 0x1a, 0x1b, 0x1b, 0x1b, 0xff] } := by rfl
  rw [hbytes] at he
  cases he
  rfl

end Pixmap

end Raster
