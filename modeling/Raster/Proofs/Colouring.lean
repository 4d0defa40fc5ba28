import Raster.Blit
import Raster.Proofs.UserSpace

/- Drawings of one colour. `Pixmap.Colours p s S v q` is the exact effect of a drawing
   with pixel `v`, in coordinates of space `s`: the points of `S` that lie in the pixmap
   read as `v`, all others as before, and no bit between the pixels changes. It is what
   painting raw points looks like from outside (`Addressable.draw_colours`). What is
   coloured may pass for a part of it just where the rest had the colour before
   (`Colours.part_iff`). -/
namespace Raster

theorem Frame.stored_seen (f : Frame) (s : Space) (v : Pixel) : (f.seen s).stored v = f.stored v := by
  cases s <;> rfl

namespace Pixmap

theorem Addressable.seen {p : Pixmap} (hp : p.Addressable) (s : Space) : (p.seen s).Addressable :=
  Frame.Addressable.seen hp s

/-- The point `x`, `y` of space `s` lies in the pixmap. -/
def Holds (p : Pixmap) (s : Space) (x y : Int) : Prop := (p.toFrame.seen s).ContainsUser x y

instance (p : Pixmap) (s : Space) (x y : Int) : Decidable (p.Holds s x y) :=
  inferInstanceAs (Decidable (Frame.ContainsUser ..))

/-- From `p` to `q` the points of `S` in the pixmap take the value `v`, and nothing else changes. -/
structure Colours (p : Pixmap) (s : Space) (S : Int → Int → Prop) (v : Pixel) (q : Pixmap) :
    Prop where
  frame_eq : q.toFrame = p.toFrame
  /-- No bit changes that belongs to no pixel. -/
  keeps : p.Keeps p.bytes q.bytes
  get_in : ∀ t : Point, p.Holds s t.x.toInt t.y.toInt → S t.x.toInt t.y.toInt →
    (q.seen s).get t = .ok (UInt32.ofNat (v.toNat % 2 ^ p.bpp))
  get_out : ∀ t : Point, ¬ (p.Holds s t.x.toInt t.y.toInt ∧ S t.x.toInt t.y.toInt) →
    (q.seen s).get t = (p.seen s).get t

variable {p q : Pixmap} {s : Space} {S T : Int → Int → Prop} {v : Pixel}

/-- A drawing that paints raw points colours the points whose raw points they are. -/
theorem Addressable.draw_colours (hp : p.Addressable) {paint : Frame → Bytes → Except Fault Bytes}
    (hpaint : Yields (paint (p.toFrame.seen s) p.bytes)
      ((p.toFrame.seen s).Paints S (fun _ _ => (p.toFrame.seen s).stored v) p.bytes))
    (hS : ∀ x y, p.Holds s x y →
      (S ((p.toFrame.seen s).toRaw x y).1 ((p.toFrame.seen s).toRaw x y).2 ↔ T x y)) :
    Yields (p.draw s paint) (p.Colours s T v) := by
  obtain ⟨c, hc, hpaint⟩ := hpaint
  rw [Frame.stored_seen] at hpaint
  refine ⟨{ p with bytes := c }, p.draw_ok hc, rfl, ?_, fun t ht hT => ?_, fun t hT => ?_⟩
  · cases s with
    | user => exact hpaint.keeps
    | raw => exact ⟨hpaint.keeps.size_eq, hpaint.keeps.bit_eq⟩
  · exact (hp.seen s).get_painted hpaint ht ((hS _ _ ht).2 hT)
  · exact (hp.seen s).get_unpainted hpaint (fun ht hin => hT ⟨ht, (hS _ _ ht).1 hin⟩)

/-- Colouring `S` is colouring the part `T` of it just if the rest has the colour already. -/
theorem Colours.part_iff (hq : p.Colours s S v q) (hT : ∀ x y, p.Holds s x y → T x y → S x y) :
    p.Colours s T v q ↔ ∀ t : Point, p.Holds s t.x.toInt t.y.toInt → S t.x.toInt t.y.toInt →
      ¬ T t.x.toInt t.y.toInt → (p.seen s).get t = .ok (UInt32.ofNat (v.toNat % 2 ^ p.bpp)) := by
  constructor
  · intro hq' t ht hin hout
    rw [← hq'.get_out t (fun h => hout h.2)]
    exact hq.get_in t ht hin
  · intro hrest
    refine ⟨hq.frame_eq, hq.keeps, fun t ht hin => hq.get_in t ht (hT _ _ ht hin), fun t hout => ?_⟩
    by_cases hin : p.Holds s t.x.toInt t.y.toInt ∧ S t.x.toInt t.y.toInt
    · rw [hq.get_in t hin.1 hin.2, hrest t hin.1 hin.2 (fun h => hout ⟨hin.1, h⟩)]
    · exact hq.get_out t hin

end Pixmap

end Raster
