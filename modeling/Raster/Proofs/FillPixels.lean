import Mathlib.Tactic.IntervalCases
import Raster.Proofs.Colouring
import Raster.Proofs.Fill

/- Filling pixel by pixel. Setting the pixels of a list of raw points paints these points
   (`Addressable.writes_paints`), and what is painted fixes the buffer. So a fill leaves
   the very buffer that setting every pixel leaves, in whatever order that is done, although
   its fast ways write whole bytes and rows (`fill_every_pixel`). -/
namespace Raster

namespace Frame
variable {f : Frame} {b : Bytes}

/-- Setting pixels one after the other paints their points. -/
theorem Addressable.writes_paints (hf : f.Addressable b.size) (v : Pixel) {l : List Point}
    (hl : ∀ t ∈ l, f.Contains t.x.toInt t.y.toInt) :
    Yields (l.foldlM (fun b t => f.writeRaw t.x t.y v b) b)
      (f.Paints (fun x y => ∃ t ∈ l, x = t.x.toInt ∧ y = t.y.toInt) (fun _ _ => f.stored v) b) := by
  apply Paints.foldlM
  intro t ht c hc
  exact (hc ▸ hf : f.Addressable c.size).toValid.writeRaw_paints t.x t.y (hl t ht) v

/-- A list of all points paints the whole frame. -/
theorem Addressable.writes_all (hf : f.Addressable b.size) (v : Pixel) {l : List Point}
    (hl : ∀ t : Point, t ∈ l ↔ f.Contains t.x.toInt t.y.toInt) :
    Yields (l.foldlM (fun b t => f.writeRaw t.x t.y v b) b)
      (f.Paints (fun _ _ => True) (fun _ _ => f.stored v) b) := by
  refine (hf.writes_paints v (fun t ht => (hl t).1 ht)).mono (fun c hc => hc.area ?_)
  intro x y hxy
  obtain ⟨hx, hy⟩ := hf.toInt_ofInt hxy
  refine iff_of_true ⟨⟨.ofInt x, .ofInt y⟩, (hl _).2 ?_, hx.symm, hy.symm⟩ trivial
  dsimp only
  rw [hx, hy]
  exact hxy

end Frame

namespace Pixmap

/-- A fill always answers. All pixels then hold the low bits of the value and no bit between them
has changed, and the buffer is the one that is left when every pixel is set, row by row or in the
order of any list of the points. -/
theorem fill_every_pixel {p : Pixmap} (hp : p.Addressable) (v : Pixel) :
    Yields (p.draw .user fun f b => f.fill v b) (fun q =>
      p.Colours .user (fun _ _ => True) v q ∧
      (p.draw .user fun f b => f.fillFrom 0 v b) = .ok q ∧
      ∀ l : List Point, (∀ t : Point, t ∈ l ↔ p.Contains t.x.toInt t.y.toInt) →
        (p.draw .user fun f b => l.foldlM (fun b t => f.writeRaw t.x t.y v b) b) = .ok q) := by
  obtain ⟨c, hc, hfill⟩ := Frame.Addressable.fill_paints hp v
  have hcolours : Yields (p.draw .user fun f b => f.fill v b)
      (p.Colours .user (fun _ _ => True) v) :=
    hp.draw_colours ⟨c, hc, hfill⟩ (fun _ _ _ => Iff.rfl)
  -- whatever paints all pixels with the value leaves the buffer that the fill leaves
  have hsame : ∀ paint : Frame → Bytes → Except Fault Bytes,
      Yields (paint p.toFrame p.bytes)
        (p.Paints (fun _ _ => True) (fun _ _ => p.stored v) p.bytes) →
      p.draw .user paint = p.draw .user fun f b => f.fill v b := by
    intro paint hpaint
    obtain ⟨d, hd, hpaint⟩ := hpaint
    have hdraw : p.draw .user paint = .ok { p with bytes := d } := p.draw_ok hd
    rw [hdraw, ← hfill.unique hp.toValid hpaint]
    exact (p.draw_ok hc).symm
  obtain ⟨q, hq, hcolours⟩ := hcolours
  refine ⟨q, hq, hcolours, (hsame _ ?_).trans hq, fun l hl => (hsame _ ?_).trans hq⟩
  · apply (Frame.Addressable.fillFrom_paints hp (Int.le_refl 0) v).mono
    intro d hd
    exact hd.area (fun x y hxy => iff_of_true hxy.1 trivial)
  · exact Frame.Addressable.writes_all hp v hl

/-- In a turned view two rows of five pixels of two bits are filled, column by column as well. The
bits behind the rows stay. -/
theorem fill_every_pixel_turned : ∃ p q : Pixmap, ∃ l : List Point, p.Addressable ∧
    (∀ t : Point, t ∈ l ↔ p.Contains t.x.toInt t.y.toInt) ∧
    (p.draw .user fun f b => f.fill 9 b) = .ok q ∧ p.Colours .user (fun _ _ => True) 9 q ∧
    (p.draw .user fun f b => l.foldlM (fun b t => f.writeRaw t.x t.y 9 b) b) = .ok q ∧
    q.bytes = #[0xff, 0x55, 0xfd, 0xff, 0x55, 0xfd, 0xff] := by
  let p : Pixmap := ⟨⟨1, 5, 2, 3, 0, .g2db, ⟨true, false, true⟩, none⟩,
    #[0xff, 0xff, 0xff, 0xff, 0xff, 0xff, 0xff]⟩
  let l : List Point :=
    [⟨0, 0⟩, ⟨0, 1⟩, ⟨1, 0⟩, ⟨1, 1⟩, ⟨2, 0⟩, ⟨2, 1⟩, ⟨3, 0⟩, ⟨3, 1⟩, ⟨4, 0⟩, ⟨4, 1⟩]
  have hp : p.Addressable := by
    refine ⟨⟨?_, ?_, ?_, ?_, ?_, ?_, ?_⟩, ?_, ?_⟩ <;> decide
  have hl : ∀ t : Point, t ∈ l ↔ p.Contains t.x.toInt t.y.toInt := by
    intro t
    constructor
    · revert t
      decide
    · intro ht
      obtain ⟨hx₀, hy₀, hx₁, hy₁⟩ := ht
      have hx₁ : t.x.toInt < 5 := hx₁
      have hy₁ : t.y.toInt < 2 := hy₁
      have ht : t = ⟨.ofInt t.x.toInt, .ofInt t.y.toInt⟩ := by
        rw [Int32.ofInt_toInt, Int32.ofInt_toInt]
      rw [ht]
      generalize t.x.toInt = x at *
      generalize t.y.toInt = y at *
      interval_cases x <;> interval_cases y <;> decide
  obtain ⟨q, hq, hcolours, -, hlist⟩ := fill_every_pixel hp 9
  refine ⟨p, q, l, hp, hl, hq, hcolours, hlist l hl, ?_⟩
  have hb : (p.draw .user fun f b => f.fill 9 b) =
      .ok { p with bytes := #[0xff, 0x55, 0xfd, 0xff, 0x55, 0xfd, 0xff] } := by rfl
  rw [hb] at hq
  cases hq
  rfl

end Pixmap

end Raster
