import Raster.Proofs.UserSpace

/- Single pixels by user coordinates. In whatever storage scheme and orientation, setting
   a pixel and getting pixels behave like a map from the points of the user size to
   values of `bpp` bits (`Pixmap.write_sets`): the point set reads as what was stored, all
   other points read as before, and outside of its own `bpp` bits the buffer stays as it
   was. Points outside of the user size read as zero and setting them changes nothing. -/
namespace Raster

namespace Pixmap

/-- From `p` to `q` the user point `t` takes the value `v`, and nothing else changes. -/
structure Sets (p q : Pixmap) (t : Point) (v : Pixel) : Prop where
  frame_eq : q.toFrame = p.toFrame
  size_eq : q.bytes.size = p.bytes.size
  get_self : q.get t = .ok (UInt32.ofNat (v.toNat % 2 ^ p.bpp))
  get_other : ∀ u, u ≠ t → q.get u = p.get u
  /-- No bit of the buffer changes but the `bpp` bits of the pixel. -/
  bit_eq : ∃ x y, p.rawPoint t.x.toInt t.y.toInt = .ok (x, y) ∧
    ∀ i, ¬ p.Owns x.toNat y.toNat i → q.bytes.bit i = p.bytes.bit i

section Paints
variable {p : Pixmap} {t : Point} {v : Pixel} {c : Bytes} (hp : p.Addressable)
  (hpaint : p.Paints (fun x y => (x, y) = p.toRaw t.x.toInt t.y.toInt) (fun _ _ => p.stored v)
    p.bytes c)
include hp hpaint

theorem sets_of_paints (ht : p.ContainsUser t.x.toInt t.y.toInt) :
    p.Sets { p with bytes := c } t v := by
  refine ⟨rfl, hpaint.keeps.size_eq, hp.get_painted hpaint ht rfl, ?_, ?_⟩
  · intro u hu
    apply hp.get_unpainted hpaint
    intro _ he
    obtain ⟨hux, huy⟩ := p.toRaw_inj.1 he
    exact hu (Point.ext_toInt hux huy)
  · refine ⟨_, _, p.rawPoint_point t, fun i hi => hpaint.bit_eq hp.toValid ?_⟩
    intro x y _ he ho
    obtain ⟨rfl, rfl⟩ := Prod.mk.inj he
    exact hi ho

theorem eq_of_paints_outside (ht : ¬ p.ContainsUser t.x.toInt t.y.toInt) : c = p.bytes := by
  rw [hpaint.eq_iff hp.toValid]
  intro x y hxy he
  refine absurd ((p.contains_toRaw _ _).1 ?_) ht
  rw [← he]
  exact hxy

end Paints

/-- Setting a pixel always answers. A point of the user size then holds the low `bpp` bits of the
value, at other points nothing happens and zero is read. -/
theorem write_sets {p : Pixmap} (hp : p.Addressable) (t : Point) (v : Pixel) :
    Yields (p.draw .user fun f b => f.write t v b) (fun q =>
      if p.ContainsUser t.x.toInt t.y.toInt then p.Sets q t v else q = p ∧ q.get t = .ok 0) := by
  obtain ⟨c, hc, hpaint⟩ := Frame.Addressable.user_write_paints hp t v
  refine ⟨{ p with bytes := c }, p.draw_ok hc, ?_⟩
  dsimp only
  by_cases ht : p.ContainsUser t.x.toInt t.y.toInt
  · rw [if_pos ht]
    exact sets_of_paints hp hpaint ht
  · have hsame : c = p.bytes := eq_of_paints_outside hp hpaint ht
    subst hsame
    rw [if_neg ht, hp.get_eq, if_neg ht]
    exact ⟨rfl, rfl⟩

/-- In a turned view a pixel of 18 bits takes the last two bits of one byte and all of the next two. -/
theorem write_sets_turned : ∃ p q : Pixmap, p.Addressable ∧
    (p.draw .user fun f b => f.write ⟨0, 1⟩ 0xffffffff b) = .ok q ∧
      p.Sets q ⟨0, 1⟩ 0xffffffff ∧ q.bytes = #[0, 0xe5, 0xff, 0xff, 0xa5, 0xa5, 0xa5] := by
  let p : Pixmap := ⟨⟨1, 2, 1, 6, 6, .rgb666, ⟨true, true, false⟩, none⟩,
    #[0, 0xa5, 0xa5, 0xa5, 0xa5, 0xa5, 0xa5]⟩
  have hp : p.Addressable := by
    refine ⟨⟨?_, ?_, ?_, ?_, ?_, ?_, ?_⟩, ?_, ?_⟩ <;> decide
  obtain ⟨q, hq, hsets⟩ := write_sets hp ⟨0, 1⟩ 0xffffffff
  rw [if_pos (by decide)] at hsets
  refine ⟨p, q, hp, hq, hsets, ?_⟩
  have hb : (p.draw .user fun f b => f.write ⟨0, 1⟩ 0xffffffff b) =
      .ok { p with bytes := #[0, 0xe5, 0xff, 0xff, 0xa5, 0xa5, 0xa5] } := by rfl
  rw [hb] at hq
  cases hq
  rfl

end Pixmap

end Raster
