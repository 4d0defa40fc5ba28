import Raster.Proofs.Blit
import Raster.Proofs.Colouring

/- Checked copies. A rectangle fits just if each of its points lies in the source and the
   copy of each in the destination (`fits_iff`), in user coordinates or in raw ones. Such
   a copy always succeeds and changes the bits of the copied pixels only; any other is
   refused with its ordered corners, before the destination is touched
   (`Pixmap.blit_exact`). -/
namespace Raster

namespace BlitRect

/-- Every point of the rectangle lies in the source, and its copy in `f`. -/
def Inside (r : BlitRect) (src : Pixmap) (f : Frame) : Prop :=
  ∀ x y, r.x0 ≤ x → x ≤ r.x1 → r.y0 ≤ y → y ≤ r.y1 →
    src.ContainsUser x y ∧ f.ContainsUser (r.x2 + (x - r.x0)) (r.y2 + (y - r.y0))

/-- From `d` to `e` the copy of the rectangle takes the converted pixels of the source, and no bit
changes that belongs to no pixel of the copy. -/
structure Copied (r : BlitRect) (s : Space) (src d e : Pixmap) : Prop where
  frame_eq : e.toFrame = d.toFrame
  size_eq : e.bytes.size = d.bytes.size
  get_eq : ∀ i j, 0 ≤ i → i ≤ r.x1 - r.x0 → 0 ≤ j → j ≤ r.y1 - r.y0 → ∃ u t : Point,
    (u.x.toInt = r.x0 + i ∧ u.y.toInt = r.y0 + j) ∧
    (t.x.toInt = r.x2 + i ∧ t.y.toInt = r.y2 + j) ∧
    ∃ v, (src.seen s).get u = .ok v ∧
      (e.seen s).get t = .ok (src.pixelType.convert v d.pixelType)
  bit_eq : ∀ k, (∀ i j x y, 0 ≤ i → i ≤ r.x1 - r.x0 → 0 ≤ j → j ≤ r.y1 - r.y0 →
    (x, y) = (d.toFrame.seen s).toRaw (r.x2 + i) (r.y2 + j) → ¬ d.Owns x.toNat y.toNat k) →
    e.bytes.bit k = d.bytes.bit k

theorem ofCorners_ordered (p q dest : Point) :
    (ofCorners p q dest).x0 ≤ (ofCorners p q dest).x1 ∧
      (ofCorners p q dest).y0 ≤ (ofCorners p q dest).y1 := by
  constructor <;> simp only [ofCorners] <;> omega

section
variable {r : BlitRect} {src : Pixmap} {f : Frame} (hx : r.x0 ≤ r.x1) (hy : r.y0 ≤ r.y1)
include hx hy

/-- It is enough that the first and the last point of the rectangle lie inside. -/
theorem fits_iff :
    r.Fits src.userWidth src.userHeight f.userWidth f.userHeight ↔ r.Inside src f := by
  constructor
  · intro hfits x y hx₀ hx₁ hy₀ hy₁
    obtain ⟨h₁, h₂, h₃, h₄, h₅, h₆, h₇, h₈⟩ := hfits
    exact ⟨⟨by omega, by omega, by omega, by omega⟩, ⟨by omega, by omega, by omega, by omega⟩⟩
  · intro hin
    obtain ⟨⟨h₁, h₂, -, -⟩, ⟨h₃, h₄, -, -⟩⟩ := hin r.x0 r.y0 (Int.le_refl _) hx (Int.le_refl _) hy
    obtain ⟨⟨-, -, h₅, h₆⟩, ⟨-, -, h₇, h₈⟩⟩ := hin r.x1 r.y1 hx (Int.le_refl _) hy (Int.le_refl _)
    exact ⟨h₁, h₂, h₅, h₆, by omega, by omega, h₇, h₈⟩

end

/-- What is painted with the image of a rectangle that fits is copied. -/
theorem Placed.copied {r : BlitRect} {s : Space} {src d : Pixmap} {c : Bytes}
    (hr : r.Placed (src.seen s) (d.toFrame.seen s)) (hs : src.Addressable) (hd : d.Addressable)
    (hp : (d.toFrame.seen s).Paints (r.Target (d.toFrame.seen s))
      (r.image (d.toFrame.seen s) (src.seen s)) d.bytes c) :
    r.Copied s src d { d with bytes := c } := by
  refine ⟨rfl, hp.keeps.size_eq, fun i j hi₀ hi₁ hj₀ hj₁ => ?_, fun k hk => ?_⟩
  · have hget := hr.get_copied (hs.seen s) (hd.seen s) hp hi₀ (Int.lt_add_one_of_le hi₁) hj₀
      (Int.lt_add_one_of_le hj₁)
    cases s with
    | user => exact hget
    | raw => exact hget
  · refine hp.bit_eq (hd.seen s).toValid (fun x y _ ht => ?_)
    obtain ⟨j, hj₀, hj₁, i, hi₀, hi₁, hpoint⟩ := ht
    have hfree := hk i j x y hi₀ (Int.le_of_lt_add_one hi₁) hj₀ (Int.le_of_lt_add_one hj₁) hpoint
    cases s with
    | user => exact hfree
    | raw => exact hfree

end BlitRect

namespace Pixmap
open BlitRect

/-- A checked copy succeeds just if the rectangle lies in the source and its copy in the destination,
and then copies it exactly; otherwise it is refused. -/
theorem blit_exact {src d : Pixmap} (hs : src.Addressable) (hd : d.Addressable) (s : Space)
    (p q dest : Point) :
    ((∃ e, d.blit src s p q dest = .ok e) ↔
      (ofCorners p q dest).Inside (src.seen s) (d.toFrame.seen s)) ∧
    (∀ e, d.blit src s p q dest = .ok e → (ofCorners p q dest).Copied s src d e) ∧
    (¬ (ofCorners p q dest).Inside (src.seen s) (d.toFrame.seen s) →
      d.blit src s p q dest = refuse (ofCorners p q dest).misfit) := by
  obtain ⟨hx, hy⟩ := ofCorners_ordered p q dest
  generalize hr : ofCorners p q dest = r at hx hy ⊢
  have hfits : r.Fits (src.seen s).userWidth (src.seen s).userHeight (d.toFrame.seen s).userWidth
      (d.toFrame.seen s).userHeight ↔ r.Inside (src.seen s) (d.toFrame.seen s) := fits_iff hx hy
  unfold blit
  rw [hr]
  by_cases hin : r.Inside (src.seen s) (d.toFrame.seen s)
  · have hplaced : r.Placed (src.seen s) (d.toFrame.seen s) := ⟨hx, hy, hfits.2 hin⟩
    obtain ⟨c, hc, hpaint⟩ :=
      Frame.Addressable.blitUser_paints (hd.seen s) (Legible.of_addressable r (hs.seen s)) hplaced
    have hdraw : (d.draw s fun f b => f.blitUser (src.seen s) r b) = .ok { d with bytes := c } :=
      d.draw_ok hc
    simp only [if_pos (hfits.2 hin), hdraw]
    refine ⟨⟨fun _ => hin, fun _ => ⟨_, rfl⟩⟩, fun e he => ?_, fun hout => absurd hin hout⟩
    cases he
    exact hplaced.copied hs hd hpaint
  · simp only [if_neg (fun h => hin (hfits.1 h))]
    refine ⟨⟨fun he => ?_, fun h => absurd h hin⟩, fun e he => ?_, fun _ => trivial⟩
    · obtain ⟨e, he⟩ := he
      cases he
    · cases he

/-- Two bits in a column go to 18 bits each across bytes of a mirrored one; a row further down the
second of them has no room. -/
theorem blit_exact_turned : ∃ src d : Pixmap, src.Addressable ∧ d.Addressable ∧
    (∃ e, d.blit src .user ⟨0, 1⟩ ⟨0, 0⟩ ⟨0, 0⟩ = .ok e ∧
      (ofCorners ⟨0, 1⟩ ⟨0, 0⟩ ⟨0, 0⟩).Copied .user src d e) ∧
    d.blit src .user ⟨0, 1⟩ ⟨0, 0⟩ ⟨0, 1⟩ = refuse (.doesNotFit 0 0 0 1) := by
  let src : Pixmap := ⟨⟨0, 2, 1, 1, 5, .g1ub, ⟨true, false, false⟩, none⟩, #[0xfb]⟩
  let d : Pixmap := ⟨⟨1, 2, 1, 6, 6, .rgb666, ⟨true, true, false⟩, none⟩,
    #[0, 0xa5, 0xa5, 0xa5, 0xa5, 0xa5, 0xa5]⟩
  have hs : src.Addressable := by
    refine ⟨⟨?_, ?_, ?_, ?_, ?_, ?_, ?_⟩, ?_, ?_⟩ <;> decide
  have hd : d.Addressable := by
    refine ⟨⟨?_, ?_, ?_, ?_, ?_, ?_, ?_⟩, ?_, ?_⟩ <;> decide
  have hin : (ofCorners ⟨0, 1⟩ ⟨0, 0⟩ ⟨0, 0⟩).Inside (src.seen .user) (d.toFrame.seen .user) :=
    (fits_iff (by decide) (by decide)).1 (by decide)
  obtain ⟨hok, hcopied, -⟩ := blit_exact hs hd .user ⟨0, 1⟩ ⟨0, 0⟩ ⟨0, 0⟩
  obtain ⟨-, -, hrefused⟩ := blit_exact hs hd .user ⟨0, 1⟩ ⟨0, 0⟩ ⟨0, 1⟩
  obtain ⟨e, he⟩ := hok.2 hin
  refine ⟨src, d, hs, hd, ⟨e, he, hcopied e he⟩, hrefused (fun hout => ?_)⟩
  exact absurd (hout 0 1 (by decide) (by decide) (by decide) (by decide)).2 (by decide)

end Pixmap

end Raster
