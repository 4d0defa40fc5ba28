import Raster.Proofs.CircleShape
import Raster.Proofs.EllipseOrientation

/- Ellipses on the raw pixels. By offsets from the center a filled ellipse is `OvalDisc`: the
   points of its rows at which the weighted squares stay below the size of the curve
   increased by its half width. The outline is `OvalRim`, the points of it with a neighbour
   outside. With equal half axes these are the disc and the rim of a circle, so that both
   walks, which keep different sums, set the same pixels (`ellipse_colours`). -/
namespace Raster

/-- The offset lies on a row of the ellipse with half axes `a` and `b`, nearer to the center than its
curve. -/
def OvalDisc (a b : Nat) (dx dy : Int) : Prop :=
  dy.natAbs ≤ b ∧ (b : Int) ^ 2 * dx ^ 2 + (a : Int) ^ 2 * dy ^ 2 < (a : Int) ^ 2 * b ^ 2 + a * b ^ 2

instance (a b : Nat) (dx dy : Int) : Decidable (OvalDisc a b dx dy) :=
  inferInstanceAs (Decidable (_ ∧ _))

/-- The offset lies in the ellipse, and one of its four neighbours does not. -/
def OvalRim (a b : Nat) (dx dy : Int) : Prop :=
  OvalDisc a b dx dy ∧ ¬ (OvalDisc a b (dx + 1) dy ∧ OvalDisc a b (dx - 1) dy ∧
    OvalDisc a b dx (dy + 1) ∧ OvalDisc a b dx (dy - 1))

instance (a b : Nat) (dx dy : Int) : Decidable (OvalRim a b dx dy) :=
  inferInstanceAs (Decidable (_ ∧ _))

section Oval
variable {a b x y x' y' : Nat}

/-- Points nearer to both axes lie inside as well. -/
theorem Oval.mono (h : Oval a b x y) (hx : x' ≤ x) (hy : y' ≤ y) : Oval a b x' y' := by
  have hxx : x' * x' ≤ x * x := Nat.mul_le_mul hx hx
  have hyy : y' * y' ≤ y * y := Nat.mul_le_mul hy hy
  have hacross : b * b * (x' * x') ≤ b * b * (x * x) := Nat.mul_le_mul_left _ hxx
  have hdown : a * a * (y' * y') ≤ a * a * (y * y) := Nat.mul_le_mul_left _ hyy
  unfold Oval at *
  split_ifs at * with h₀
  · omega
  · omega

theorem oval_iff_ovalDisc (ha : a ≠ 0) (hb : b ≠ 0) (dx dy : Int) :
    Oval a b dx.natAbs dy.natAbs ↔ OvalDisc a b dx dy := by
  unfold Oval OvalDisc
  rw [if_neg (by omega)]
  refine and_congr_right (fun _ => ?_)
  rw [← Int.ofNat_lt]
  simp only [Nat.cast_add, Nat.cast_mul, Nat.cast_one, Int.natAbs_mul_self']
  constructor <;> intro h <;> linarith

end Oval

/-- Of the two neighbours on a line through the center the outer one is the first to fail what holds
nearer to the center. -/
theorem outward_iff {P : Nat → Prop} (hP : ∀ m n, m ≤ n → P n → P m) (d : Int) :
    P (d.natAbs + 1) ↔ P (d + 1).natAbs ∧ P (d - 1).natAbs := by
  constructor
  · intro h
    exact ⟨hP _ _ (by omega) h, hP _ _ (by omega) h⟩
  · rintro ⟨hright, hleft⟩
    rcases Int.le_total 0 d with hd | hd
    · rwa [show d.natAbs + 1 = (d + 1).natAbs by omega]
    · rwa [show d.natAbs + 1 = (d - 1).natAbs by omega]

/-- The outline of an ellipse is its rim. -/
theorem ellipse_iff_ovalRim {a b : Nat} (ha : a ≠ 0) (hb : b ≠ 0) (dx dy : Int) :
    Ellipse false a b dx.natAbs dy.natAbs ↔ OvalRim a b dx dy := by
  have hrow := outward_iff (P := fun x => Oval a b x dy.natAbs)
    (fun _ _ hle h => h.mono hle (Nat.le_refl _)) dx
  have hcolumn := outward_iff (P := fun y => Oval a b dx.natAbs y)
    (fun _ _ hle h => h.mono (Nat.le_refl _) hle) dy
  rw [Ellipse, hrow, hcolumn]
  simp only [oval_iff_ovalDisc ha hb, OvalRim, Bool.false_eq_true, false_or, and_assoc]

/-- With equal half axes the weights drop out. -/
theorem ovalDisc_self {r : Nat} (hr : r ≠ 0) (dx dy : Int) : OvalDisc r r dx dy ↔ Disc r dx dy := by
  have hpos : (0 : Int) < (r : Int) ^ 2 := by positivity
  have hscale : (r : Int) ^ 2 * dx ^ 2 + (r : Int) ^ 2 * dy ^ 2 < (r : Int) ^ 2 * r ^ 2 + r * r ^ 2 ↔
      Disc r dx dy := by
    rw [show (r : Int) ^ 2 * dx ^ 2 + (r : Int) ^ 2 * dy ^ 2 = (r : Int) ^ 2 * (dx * dx + dy * dy) by ring,
      show (r : Int) ^ 2 * r ^ 2 + r * r ^ 2 = (r : Int) ^ 2 * (r * r + r) by ring]
    exact Int.mul_lt_mul_left hpos
  rw [OvalDisc, hscale]
  exact and_iff_right_of_imp (fun h => h.natAbs_le.2)

theorem ovalRim_self {r : Nat} (hr : r ≠ 0) (dx dy : Int) : OvalRim r r dx dy ↔ Rim r dx dy := by
  simp only [OvalRim, Rim, ovalDisc_self hr]

/-- The squares of half axes of 32 bits, and the excess with which the walk starts, fit 128 bits. -/
theorem ellipse_start_holds (a b : UInt32) :
    Bounds.int128.Holds (a.toNat * a.toNat : Nat) ∧ Bounds.int128.Holds (b.toNat * b.toNat : Nat) ∧
      Bounds.int128.Holds (-((b.toNat * b.toNat : Nat) : Int) * a.toNat) := by
  have ha := a.toNat_lt
  have hb := b.toNat_lt
  have haa : a.toNat * a.toNat ≤ 2 ^ 32 * 2 ^ 32 := Nat.mul_le_mul ha.le ha.le
  have hbb : b.toNat * b.toNat ≤ 2 ^ 32 * 2 ^ 32 := Nat.mul_le_mul hb.le hb.le
  have hstart : b.toNat * b.toNat * a.toNat ≤ 2 ^ 32 * 2 ^ 32 * 2 ^ 32 := Nat.mul_le_mul hbb ha.le
  rw [Int.neg_mul, ← Int.natCast_mul]
  simp only [Bounds.Holds, Bounds.int128]
  omega

theorem toNat_ne_zero {n : UInt32} (hn : n ≠ 0) : n.toNat ≠ 0 :=
  fun h => hn (UInt32.toNat_inj.1 h)

theorem toNat_toUInt32_of_pos {r : Int32} (hr : 0 < r) : r.toUInt32.toNat = r.toInt.natAbs := by
  have hpos : 0 < r.toInt := Int32.lt_iff_toInt_lt.1 hr
  rw [Int32.toNat_toUInt32_of_le (Int32.le_of_lt hr), ← Int32.toNat_toInt]
  omega

namespace Frame
variable {f : Frame} {bytes : Bytes}

/-- The half axes of a circle are no other ones in the buffer. -/
theorem rawAxes_self (f : Frame) (r : UInt32) : f.rawAxes r r = (r, r) := by
  unfold rawAxes Orientation.exchange
  split <;> rfl

/-- An ellipse with equal half axes is a circle. -/
theorem Addressable.ellipse_eq_circle (hf : f.Addressable bytes.size) (c : Point) {r : Int32}
    (hr : 0 < r) (v : Pixel) :
    f.ellipse c r.toUInt32 r.toUInt32 v bytes = f.circle c r v bytes := by
  have hr₀ : r ≠ 0 := by
    rintro rfl
    exact absurd hr (by decide)
  have hnat := natAbs_toInt_ne_zero hr₀
  obtain ⟨b₁, h₁, hpaint₁⟩ := hf.oval_paints false c r.toUInt32 r.toUInt32 v
  obtain ⟨b₂, h₂, hpaint₂⟩ := hf.circle_paints c hr₀ v
  have harea : f.Paints (fun x y => Rim r.toInt.natAbs (x - (f.toRaw c.x.toInt c.y.toInt).1)
      (y - (f.toRaw c.x.toInt c.y.toInt).2)) (fun _ _ => f.stored v) bytes b₁ := by
    refine hpaint₁.area (fun x y _ => ?_)
    rw [rawAxes_self, toNat_toUInt32_of_pos hr, ellipse_iff_ovalRim hnat hnat, ovalRim_self hnat]
  have hsame : b₁ = b₂ := harea.unique hf.toValid hpaint₂
  exact h₁.trans (hsame ▸ h₂.symm)

end Frame

namespace Pixmap

/-- Raw ellipses cover raw offsets. -/
theorem Addressable.draw_raw_oval {p : Pixmap} (hp : p.Addressable) (filled : Bool) (c : Point)
    (a b : UInt32) (v : Pixel) :
    Yields (p.draw .raw ((Drawing.oval filled c a b).paint v)) (p.Colours .raw (fun x y =>
      Ellipse filled a.toNat b.toNat (x - c.x.toInt).natAbs (y - c.y.toInt).natAbs) v) := by
  have hf : (p.toFrame.seen .raw).Addressable p.bytes.size := Frame.Addressable.seen hp .raw
  refine hp.draw_colours (hf.oval_paints filled c a b v) (fun x y _ => ?_)
  have hraw : ∀ x y, (p.toFrame.seen .raw).toRaw x y = (x, y) := Frame.toRaw_of_identity rfl
  have haxes : (p.toFrame.seen .raw).rawAxes a b = (a, b) := rfl
  rw [hraw, hraw, haxes]

/-- On the raw pixels a filled ellipse and its outline set just the points of the oval disc and of its
rim, without a number beyond 128 bits, and with equal half axes an ellipse is a circle. -/
theorem ellipse_colours {p : Pixmap} (hp : p.Addressable) (c : Point) (v : Pixel) :
    (∀ a b : UInt32, a ≠ 0 → b ≠ 0 →
      (Bounds.int128.Holds (a.toNat * a.toNat : Nat) ∧ Bounds.int128.Holds (b.toNat * b.toNat : Nat) ∧
        Bounds.int128.Holds (-((b.toNat * b.toNat : Nat) : Int) * a.toNat)) ∧
      Yields (p.draw .raw fun f bytes => f.fillEllipse c a b v bytes) (p.Colours .raw (fun x y =>
        OvalDisc a.toNat b.toNat (x - c.x.toInt) (y - c.y.toInt)) v) ∧
      Yields (p.draw .raw fun f bytes => f.ellipse c a b v bytes) (p.Colours .raw (fun x y =>
        OvalRim a.toNat b.toNat (x - c.x.toInt) (y - c.y.toInt)) v)) ∧
    ∀ r : Int32, 0 < r →
      p.draw .raw (fun f bytes => f.ellipse c r.toUInt32 r.toUInt32 v bytes) =
        p.draw .raw fun f bytes => f.circle c r v bytes := by
  refine ⟨fun a b ha hb => ⟨ellipse_start_holds a b, ?_, ?_⟩, fun r hr => ?_⟩
  · have hnat : a.toNat ≠ 0 ∧ b.toNat ≠ 0 := ⟨toNat_ne_zero ha, toNat_ne_zero hb⟩
    refine (hp.draw_raw_oval true c a b v).mono (fun q hq => ?_)
    simpa only [Ellipse, true_or, and_true, oval_iff_ovalDisc hnat.1 hnat.2] using hq
  · have hnat : a.toNat ≠ 0 ∧ b.toNat ≠ 0 := ⟨toNat_ne_zero ha, toNat_ne_zero hb⟩
    refine (hp.draw_raw_oval false c a b v).mono (fun q hq => ?_)
    simpa only [ellipse_iff_ovalRim hnat.1 hnat.2] using hq
  · have hf : (p.toFrame.seen .raw).Addressable p.bytes.size := Frame.Addressable.seen hp .raw
    rw [draw_eq, draw_eq, hf.ellipse_eq_circle c hr v]

/-- The ellipse with half axes 1 and 3 ends on its third row: where the inequality would still admit a
point, a row further, nothing is set. -/
theorem ellipse_colours_cut : ∃ p q r : Pixmap, p.Addressable ∧
    (p.draw .raw fun f bytes => f.ellipse ⟨1, 1⟩ 1 3 1 bytes) = .ok q ∧
      (q.seen .raw).get ⟨0, 2⟩ = .ok 1 ∧ (q.seen .raw).get ⟨1, 3⟩ = .ok 0 ∧
    (p.draw .raw fun f bytes => f.fillEllipse ⟨1, 1⟩ 1 3 1 bytes) = .ok r ∧
      (r.seen .raw).get ⟨1, 3⟩ = .ok 1 ∧ (r.seen .raw).get ⟨1, 5⟩ = .ok 0 ∧
    (p.draw .raw fun f bytes => f.ellipse ⟨1, 1⟩ 2 2 1 bytes) =
      p.draw .raw fun f bytes => f.circle ⟨1, 1⟩ 2 1 bytes := by
  let p : Pixmap := ⟨⟨0, 3, 6, 3, 0, .g8, .rotated .identity .quarterTurn, none⟩, Array.replicate 18 0⟩
  have hp : p.Addressable := by
    refine ⟨⟨?_, ?_, ?_, ?_, ?_, ?_, ?_⟩, ?_, ?_⟩ <;> decide
  obtain ⟨hshape, hcircle⟩ := ellipse_colours hp ⟨1, 1⟩ 1
  obtain ⟨-, ⟨r, hr, hfilled⟩, q, hq, houtline⟩ := hshape 1 3 (by decide) (by decide)
  refine ⟨p, q, r, hp, hq, ?_, ?_, hr, ?_, ?_, hcircle 2 (by decide)⟩
  · exact houtline.get_in ⟨0, 2⟩ (by decide) (by decide)
  · exact (houtline.get_out ⟨1, 3⟩ (by decide)).trans (by decide)
  · exact hfilled.get_in ⟨1, 3⟩ (by decide) (by decide)
  · exact (hfilled.get_out ⟨1, 5⟩ (by decide)).trans (by decide)

end Pixmap

end Raster
