import Raster.Frame
import Raster.Proofs.Bits

/- Where pixels lie. In a valid frame the pixel in column `x` of row `y` takes the
   `bpp` bits from `Frame.position f x y` on (`locate_eq`). Pixels of less than a byte
   stay inside one byte, in either bit order, and wider ones follow each other in the
   stream, so that within a row no two pixels share a bit (`place_apart`); rows are
   further apart than they are long. So different pixels have no bit in common
   (`position_apart`), and all bits of pixels lie inside the buffer (`position_bounds`). -/
namespace Raster

namespace PixelType

theorem bpp_pos {t : PixelType} (h : t ≠ .unknown) : 0 < t.bpp := by
  cases t <;> first | contradiction | decide

theorem bpp_le (t : PixelType) : t.bpp ≤ 32 := by cases t <;> decide

/-- Pixels that are ordered from the high end of a byte are whole fractions of a byte. -/
theorem gcd_bpp_of_msbFirst {t : PixelType} (h : t.order = .msbFirst) : Nat.gcd t.bpp 8 = t.bpp ∨ t = .unknown := by
  cases t <;> first | (exact Or.inr rfl) | (exact Or.inl rfl) | (exact nomatch h)

end PixelType

namespace Frame

/-- The first bit of the pixel in column `x`, counted from the start of its row. -/
def place (f : Frame) (x : Nat) : Nat := 8 * (f.columnBit x / 8) + f.lowBit (f.columnBit x % 8)

/-- The position of a pixel in the bit stream of the buffer, wherever it is. -/
def position (f : Frame) (x y : Nat) : Nat := 8 * (f.start + y * f.stride) + f.place x

/-- Bytes from the start of a row to its end. -/
def rowSpan (f : Frame) : Nat := byteCount (f.offset + f.width.toNat * f.bpp)

/-- Bit `i` of the buffer belongs to the pixel in column `x` of row `y`. -/
def Owns (f : Frame) (x y i : Nat) : Prop :=
  ∃ pos, f.locate x y = .ok pos ∧ pos ≤ i ∧ i < pos + f.bpp

theorem isEmpty_eq_false_iff {f : Frame} :
    f.isEmpty = false ↔ 0 < f.width.toNat ∧ 0 < f.height.toNat := by
  simp only [isEmpty, Bool.or_eq_false_iff, beq_eq_false_iff_ne, ne_eq]
  exact and_congr UInt32.pos_iff_ne_zero.symm UInt32.pos_iff_ne_zero.symm

section Valid
variable {f : Frame} {size x y x' y' : Nat}

theorem Valid.bpp_pos (hv : f.Valid size) : 0 < f.bpp := PixelType.bpp_pos hv.known

/-- Either the bits of a row are simply counted through, or pixels are fractions of a byte and
counted down in it. -/
theorem Valid.place_cases (hv : f.Valid size) :
    (∀ x, f.place x = f.columnBit x) ∨
      ∀ x, f.columnBit x % 8 + f.bpp ≤ 8 ∧
        f.place x = 8 * (f.columnBit x / 8) + (8 - f.bpp - f.columnBit x % 8) := by
  cases ho : f.pixelType.order with
  | lsbFirst =>
    apply Or.inl
    intro x
    simp only [place, lowBit, ho]
    omega
  | msbFirst =>
    refine Or.inr (fun x => ⟨?_, by simp only [place, lowBit, ho]⟩)
    have hg : Nat.gcd f.bpp 8 = f.bpp :=
      (PixelType.gcd_bpp_of_msbFirst ho).resolve_right hv.known
    have h8 : f.bpp ∣ 8 := hg ▸ Nat.gcd_dvd_right f.bpp 8
    have hc : f.bpp ∣ f.columnBit x := Nat.dvd_add (Nat.dvd_mul_left ..) (hg ▸ hv.aligned)
    obtain ⟨q, hq⟩ := (Nat.dvd_mod_iff h8).2 hc
    obtain ⟨r, hr⟩ := h8
    -- both are multiples of the pixel size, so the smaller one is a whole pixel smaller
    have hlt : f.bpp * q < f.bpp * r := by omega
    have hle : f.bpp * (q + 1) ≤ f.bpp * r :=
      Nat.mul_le_mul_left _ (Nat.lt_of_mul_lt_mul_left hlt)
    rw [Nat.mul_succ] at hle
    omega

theorem columnBit_add_le (h : x < x') : f.columnBit x + f.bpp ≤ f.columnBit x' := by
  have hm : (x + 1) * f.bpp ≤ x' * f.bpp := Nat.mul_le_mul_right _ h
  rw [Nat.succ_mul] at hm
  simp only [columnBit]
  omega

/-- A pixel of the frame ends inside its row. -/
theorem Valid.place_lt (hv : f.Valid size) (hx : x < f.width.toNat) :
    f.columnBit x / 8 < f.rowSpan ∧ f.place x + f.bpp ≤ 8 * f.rowSpan := by
  have hb := hv.bpp_pos
  have hc : f.columnBit x + f.bpp ≤ f.width.toNat * f.bpp + f.offset := columnBit_add_le hx
  have hs : f.rowSpan = (f.offset + f.width.toNat * f.bpp + 7) / 8 := rfl
  rcases hv.place_cases with h | h
  · rw [h]
    omega
  · obtain ⟨h8, hp⟩ := h x
    rw [hp]
    omega

theorem Valid.place_apart (hv : f.Valid size) (h : x < x') :
    f.place x + f.bpp ≤ f.place x' ∨ f.place x' + f.bpp ≤ f.place x := by
  have hc : f.columnBit x + f.bpp ≤ f.columnBit x' := columnBit_add_le h
  rcases hv.place_cases with hp | hp
  · -- the bits of a row are counted through
    rw [hp, hp]
    exact Or.inl hc
  · obtain ⟨h8, hpx⟩ := hp x
    obtain ⟨h8', hpx'⟩ := hp x'
    rw [hpx, hpx']
    omega

theorem Valid.row_le (hv : f.Valid size) (hx : x < f.width.toNat) (hy : y < f.height.toNat) :
    f.start + y * f.stride + f.rowSpan ≤ size := by
  have hm : y * f.stride ≤ (f.height.toNat - 1) * f.stride := Nat.mul_le_mul_right _ (by omega)
  have hf := hv.fits (by omega) (by omega)
  have hs := hv.start_le
  simp only [rowSpan] at *
  omega

theorem Valid.row_apart (hv : f.Valid size) (hx : x < f.width.toNat) (hy : y' < f.height.toNat)
    (h : y < y') : y * f.stride + f.rowSpan ≤ y' * f.stride := by
  have hm : (y + 1) * f.stride ≤ y' * f.stride := Nat.mul_le_mul_right _ h
  have hr := hv.rows_apart (by omega) (by omega)
  rw [Nat.succ_mul] at hm
  simp only [rowSpan, byteCount]
  omega

theorem Valid.position_bounds (hv : f.Valid size) (hx : x < f.width.toNat)
    (hy : y < f.height.toNat) :
    8 * f.start ≤ f.position x y ∧ f.position x y + f.bpp ≤ 8 * size := by
  have hp := (hv.place_lt hx).2
  have hr := hv.row_le hx hy
  simp only [position]
  omega

theorem Valid.locate_eq (hv : f.Valid size) (hx : x < f.width.toNat) (hy : y < f.height.toNat) :
    f.locate x y = .ok (f.position x y) := by
  have hp := (hv.place_lt hx).1
  have hr := hv.row_le hx hy
  have hs := hv.sized
  have hb : f.byteOf x y = .ok (y * f.stride + f.columnBit x / 8) := size64_of_le (by omega)
  simp only [locate, hb, position, place]
  show Except.ok _ = Except.ok _
  congr 1
  omega

/-- Different pixels have no bit in common. -/
theorem Valid.position_apart (hv : f.Valid size) (hx : x < f.width.toNat)
    (hy : y < f.height.toNat) (hx' : x' < f.width.toNat) (hy' : y' < f.height.toNat)
    (hne : (x', y') ≠ (x, y)) :
    f.position x y + f.bpp ≤ f.position x' y' ∨ f.position x' y' + f.bpp ≤ f.position x y := by
  have hp := (hv.place_lt hx).2
  have hp' := (hv.place_lt hx').2
  simp only [position]
  rcases Nat.lt_trichotomy y y' with h | h | h
  · have hr := hv.row_apart hx hy' h
    omega
  · subst h
    rcases Nat.lt_or_gt_of_ne (fun h => hne (by rw [h]) : x ≠ x') with h | h
    · have ha := hv.place_apart h
      omega
    · have ha := hv.place_apart h
      omega
  · have hr := hv.row_apart hx hy h
    omega

theorem Valid.owns_iff (hv : f.Valid size) (hx : x < f.width.toNat) (hy : y < f.height.toNat)
    {i : Nat} : f.Owns x y i ↔ f.position x y ≤ i ∧ i < f.position x y + f.bpp := by
  simp only [Owns, hv.locate_eq hx hy]
  constructor
  · intro h
    obtain ⟨pos, hp, h⟩ := h
    cases hp
    exact h
  · exact fun h => ⟨_, rfl, h⟩

end Valid

end Frame

end Raster
