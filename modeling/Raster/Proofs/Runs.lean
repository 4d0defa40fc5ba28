import Raster.Draw.Run
import Raster.Proofs.Image

/- Runs of pixels paint what lies of them in the frame (`spanRow_paints`,
   `spanColumn_paints`). Where pixels are whole bytes a run in a row is one run of bytes,
   which no other pixel meets (`Valid.run_covered`): whatever replaces just these bytes
   paints just this run (`Valid.run_paints`), a stamp as well as a copy. -/
namespace Raster.Frame

/-- The points of row `y` from column `x` on, `count` of them. -/
def InRun (x y : Int) (count : Nat) (x' y' : Int) : Prop := y' = y ∧ x ≤ x' ∧ x' < x + count

variable {f : Frame} {b c : Bytes} {g : Int → Int → Nat}

theorem bpp_of_aligned (ha : f.isAligned = true) : f.bpp = 8 * (f.bpp / 8) := by
  simp only [isAligned, Bool.and_eq_true, beq_iff_eq] at ha
  omega

section Aligned
variable {size x y count : Nat} (hf : f.Valid size) (ha : f.isAligned = true)
include hf ha

/-- Whole bytes are counted through. -/
theorem Valid.position_of_aligned (x y : Nat) :
    f.position x y = 8 * (f.start + y * f.stride + x * (f.bpp / 8)) := by
  have hbpp := bpp_of_aligned ha
  have h0 : f.offset = 0 := by
    simp only [isAligned, Bool.and_eq_true, beq_iff_eq] at ha
    exact ha.2
  have hcol : f.columnBit x = 8 * (x * (f.bpp / 8)) := by
    rw [columnBit, h0, Nat.add_zero, ← Nat.mul_left_comm, ← hbpp]
  have hpos := hf.bpp_pos
  have hplace : f.place x = f.columnBit x := by
    rcases hf.place_cases with h | h
    · exact h x
    · obtain ⟨h₁, h₂⟩ := h x
      rw [h₂]
      omega
  rw [position, hplace, hcol]
  omega

/-- Every bit of the bytes of a run belongs to one of its pixels. -/
theorem Valid.run_covered {k : Nat} (h₁ : f.position x y ≤ k)
    (h₂ : k < f.position x y + 8 * (count * (f.bpp / 8))) :
    ∃ j, j < count ∧ f.position (x + j) y ≤ k ∧ k < f.position (x + j) y + f.bpp := by
  have hbpp := bpp_of_aligned ha
  have hpos := hf.bpp_pos
  rw [hf.position_of_aligned ha] at h₁ h₂
  generalize hs : f.bpp / 8 = s at hbpp h₁ h₂
  -- the pixel is found from the distance to the first bit
  obtain ⟨r, rfl⟩ := Nat.exists_eq_add_of_le h₁
  have hlow : f.bpp * (r / f.bpp) ≤ r := Nat.mul_div_le r f.bpp
  have hhigh : r < f.bpp * (r / f.bpp) + f.bpp := by
    rw [← Nat.mul_succ]
    exact Nat.lt_mul_div_succ r hpos
  have hstep : f.bpp * (r / f.bpp) = 8 * (r / f.bpp * s) := by
    rw [hbpp, Nat.mul_assoc, Nat.mul_comm s]
  have hlt : r / f.bpp < count := by
    rw [Nat.div_lt_iff_lt_mul hpos, hbpp, Nat.mul_left_comm]
    omega
  refine ⟨r / f.bpp, hlt, ?_⟩
  rw [hf.position_of_aligned ha, hs, Nat.add_mul]
  omega

/-- Replacing just the bytes of a run paints it with the pixels that the new bytes hold. -/
theorem Valid.run_paints (hx : x + count ≤ f.width.toNat)
    (hy : y < f.height.toNat) (hc : c.size = b.size)
    (hin : ∀ j, j < count → f.pixel c (x + j : Nat) y = g (x + j : Nat) y)
    (hout : ∀ k, ¬ (f.position x y ≤ k ∧ k < f.position x y + 8 * (count * (f.bpp / 8))) →
      c.bit k = b.bit k) : f.Paints (InRun x y count) g b c := by
  refine hf.paints_of_bits hc (fun k hk => ?_) ?_
  · have hrun : f.position x y ≤ k ∧ k < f.position x y + 8 * (count * (f.bpp / 8)) := by
      by_contra h
      exact hk (hout k h)
    obtain ⟨h₁, h₂⟩ := hrun
    obtain ⟨j, hj, hown⟩ := hf.run_covered ha h₁ h₂
    refine ⟨(x + j : Nat), y, ⟨by omega, by omega, by omega, by omega⟩,
      ⟨rfl, by omega, by omega⟩, ?_⟩
    rw [Int.toNat_natCast, Int.toNat_natCast, hf.owns_iff (by omega) hy]
    exact hown
  · intro x' _ _ h
    obtain ⟨rfl, h₁, h₂⟩ := h
    have h := hin (x'.toNat - x) (by omega)
    rwa [show ((x + (x'.toNat - x) : Nat) : Int) = x' by omega] at h

/-- The bytes of a run lie in the buffer. -/
theorem Valid.run_le (hx : x + count ≤ f.width.toNat) (hy : y < f.height.toNat)
    (hcount : 0 < count) :
    f.start + (y * f.stride + x * (f.bpp / 8)) + count * (f.bpp / 8) ≤ size := by
  have hbpp := bpp_of_aligned ha
  have hrow := hf.row_le (show 0 < f.width.toNat by omega) hy
  have hend : (x + count) * (f.bpp / 8) ≤ f.width.toNat * (f.bpp / 8) := Nat.mul_le_mul_right _ hx
  have hspan : f.rowSpan = (f.offset + 8 * (f.width.toNat * (f.bpp / 8)) + 7) / 8 := by
    rw [Nat.mul_left_comm, ← hbpp]
    rfl
  rw [Nat.add_mul] at hend
  omega

end Aligned

theorem stored_testBit (f : Frame) (v : Pixel) (k : Nat) :
    (f.stored v).testBit k = (decide (k < f.bpp) && v.toNat.testBit k) :=
  Nat.testBit_mod_two_pow ..

/-- A run in the frame is stamped onto its bytes. -/
theorem Valid.stampRow_eq (hf : f.Valid b.size) (ha : f.isAligned = true) (x y count : Nat)
    (hx : x + count ≤ f.width.toNat) (hy : y < f.height.toNat) (hcount : 0 < count) (v : Pixel) :
    f.stampRow x y count v b =
      .ok (b.stamp (f.start + (y * f.stride + x * (f.bpp / 8))) (f.bpp / 8) v.toNat count) := by
  have hle := hf.run_le ha hx hy hcount
  have hsized := hf.sized
  have hfirst : size64 (y * f.stride + x * (f.bpp / 8)) = .ok (y * f.stride + x * (f.bpp / 8)) :=
    size64_of_le (by omega)
  simp only [stampRow, hfirst, ok_bind, if_pos hle, pure_eq_ok]

/-- A stamped row holds the pixel as often as the run is long. -/
theorem Valid.stampRow_paints (hf : f.Valid b.size) (ha : f.isAligned = true) (x y count : Nat)
    (hx : x + count ≤ f.width.toNat) (hy : y < f.height.toNat) (hcount : 0 < count) (v : Pixel) :
    Yields (f.stampRow x y count v b) (f.Paints (InRun x y count) (fun _ _ => f.stored v) b) := by
  have hbpp := bpp_of_aligned ha
  have hle := hf.run_le ha hx hy hcount
  refine ⟨_, hf.stampRow_eq ha x y count hx hy hcount v, ?_⟩
  refine hf.run_paints ha hx hy (Bytes.size_stamp ..) (fun j hj => ?_) (fun k hk => ?_)
  · apply Nat.eq_of_testBit_eq
    intro k
    rw [stored_testBit, pixel, Bytes.testBit_window, Int.toNat_natCast, Int.toNat_natCast]
    by_cases hk : k < f.bpp
    · have hend : (j + 1) * (f.bpp / 8) ≤ count * (f.bpp / 8) := Nat.mul_le_mul_right _ hj
      have hmul : f.bpp * j = 8 * (j * (f.bpp / 8)) := by
        rw [Nat.mul_left_comm, ← hbpp, Nat.mul_comm]
      rw [Nat.succ_mul] at hend
      -- the bits of copy `j` of the pattern are those of pixel `j`
      have hrel : f.position (x + j) y + k - 8 * (f.start + (y * f.stride + x * (f.bpp / 8))) =
          k + f.bpp * j := by
        rw [hf.position_of_aligned ha, Nat.add_mul]
        omega
      rw [Bytes.bit_stamp hle, hrel, ← hbpp, Nat.add_mul_mod_self_left, Nat.mod_eq_of_lt hk, if_pos]
      rw [hf.position_of_aligned ha, Nat.add_mul]
      omega
    · simp [hk]
  · rw [hf.position_of_aligned ha] at hk
    rw [Bytes.bit_stamp hle, if_neg (by omega)]

/-- A span in a row paints its points in the frame, both ends included. Where it is not stamped,
32-bit integers have to reach them. -/
theorem Valid.spanRow_paints (hf : f.Valid b.size) (x0 x1 y : Int) (v : Pixel)
    (hreach : f.isAligned = true ∨
      ∀ x', f.Contains x' y → x' ≤ max x0 x1 → x' ≤ 0x7fffffff ∧ y ≤ 0x7fffffff) :
    Yields (f.spanRow x0 x1 y v b)
      (f.Paints (fun x' y' => y' = y ∧ min x0 x1 ≤ x' ∧ x' ≤ max x0 x1) (fun _ _ => f.stored v) b) := by
  unfold spanRow
  by_cases hrow : y < 0 ∨ (f.height.toNat : Int) ≤ y
  · rw [if_pos hrow]
    refine Yields.ok (Paints.none ?_)
    intro x' y' hin h
    obtain ⟨-, h0, -, hh⟩ := hin
    obtain ⟨rfl, -⟩ := h
    omega
  rw [if_neg hrow]
  simp only
  generalize hfirst : max (min x0 x1) 0 = first
  generalize hlast : min (max x0 x1) ((f.width.toNat : Int) - 1) = last
  by_cases hempty : last < first
  · rw [if_pos hempty]
    refine Yields.ok (Paints.none ?_)
    intro x' y' hin h
    obtain ⟨h0, -, hw, -⟩ := hin
    obtain ⟨-, h₁, h₂⟩ := h
    omega
  rw [if_neg hempty]
  -- whole bytes are stamped at once, other pixels set one after the other
  by_cases ha : f.isAligned = true
  · rw [if_pos ha]
    have hstamp := hf.stampRow_paints ha first.toNat y.toNat (last - first + 1).toNat
      (by omega) (by omega) (by omega) v
    refine hstamp.mono (fun c hc => hc.area ?_)
    intro x' y' h
    obtain ⟨h0, -, hw, -⟩ := h
    unfold InRun
    omega
  · rw [if_neg ha]
    refine (Paints.forRange (fun x x' y' => x' = x ∧ y' = y) (fun x c h₁ h₂ hc => ?_)).mono
      (fun c hc => hc.area ?_)
    · have hxy : f.Contains x y := ⟨by omega, by omega, by omega, by omega⟩
      obtain ⟨hx, hy⟩ := hreach.resolve_left ha x hxy (by omega)
      exact (hc ▸ hf : f.Valid c.size).write_paints hxy hx hy v
    · intro x' y' h
      obtain ⟨h0, -, hw, -⟩ := h
      constructor
      · intro h
        obtain ⟨x, h₁, h₂, rfl, rfl⟩ := h
        omega
      · intro h
        obtain ⟨rfl, h₁, h₂⟩ := h
        exact ⟨x', by omega, by omega, rfl, rfl⟩

theorem Addressable.spanRow_paints (hf : f.Addressable b.size) (x0 x1 y : Int) (v : Pixel) :
    Yields (f.spanRow x0 x1 y v b)
      (f.Paints (fun x' y' => y' = y ∧ min x0 x1 ≤ x' ∧ x' ≤ max x0 x1) (fun _ _ => f.stored v) b) :=
  hf.toValid.spanRow_paints x0 x1 y v (Or.inr (fun _ hxy _ => hf.coordinates_le hxy))

/-- A span in a column paints its points in the frame, both ends included. -/
theorem Addressable.spanColumn_paints (hf : f.Addressable b.size) (x y0 y1 : Int) (v : Pixel) :
    Yields (f.spanColumn x y0 y1 v b)
      (f.Paints (fun x' y' => x' = x ∧ min y0 y1 ≤ y' ∧ y' ≤ max y0 y1) (fun _ _ => f.stored v) b) := by
  unfold spanColumn
  by_cases hcol : x < 0 ∨ (f.width.toNat : Int) ≤ x
  · rw [if_pos hcol]
    refine Yields.ok (Paints.none ?_)
    intro x' y' hin h
    obtain ⟨h0, -, hw, -⟩ := hin
    obtain ⟨rfl, -⟩ := h
    omega
  rw [if_neg hcol]
  simp only
  generalize hfirst : max (min y0 y1) 0 = first
  generalize hlast : min (max y0 y1) ((f.height.toNat : Int) - 1) = last
  refine (Paints.forRange (fun y x' y' => x' = x ∧ y' = y) (fun y c h₁ h₂ hc => ?_)).mono
    (fun c hc => hc.area ?_)
  · have hxy : f.Contains x y := ⟨by omega, by omega, by omega, by omega⟩
    exact (hc ▸ hf : f.Addressable c.size).write_paints hxy v
  · intro x' y' h
    obtain ⟨-, h0, -, hh⟩ := h
    constructor
    · intro h
      obtain ⟨y, h₁, h₂, rfl, rfl⟩ := h
      omega
    · intro h
      obtain ⟨rfl, h₁, h₂⟩ := h
      exact ⟨y', by omega, by omega, rfl, rfl⟩

end Raster.Frame
