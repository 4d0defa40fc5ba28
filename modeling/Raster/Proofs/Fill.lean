import Raster.Draw.Fill
import Raster.Proofs.Runs

/- Filling sets every pixel of the frame (`Addressable.fill_paints`), whichever of its
   three ways is taken. Rows of whole pixels are single runs. Where several pixels share a
   byte the full byte shows the pixel at each of its places (`testBit_fullByte`), in
   either bit order, so that a run of full bytes paints the columns that fill them
   (`Valid.stampBytes_paints`); the rest of each row is written pixel by pixel. -/
namespace Raster.Frame

variable {f : Frame} {b c : Bytes}

theorem loopEnd_eq {n : Nat} (h : n ≤ 0x7fffffff) : loopEnd n = n := by
  have hofNat : (Int32.ofNat n).toInt = n := Int32.toInt_ofNat_of_lt (by omega)
  exact hofNat

/-- Types with less than eight bits a pixel divide a byte. -/
theorem Valid.bpp_cases {size : Nat} (hf : f.Valid size) (h : f.bpp < 8) :
    f.bpp = 1 ∨ f.bpp = 2 ∨ f.bpp = 4 := by
  have hk := hf.known
  revert h hk
  unfold bpp
  cases f.pixelType <;> decide

/-! The full byte. -/

/-- Where pixel `i` of a byte starts, its first pixel at the low or at the high end. -/
theorem lowBit_cases (f : Frame) :
    (∀ k, f.lowBit k = k) ∨ ∀ k, f.lowBit k = 8 - f.bpp - k := by
  cases ho : f.pixelType.order with
  | lsbFirst => exact Or.inl (fun k => by simp only [lowBit, ho])
  | msbFirst => exact Or.inr (fun k => by simp only [lowBit, ho])

/-- Fields spliced one after the other hold the bits of the value wherever one of them lies, if the
fields over a bit agree on its place in them. -/
theorem testBit_foldl_splice (start : Nat → Nat) {len v k r : Nat} (n : Nat)
    (hr : ∀ i, i < n → start i ≤ k → k < start i + len → k - start i = r) :
    ((List.range n).foldl (fun acc i => splice acc (start i) len v) 0).testBit k =
      if ∃ i, i < n ∧ start i ≤ k ∧ k < start i + len then v.testBit r else false := by
  induction n with
  | zero => simp
  | succ n ih =>
    rw [List.range_succ, List.foldl_append, List.foldl_cons, List.foldl_nil, testBit_splice]
    by_cases hlast : start n ≤ k ∧ k < start n + len
    · rw [if_pos hlast, if_pos ⟨n, by omega, hlast⟩, hr n (by omega) hlast.1 hlast.2]
    · rw [if_neg hlast, ih (fun i hi => hr i (by omega))]
      apply if_congr _ rfl rfl
      constructor
      · intro h
        obtain ⟨i, hi, hbit⟩ := h
        exact ⟨i, by omega, hbit⟩
      · intro h
        obtain ⟨i, hi, hbit⟩ := h
        have hne : i ≠ n := fun he => hlast (he ▸ hbit)
        exact ⟨i, by omega, hbit⟩

section Small
variable (hbpp : f.bpp = 1 ∨ f.bpp = 2 ∨ f.bpp = 4)
include hbpp

/-- Every bit of a byte belongs to one of its pixels. -/
theorem byte_covered {k : Nat} (hk : k < 8) :
    ∃ j, j < 8 / f.bpp ∧ f.lowBit (j * f.bpp) ≤ k ∧ k < f.lowBit (j * f.bpp) + f.bpp := by
  have hlow := f.lowBit_cases
  generalize f.bpp = n at *
  rcases hlow with hlow | hlow
  · refine ⟨k / n, ?_⟩
    rw [hlow]
    rcases hbpp with rfl | rfl | rfl <;> omega
  · -- counted from the high end
    refine ⟨8 / n - 1 - k / n, ?_⟩
    rw [hlow]
    rcases hbpp with rfl | rfl | rfl <;> omega

/-- The place of a bit in its pixel is the same for all pixels of a byte. -/
theorem sub_lowBit {j k : Nat} (hj : j < 8 / f.bpp) (h₀ : f.lowBit (j * f.bpp) ≤ k)
    (h₁ : k < f.lowBit (j * f.bpp) + f.bpp) : k - f.lowBit (j * f.bpp) = k % f.bpp ∧ k < 8 := by
  have hlow := f.lowBit_cases
  generalize f.bpp = n at *
  rcases hlow with hlow | hlow <;> rw [hlow] at h₀ h₁ ⊢ <;>
    rcases hbpp with rfl | rfl | rfl <;> omega

theorem testBit_fullByte (v : Pixel) {k : Nat} (hk : k < 8) :
    (f.fullByte v).testBit k = v.toNat.testBit (k % f.bpp) := by
  rw [fullByte, testBit_foldl_splice (fun j => f.lowBit (j * f.bpp)) (r := k % f.bpp) _
    (fun j hj h₀ h₁ => (sub_lowBit hbpp hj h₀ h₁).1), if_pos (byte_covered hbpp hk)]

end Small

/-! Runs of full bytes. -/

section Small
variable {size : Nat} (h0 : f.offset = 0) (hbpp : f.bpp = 1 ∨ f.bpp = 2 ∨ f.bpp = 4)
include h0 hbpp

/-- Pixel `j` of byte `q` of a row that starts with a whole byte. -/
theorem place_of_byte (q j : Nat) (hj : j < 8 / f.bpp) :
    f.place (q * (8 / f.bpp) + j) = 8 * q + f.lowBit (j * f.bpp) := by
  have hcol : f.columnBit (q * (8 / f.bpp) + j) = 8 * q + j * f.bpp := by
    rw [columnBit, h0]
    generalize f.bpp = n at *
    rcases hbpp with rfl | rfl | rfl <;> omega
  have hlt : j * f.bpp < 8 := by
    generalize f.bpp = n at *
    rcases hbpp with rfl | rfl | rfl <;> omega
  rw [place, hcol, show (8 * q + j * f.bpp) / 8 = q by omega,
    show (8 * q + j * f.bpp) % 8 = j * f.bpp by omega]

/-- Whole bytes at the start of a row lie in the row, as far as their pixels do. -/
theorem Valid.bytes_le (hf : f.Valid size) {y count : Nat} (hw : 0 < f.width.toNat)
    (hy : y < f.height.toNat) (hcount : count * (8 / f.bpp) ≤ f.width.toNat) :
    f.start + y * f.stride + count ≤ size := by
  have hrow := hf.row_le hw hy
  have hspan : count ≤ f.rowSpan := by
    rw [rowSpan, byteCount, h0]
    generalize f.bpp = n at *
    rcases hbpp with rfl | rfl | rfl <;> omega
  omega

/-- Stamping the full byte paints the pixels of the bytes. -/
theorem Valid.stampBytes_paints (hf : f.Valid b.size) {y count : Nat} (hw : 0 < f.width.toNat)
    (hy : y < f.height.toNat) (hcount : count * (8 / f.bpp) ≤ f.width.toNat) (v : Pixel) :
    Yields (f.stampBytes y count (f.fullByte v) b)
      (f.Paints (fun x' y' => y' = y ∧ x' < (count * (8 / f.bpp) : Nat)) (fun _ _ => f.stored v) b) := by
  have hle := hf.bytes_le h0 hbpp hw hy hcount
  have hsized := hf.sized
  have hfirst : size64 (y * f.stride) = .ok (y * f.stride) := size64_of_le (by omega)
  have hper : 0 < 8 / f.bpp := by rcases hbpp with h | h | h <;> rw [h] <;> decide
  refine ⟨b.stamp (f.start + y * f.stride) 1 (f.fullByte v) count, ?_, ?_⟩
  · simp only [stampBytes, hfirst, ok_bind, if_pos hle, pure_eq_ok]
  refine hf.paints_of_bits (Bytes.size_stamp ..) (fun i hi => ?_) (fun x y' hxy hin => ?_)
  · rw [Bytes.bit_stamp (by omega)] at hi
    have hrun : 8 * (f.start + y * f.stride) ≤ i ∧ i < 8 * (f.start + y * f.stride + count * 1) := by
      by_contra h
      exact hi (if_neg h)
    -- the bit `r` of byte `q` of the run
    obtain ⟨q, r, hr, hi', hq⟩ : ∃ q r, r < 8 ∧ i = 8 * (f.start + y * f.stride) + 8 * q + r ∧
        q + 1 ≤ count :=
      ⟨(i - 8 * (f.start + y * f.stride)) / 8, (i - 8 * (f.start + y * f.stride)) % 8, by omega,
        by omega, by omega⟩
    obtain ⟨j, hj, h₀, h₁⟩ := byte_covered hbpp hr
    have hmul : (q + 1) * (8 / f.bpp) ≤ count * (8 / f.bpp) := Nat.mul_le_mul_right _ hq
    rw [Nat.succ_mul] at hmul
    have hplace := place_of_byte h0 hbpp q j hj
    refine ⟨(q * (8 / f.bpp) + j : Nat), y, ⟨by omega, by omega, by omega, by omega⟩,
      ⟨rfl, by omega⟩, ?_⟩
    rw [Int.toNat_natCast, Int.toNat_natCast, hf.owns_iff (by omega) hy, position, hplace]
    omega
  · obtain ⟨rfl, hx⟩ := hin
    obtain ⟨hx₀, -, -, -⟩ := hxy
    obtain ⟨n, rfl⟩ := Int.eq_ofNat_of_zero_le hx₀
    have hdiv := Nat.div_add_mod' n (8 / f.bpp)
    have hq : n / (8 / f.bpp) < count := (Nat.div_lt_iff_lt_mul hper).2 (by omega)
    have hj : n % (8 / f.bpp) < 8 / f.bpp := Nat.mod_lt _ hper
    have hplace := place_of_byte h0 hbpp (n / (8 / f.bpp)) _ hj
    rw [hdiv] at hplace
    apply Nat.eq_of_testBit_eq
    intro k
    rw [stored_testBit, pixel, Bytes.testBit_window, Int.toNat_natCast, Int.toNat_natCast]
    by_cases hk : k < f.bpp
    · obtain ⟨hsub, hlt⟩ := sub_lowBit hbpp hj (Nat.le_add_right _ k) (by omega)
      rw [Nat.add_sub_cancel_left] at hsub
      have hpos : f.position n y = 8 * (f.start + y * f.stride) +
          (8 * (n / (8 / f.bpp)) + f.lowBit (n % (8 / f.bpp) * f.bpp)) := by rw [position, hplace]
      have hbit : (f.position n y + k - 8 * (f.start + y * f.stride)) % (8 * 1) =
          f.lowBit (n % (8 / f.bpp) * f.bpp) + k := by omega
      rw [Bytes.bit_stamp (by omega), if_pos (by omega), hbit, testBit_fullByte hbpp v hlt, ← hsub]
    · simp [hk]

end Small

/-! The whole frame. -/

section Addressable
variable (hf : f.Addressable b.size)
include hf

theorem Addressable.fillFrom_paints {x : Int} (hx : 0 ≤ x) (v : Pixel) :
    Yields (f.fillFrom x v b) (f.Paints (fun x' _ => x ≤ x') (fun _ _ => f.stored v) b) := by
  unfold fillFrom
  rw [loopEnd_eq hf.width_le, loopEnd_eq hf.height_le]
  refine (Paints.forRange (fun y x' y' => x ≤ x' ∧ y' = y) (fun y c h₀ h₁ hc => ?_)).mono
    (fun c hc => hc.area (fun x' y' hxy => ?_))
  · refine (Paints.forRange (fun i x' y' => x' = i ∧ y' = y) (fun i d h₂ h₃ hd => ?_)).mono
      (fun d hd => hd.area (fun x' y' hxy => ?_))
    · have hxy : f.Contains i y := ⟨by omega, by omega, by omega, by omega⟩
      exact (hd.trans hc ▸ hf : f.Addressable d.size).write_paints hxy v
    · constructor
      · intro h
        obtain ⟨i, h₂, h₃, rfl, rfl⟩ := h
        exact ⟨h₂, rfl⟩
      · intro h
        exact ⟨x', h.1, hxy.2.2.1, rfl, h.2⟩
  · constructor
    · intro h
      obtain ⟨y, h₀, h₁, h₂, rfl⟩ := h
      exact h₂
    · intro h
      exact ⟨y', hxy.2.1, hxy.2.2.2, h, rfl⟩

/-- Filling sets every pixel. -/
theorem Addressable.fill_paints (v : Pixel) :
    Yields (f.fill v b) (f.Paints (fun _ _ => True) (fun _ _ => f.stored v) b) := by
  unfold fill
  by_cases hempty : f.isEmpty = true
  · rw [if_pos hempty]
    refine Yields.ok (Paints.none (fun x y hxy _ => ?_))
    obtain ⟨hx, hy, hw, hh⟩ := hxy
    have hfalse := isEmpty_eq_false_iff (f := f).2 ⟨by omega, by omega⟩
    rw [hfalse] at hempty
    cases hempty
  rw [if_neg hempty]
  obtain ⟨hw, hh⟩ := isEmpty_eq_false_iff.1 (Bool.eq_false_iff.2 hempty)
  by_cases ha : f.isAligned = true
  · rw [if_pos ha]
    refine (Paints.forRange (fun y => InRun 0 y f.width.toNat) (fun y c h₀ h₁ hc => ?_)).mono
      (fun c hc => hc.area (fun x y hxy => ⟨fun _ => trivial, fun _ => ?_⟩))
    · have hrow := (hc ▸ hf : f.Addressable c.size).toValid.stampRow_paints ha 0 y.toNat
        f.width.toNat (by omega) (by omega) hw v
      rwa [Int.toNat_of_nonneg h₀] at hrow
    · obtain ⟨hx₀, hy₀, hx₁, hy₁⟩ := hxy
      exact ⟨y, hy₀, hy₁, rfl, hx₀, by omega⟩
  rw [if_neg ha]
  by_cases hsmall : f.offset = 0 ∧ f.bpp < 8
  · rw [if_pos hsmall]
    obtain ⟨h0, hlt⟩ := hsmall
    have hbpp := hf.toValid.bpp_cases hlt
    have hfull : f.width.toNat / (8 / f.bpp) * (8 / f.bpp) ≤ f.width.toNat := Nat.div_mul_le_self ..
    have hwidth := hf.width_le
    dsimp only
    generalize f.width.toNat / (8 / f.bpp) = full at *
    rw [loopEnd_eq (by omega)]
    -- the whole bytes of all rows, and then what is left of them
    have hbytes : Yields (forRange 0 f.height.toNat b fun y b => f.stampBytes y.toNat full (f.fullByte v) b)
        (f.Paints (fun x _ => x < (full * (8 / f.bpp) : Nat)) (fun _ _ => f.stored v) b) := by
      refine (Paints.forRange (fun y x' y' => y' = y ∧ x' < (full * (8 / f.bpp) : Nat))
        (fun y c h₀ h₁ hc => ?_)).mono (fun c hc => hc.area (fun x y hxy => ?_))
      · have hrow := (hc ▸ hf : f.Addressable c.size).toValid.stampBytes_paints h0 hbpp hw
          (y := y.toNat) (by omega) hfull v
        rwa [Int.toNat_of_nonneg h₀] at hrow
      · constructor
        · intro h
          obtain ⟨y', h₀, h₁, rfl, h₂⟩ := h
          exact h₂
        · intro h
          exact ⟨y, hxy.2.1, hxy.2.2.2, rfl, h⟩
    refine hbytes.bind (fun c hc => ?_)
    have hf' : f.Addressable c.size := hc.keeps.size_eq ▸ hf
    apply (hf'.fillFrom_paints (Int.natCast_nonneg _) v).mono
    intro d hd
    apply (hc.trans hd).area
    intro x y _
    exact ⟨fun _ => trivial, fun _ => Int.lt_or_le x _⟩
  · rw [if_neg hsmall]
    apply (hf.fillFrom_paints (Int.le_refl 0) v).mono
    intro c hc
    apply hc.area
    intro x y hxy
    exact ⟨fun _ => trivial, fun _ => hxy.1⟩

end Addressable

end Raster.Frame
