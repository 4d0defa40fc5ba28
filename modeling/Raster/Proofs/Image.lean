import Raster.Proofs.Layout
import Raster.Proofs.Outcome

/- A buffer as an image. `Frame.pixel f b x y` is the value at a raw point, and
   `Frame.Keeps f b c` says that `b` and `c` agree in every bit outside of the pixels of
   `f`; the two together fix a buffer (`Keeps.ext`). `Frame.Paints f S g b c` is the
   exact effect of a drawing from `b` to `c`: on `S` the pixels are those of `g`, all
   others and all bits between them stay. Setting one pixel is the basis
   (`writeRaw_paints`); drawings one after the other and loops of drawings paint unions
   (`Paints.trans`, `Paints.forRange`). -/
namespace Raster.Frame

/-- A valid frame whose raw coordinates are 32-bit integers. -/
structure Addressable (f : Frame) (size : Nat) : Prop extends f.Valid size where
  width_le : f.width.toNat ≤ 0x7fffffff
  height_le : f.height.toNat ≤ 0x7fffffff

/-- The value of the pixel at a raw point of the frame. -/
def pixel (f : Frame) (b : Bytes) (x y : Int) : Nat := b.window (f.position x.toNat y.toNat) f.bpp

/-- What is stored of a pixel value. -/
def stored (f : Frame) (v : Pixel) : Nat := v.toNat % 2 ^ f.bpp

/-- The buffers have one size and agree in every bit that belongs to no pixel of the frame. -/
structure Keeps (f : Frame) (b c : Bytes) : Prop where
  size_eq : c.size = b.size
  bit_eq : ∀ i, (∀ x y, x < f.width.toNat → y < f.height.toNat → ¬ f.Owns x y i) →
    c.bit i = b.bit i

/-- From `b` to `c` the pixels of `S` take the values of `g`, and nothing else changes. -/
structure Paints (f : Frame) (S : Int → Int → Prop) (g : Int → Int → Nat) (b c : Bytes) : Prop where
  keeps : f.Keeps b c
  inside : ∀ x y, f.Contains x y → S x y → f.pixel c x y = g x y
  outside : ∀ x y, f.Contains x y → ¬ S x y → f.pixel c x y = f.pixel b x y

variable {f : Frame} {b c d : Bytes} {x y : Int} {S T : Int → Int → Prop} {g h : Int → Int → Nat}

theorem pixel_lt (f : Frame) (b : Bytes) (x y : Int) : f.pixel b x y < 2 ^ f.bpp :=
  Bytes.window_lt ..

/-- Every pixel fits a pixel value. -/
theorem pixel_lt_uint32 (f : Frame) (b : Bytes) (x y : Int) : f.pixel b x y < 2 ^ 32 :=
  Nat.lt_of_lt_of_le (pixel_lt f b x y) (Nat.pow_le_pow_right (by decide) (PixelType.bpp_le _))

theorem stored_eq_of_lt {v : Pixel} (hv : v.toNat < 2 ^ f.bpp) : f.stored v = v.toNat :=
  Nat.mod_eq_of_lt hv

theorem Contains.toNat_lt (hxy : f.Contains x y) :
    x.toNat < f.width.toNat ∧ y.toNat < f.height.toNat := by
  obtain ⟨hx, hy, hw, hh⟩ := hxy
  omega

/-! Buffers that keep what lies between the pixels. -/

namespace Keeps

theorem refl (f : Frame) (b : Bytes) : f.Keeps b b := ⟨rfl, fun _ _ => rfl⟩

theorem trans (h₁ : f.Keeps b c) (h₂ : f.Keeps c d) : f.Keeps b d := by
  refine ⟨h₂.size_eq.trans h₁.size_eq, fun i hi => ?_⟩
  rw [h₂.bit_eq i hi, h₁.bit_eq i hi]

theorem symm (h : f.Keeps b c) : f.Keeps c b :=
  ⟨h.size_eq.symm, fun i hi => (h.bit_eq i hi).symm⟩

/-- A bit stays if the pixel that it belongs to, if any, stays. -/
theorem bit_eq_of_pixel (hf : f.Valid b.size) (h : f.Keeps b c) {i : Nat}
    (hp : ∀ x y, f.Contains x y → f.Owns x.toNat y.toNat i → f.pixel c x y = f.pixel b x y) :
    c.bit i = b.bit i := by
  by_cases hi : ∃ x y, x < f.width.toNat ∧ y < f.height.toNat ∧ f.Owns x y i
  · obtain ⟨x, y, hx, hy, ho⟩ := hi
    obtain ⟨h₁, h₂⟩ := (hf.owns_iff hx hy).1 ho
    have hxy : f.Contains x y := by
      refine ⟨Int.natCast_nonneg x, Int.natCast_nonneg y, ?_, ?_⟩
      · exact Int.ofNat_lt.2 hx
      · exact Int.ofNat_lt.2 hy
    -- the bit is read off the number that both pixels hold
    have hbit := congrArg (·.testBit (i - f.position x y)) (hp x y hxy ho)
    simp only [pixel, Int.toNat_natCast, Bytes.testBit_window] at hbit
    have hk : i - f.position x y < f.bpp := by omega
    rw [decide_eq_true hk, Bool.true_and, Bool.true_and, Nat.add_sub_cancel' h₁] at hbit
    exact hbit
  · exact h.bit_eq i (fun x y hx hy ho => hi ⟨x, y, hx, hy, ho⟩)

/-- Buffers kept from one buffer are equal if they show the same pixels. -/
theorem ext (hf : f.Valid b.size) (hc : f.Keeps b c) (hd : f.Keeps b d)
    (hp : ∀ x y, f.Contains x y → f.pixel c x y = f.pixel d x y) : c = d := by
  have hdc : f.Keeps d c := hd.symm.trans hc
  apply Bytes.ext_bit hdc.size_eq
  intro i
  exact hdc.bit_eq_of_pixel (hd.size_eq ▸ hf) (fun x y hxy _ => hp x y hxy)

theorem forRange {lo hi : Int} {step : Int → Bytes → Except Fault Bytes}
    (hstep : ∀ i c, lo ≤ i → i < hi → c.size = b.size → Yields (step i c) (f.Keeps c)) :
    Yields (Raster.forRange lo hi b step) (f.Keeps b) := by
  refine Yields.forRange (fun _ c => f.Keeps b c) (refl f b) (fun i c h₀ h₁ hc => ?_)
  exact (hstep i c h₀ h₁ hc.size_eq).mono (fun d hd => hc.trans hd)

end Keeps

/-! Painting. -/

namespace Paints

/-- Nothing of the frame is painted. -/
theorem none (hS : ∀ x y, f.Contains x y → ¬ S x y) : f.Paints S g b b := by
  refine ⟨Keeps.refl f b, fun x y hxy hs => ?_, fun _ _ _ _ => rfl⟩
  exact absurd hs (hS x y hxy)

/-- The area and the values matter in the frame only. -/
theorem congr (hp : f.Paints S g b c) (hS : ∀ x y, f.Contains x y → (S x y ↔ T x y))
    (hg : ∀ x y, f.Contains x y → T x y → g x y = h x y) : f.Paints T h b c := by
  refine ⟨hp.keeps, fun x y hxy ht => ?_, fun x y hxy ht => ?_⟩
  · rw [hp.inside x y hxy ((hS x y hxy).2 ht), hg x y hxy ht]
  · exact hp.outside x y hxy (fun hs => ht ((hS x y hxy).1 hs))

theorem area (hp : f.Paints S g b c) (hS : ∀ x y, f.Contains x y → (S x y ↔ T x y)) :
    f.Paints T g b c :=
  hp.congr hS (fun _ _ _ _ => rfl)

/-- Painting two areas with the same values paints both. -/
theorem trans (h₁ : f.Paints S g b c) (h₂ : f.Paints T g c d) :
    f.Paints (fun x y => S x y ∨ T x y) g b d := by
  refine ⟨h₁.keeps.trans h₂.keeps, fun x y hxy hst => ?_, fun x y hxy hst => ?_⟩
  · by_cases ht : T x y
    · exact h₂.inside x y hxy ht
    · rw [h₂.outside x y hxy ht]
      exact h₁.inside x y hxy (hst.resolve_right ht)
  · rw [h₂.outside x y hxy (fun ht => hst (Or.inr ht))]
    exact h₁.outside x y hxy (fun hs => hst (Or.inl hs))

/-- A bit stays that belongs to no pixel of the area. -/
theorem bit_eq (hf : f.Valid b.size) (hp : f.Paints S g b c) {i : Nat}
    (hi : ∀ x y, f.Contains x y → S x y → ¬ f.Owns x.toNat y.toNat i) : c.bit i = b.bit i := by
  apply hp.keeps.bit_eq_of_pixel hf
  intro x y hxy ho
  exact hp.outside x y hxy (fun hs => hi x y hxy hs ho)

/-- What is painted is fixed by the area and the values. -/
theorem unique (hf : f.Valid b.size) (hc : f.Paints S g b c) (hd : f.Paints S g b d) : c = d := by
  apply hc.keeps.ext hf hd.keeps
  intro x y hxy
  by_cases hs : S x y
  · rw [hc.inside x y hxy hs, hd.inside x y hxy hs]
  · rw [hc.outside x y hxy hs, hd.outside x y hxy hs]

/-- What paints two areas is what paints the first one just if the rest of the second had its values. -/
theorem eq_part_iff {T : Int → Int → Prop} (hf : f.Valid b.size)
    (hc : f.Paints (fun x y => S x y ∨ T x y) g b c) (hd : f.Paints S g b d) :
    c = d ↔ ∀ x y, f.Contains x y → T x y → ¬ S x y → f.pixel b x y = g x y := by
  constructor
  · intro he x y hxy ht hs
    rw [← hd.outside x y hxy hs, ← he]
    exact hc.inside x y hxy (Or.inr ht)
  · intro hrest
    refine hc.unique hf ⟨hd.keeps, fun x y hxy hst => ?_, fun x y hxy hst => ?_⟩
    · by_cases hs : S x y
      · exact hd.inside x y hxy hs
      · rw [hd.outside x y hxy hs, hrest x y hxy (hst.resolve_left hs) hs]
    · exact hd.outside x y hxy (fun hs => hst (Or.inl hs))

/-- Painting changes nothing just where the values are there already. -/
theorem eq_iff (hf : f.Valid b.size) (hp : f.Paints S g b c) :
    c = b ↔ ∀ x y, f.Contains x y → S x y → f.pixel b x y = g x y := by
  have hwhole : f.Paints (fun x y => False ∨ S x y) g b c := hp.area (by simp)
  have hnothing : f.Paints (fun _ _ => False) g b b := none (fun _ _ _ h => h)
  rw [hwhole.eq_part_iff hf hnothing]
  simp only [not_false_eq_true, forall_const]

/-- A loop whose steps paint `A i` with the same values paints all of them. -/
theorem forRange {lo hi : Int} {step : Int → Bytes → Except Fault Bytes}
    (A : Int → Int → Int → Prop)
    (hstep : ∀ i c, lo ≤ i → i < hi → c.size = b.size → Yields (step i c) (f.Paints (A i) g c)) :
    Yields (Raster.forRange lo hi b step)
      (f.Paints (fun x y => ∃ i, lo ≤ i ∧ i < hi ∧ A i x y) g b) := by
  -- before step `j` the areas of the steps so far are painted
  let I : Int → Bytes → Prop := fun j c => f.Paints (fun x y => ∃ i, lo ≤ i ∧ i < j ∧ A i x y) g b c
  have hbase : I lo b := none (fun x y _ ⟨i, h₁, h₂, _⟩ => by omega)
  have hloop := Yields.forRange I hbase (fun j c h₁ h₂ hc => by
    apply (hstep j c h₁ h₂ hc.keeps.size_eq).mono
    intro d hd
    apply (hc.trans hd).area
    intro x y _
    constructor
    · intro h
      rcases h with ⟨i, hlo, hlt, ha⟩ | ha
      · exact ⟨i, hlo, by omega, ha⟩
      · exact ⟨j, h₁, by omega, ha⟩
    · intro h
      obtain ⟨i, hlo, hlt, ha⟩ := h
      by_cases hij : i = j
      · exact Or.inr (hij ▸ ha)
      · exact Or.inl ⟨i, hlo, by omega, ha⟩)
  apply hloop.mono
  intro c hc
  apply hc.area
  intro x y _
  constructor
  · intro h
    obtain ⟨i, h₁, h₂, ha⟩ := h
    exact ⟨i, h₁, by omega, ha⟩
  · intro h
    obtain ⟨i, h₁, h₂, ha⟩ := h
    exact ⟨i, h₁, by omega, ha⟩

/-- A fold whose steps paint `A i` with the same values paints all of them. -/
theorem foldlM {ι : Type} {step : Bytes → ι → Except Fault Bytes}
    (A : ι → Int → Int → Prop) (l : List ι)
    (hstep : ∀ i ∈ l, ∀ c, c.size = b.size → Yields (step c i) (f.Paints (A i) g c)) :
    Yields (l.foldlM step b) (f.Paints (fun x y => ∃ i ∈ l, A i x y) g b) := by
  induction l generalizing b with
  | nil => exact Yields.ok (none (fun _ _ _ h => by simp at h))
  | cons i l ih =>
    rw [List.foldlM_cons]
    refine Yields.bind (hstep i List.mem_cons_self b rfl) (fun c hc => ?_)
    have hrest := ih (b := c) (fun j hj d hd =>
      hstep j (List.mem_cons_of_mem _ hj) d (hd.trans hc.keeps.size_eq))
    refine hrest.mono (fun d hd => (hc.trans hd).area (fun x y _ => ?_))
    simp only [List.mem_cons, exists_eq_or_imp]

end Paints

/-- A change of bits that all belong to pixels of an area paints the area with what they show now. -/
theorem Valid.paints_of_bits {size : Nat} (hf : f.Valid size) (hs : c.size = b.size)
    (hbits : ∀ i, c.bit i ≠ b.bit i →
      ∃ x y, f.Contains x y ∧ S x y ∧ f.Owns x.toNat y.toNat i)
    (hin : ∀ x y, f.Contains x y → S x y → f.pixel c x y = g x y) : f.Paints S g b c := by
  refine ⟨⟨hs, fun i hi => ?_⟩, hin, fun x' y' hxy' hne => ?_⟩
  · by_contra hbit
    obtain ⟨x, y, hxy, -, ho⟩ := hbits i hbit
    obtain ⟨hx, hy⟩ := hxy.toNat_lt
    exact hi _ _ hx hy ho
  · obtain ⟨hx', hy'⟩ := hxy'.toNat_lt
    refine Bytes.window_congr (fun k hk => ?_)
    by_contra hbit
    obtain ⟨x, y, hxy, hxyS, ho⟩ := hbits _ hbit
    obtain ⟨hx, hy⟩ := hxy.toNat_lt
    rw [hf.owns_iff hx hy] at ho
    -- the bit would be shared with a pixel of the area
    have hother : (x'.toNat, y'.toNat) ≠ (x.toNat, y.toNat) := by
      intro he
      obtain ⟨h₁, h₂⟩ := Prod.mk.inj he
      obtain ⟨hx0, hy0, -, -⟩ := hxy
      obtain ⟨hx0', hy0', -, -⟩ := hxy'
      obtain rfl : x' = x := by omega
      obtain rfl : y' = y := by omega
      exact hne hxyS
    have hapart := hf.position_apart hx hy hx' hy' hother
    omega

/-! Single pixels. -/

theorem Valid.readRaw_eq (hf : f.Valid b.size) (x y : Int32) (hxy : f.Contains x.toInt y.toInt) :
    f.readRaw x y b = .ok (UInt32.ofNat (f.pixel b x.toInt y.toInt)) := by
  obtain ⟨hx, hy⟩ := hxy.toNat_lt
  have hb := (hf.position_bounds hx hy).2
  rw [readRaw, if_pos hxy, hf.locate_eq hx hy, ok_bind, Bytes.readBits_eq hb]
  rfl

/-- The other pixels keep their bits when the bits of one are replaced. -/
theorem Valid.overwrite_paints (hf : f.Valid b.size) (hxy : f.Contains x y) (v : Pixel) :
    f.Paints (fun x' y' => x' = x ∧ y' = y) (fun _ _ => f.stored v) b
      (b.overwrite (f.position x.toNat y.toNat) f.bpp v.toNat) := by
  obtain ⟨hx, hy⟩ := hxy.toNat_lt
  have hb := (hf.position_bounds hx hy).2
  refine ⟨⟨Bytes.size_overwrite .., fun i hi => ?_⟩, ?_, fun x' y' hxy' hne => ?_⟩
  · have hout := hi _ _ hx hy
    rw [hf.owns_iff hx hy] at hout
    rw [Bytes.bit_overwrite hb, if_neg hout]
  · intro _ _ _ h
    obtain ⟨rfl, rfl⟩ := h
    exact Bytes.window_overwrite_self hb _
  · obtain ⟨hx', hy'⟩ := hxy'.toNat_lt
    have hother : (x'.toNat, y'.toNat) ≠ (x.toNat, y.toNat) := by
      intro he
      obtain ⟨h₁, h₂⟩ := Prod.mk.inj he
      obtain ⟨hx0, hy0, -, -⟩ := hxy
      obtain ⟨hx0', hy0', -, -⟩ := hxy'
      exact hne ⟨by omega, by omega⟩
    -- another point has other bits
    have hapart := hf.position_apart hx hy hx' hy' hother
    exact Bytes.window_overwrite_of_apart hb _ hapart.symm

theorem Valid.writeRaw_paints (hf : f.Valid b.size) (x y : Int32)
    (hxy : f.Contains x.toInt y.toInt) (v : Pixel) :
    Yields (f.writeRaw x y v b)
      (f.Paints (fun x' y' => x' = x.toInt ∧ y' = y.toInt) (fun _ _ => f.stored v) b) := by
  obtain ⟨hx, hy⟩ := hxy.toNat_lt
  have hb := (hf.position_bounds hx hy).2
  refine ⟨_, ?_, hf.overwrite_paints hxy v⟩
  rw [writeRaw, if_pos hxy, hf.locate_eq hx hy, ok_bind, Bytes.writeBits_eq hb]

/-- Setting the pixel of a point in the frame paints that point, if 32-bit integers reach it. -/
theorem Valid.write_paints (hf : f.Valid b.size) (hxy : f.Contains x y) (hx : x ≤ 0x7fffffff)
    (hy : y ≤ 0x7fffffff) (v : Pixel) :
    Yields (f.writeRaw (.ofInt x) (.ofInt y) v b)
      (f.Paints (fun x' y' => x' = x ∧ y' = y) (fun _ _ => f.stored v) b) := by
  obtain ⟨hx₀, hy₀, -, -⟩ := id hxy
  have hx' : (Int32.ofInt x).toInt = x := Int32.toInt_ofInt_of_le (by omega) (by omega)
  have hy' : (Int32.ofInt y).toInt = y := Int32.toInt_ofInt_of_le (by omega) (by omega)
  have h := hf.writeRaw_paints (.ofInt x) (.ofInt y) (by rw [hx', hy']; exact hxy) v
  rwa [hx', hy'] at h

section Addressable
variable (hf : f.Addressable b.size)
include hf

theorem Addressable.coordinates_le (hxy : f.Contains x y) : x ≤ 0x7fffffff ∧ y ≤ 0x7fffffff := by
  obtain ⟨hx, hy, hw, hh⟩ := hxy
  have hw' := hf.width_le
  have hh' := hf.height_le
  omega

/-- Coordinates of the frame are 32-bit integers. -/
theorem Addressable.toInt_ofInt (hxy : f.Contains x y) :
    (Int32.ofInt x).toInt = x ∧ (Int32.ofInt y).toInt = y := by
  obtain ⟨hx₁, hy₁⟩ := hf.coordinates_le hxy
  obtain ⟨hx₀, hy₀, -, -⟩ := hxy
  constructor
  · exact Int32.toInt_ofInt_of_le (by omega) (by omega)
  · exact Int32.toInt_ofInt_of_le (by omega) (by omega)

theorem Addressable.read_eq (hxy : f.Contains x y) :
    f.readRaw (.ofInt x) (.ofInt y) b = .ok (UInt32.ofNat (f.pixel b x y)) := by
  obtain ⟨hx, hy⟩ := hf.toInt_ofInt hxy
  have h := hf.toValid.readRaw_eq (.ofInt x) (.ofInt y) (by rw [hx, hy]; exact hxy)
  rwa [hx, hy] at h

/-- Setting the pixel of a point in the frame paints that point. -/
theorem Addressable.write_paints (hxy : f.Contains x y) (v : Pixel) :
    Yields (f.writeRaw (.ofInt x) (.ofInt y) v b)
      (f.Paints (fun x' y' => x' = x ∧ y' = y) (fun _ _ => f.stored v) b) := by
  obtain ⟨hx, hy⟩ := hf.coordinates_le hxy
  exact hf.toValid.write_paints hxy hx hy v

/-- A clipped write paints its point, as far as it lies in the frame. -/
theorem Addressable.writeClipped_paints (x y : Int) (v : Pixel) :
    Yields (f.writeClipped x y v b)
      (f.Paints (fun x' y' => x' = x ∧ y' = y) (fun _ _ => f.stored v) b) := by
  by_cases hxy : f.Contains x y
  · rw [writeClipped, if_pos hxy]
    exact hf.write_paints hxy v
  · rw [writeClipped, if_neg hxy]
    refine Yields.ok (Paints.none (fun x' y' hin h => hxy ?_))
    rw [← h.1, ← h.2]
    exact hin

end Addressable

end Raster.Frame
