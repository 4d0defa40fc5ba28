import Raster.Pixmap.Copy
import Raster.Proofs.Colouring
import Raster.Proofs.Comparison
import Raster.Proofs.Fill

/- Copies of whole pixmaps. The buffer of a copy has its rows close together. Rows that
   start with a byte are copied in whole bytes (`Valid.takeRows_bits`), with the bits that
   stand behind their last pixel, and from all others the pixels are taken one by one
   (`Addressable.takePixels_paints`). Either way the copy has the pixels of the source, and
   what it holds between them is known (`Repacks`). So a copy shows what it was asked to
   take over, and a copy of everything is equal to the source (`Pixmap.copy_faithful`). Two
   pixmaps with the same pixels have the same copy just if the copies take along the same
   bits between the pixels (`Pixmap.copy_same_iff`). -/
namespace Raster

namespace Bytes

/-- A cut-out holds the bits that follow its first byte. -/
theorem bit_extract {b : Bytes} {i n k : Nat} (h : i + n ≤ b.size) (hk : k < 8 * n) :
    Bytes.bit (b.extract i (i + n)) k = b.bit (8 * i + k) := by
  have hbyte : (8 * i + k) / 8 = i + k / 8 := by omega
  have hbit : (8 * i + k) % 8 = k % 8 := by omega
  rw [bit, bit, hbyte, hbit, Array.getElem?_extract, if_pos (by omega)]

theorem bit_zeros (n k : Nat) : Bytes.bit (Array.replicate n 0) k = false := by
  rw [bit, Array.getElem?_replicate]
  split_ifs <;> exact Nat.zero_testBit _

theorem bit_of_size_le {b : Bytes} {i : Nat} (h : 8 * b.size ≤ i) : b.bit i = false := by
  rw [bit, Array.getElem?_eq_none (by omega)]
  exact Nat.zero_testBit _

end Bytes

namespace Frame
variable {f : Frame} {b c : Bytes} {src : Pixmap}

/-- The frame has as many pixels as `src`, of the same type. -/
structure Resembles (f : Frame) (src : Pixmap) : Prop where
  type_eq : f.pixelType = src.pixelType
  width_eq : f.width = src.width
  height_eq : f.height = src.height

/-- Rows start with a byte and follow each other without a gap, from the first byte of a buffer on. -/
structure Packed (f : Frame) : Prop where
  start_eq : f.start = 0
  offset_eq : f.offset = 0
  stride_eq : f.stride = f.rowSpan

theorem Resembles.bpp_eq (h : f.Resembles src) : f.bpp = src.bpp := congrArg PixelType.bpp h.type_eq

theorem Resembles.contains_iff (h : f.Resembles src) {x y : Int} :
    f.Contains x y ↔ src.Contains x y := by
  rw [Contains, Contains, h.width_eq, h.height_eq]

/-! Pixel by pixel. -/

theorem Addressable.takePixels_paints (hf : f.Addressable b.size) (hs : src.Addressable)
    (h : f.Resembles src) :
    Yields (f.takePixels src b) (f.Paints (fun _ _ => True) (src.pixel src.bytes) b) := by
  rw [takePixels, loopEnd_eq hs.height_le, loopEnd_eq hs.width_le]
  refine (Paints.forRange (fun y _ y' => y' = y) (fun y c hy₀ hy₁ hc => ?_)).mono
    (fun c hc => hc.area (fun x y hxy => ?_))
  · refine (Paints.forRange (fun x x' y' => x' = x ∧ y' = y) (fun x d hx₀ hx₁ hd => ?_)).mono
      (fun d hd => hd.area (fun x' y' hxy => ?_))
    · have hin : src.Contains x y := ⟨hx₀, hy₀, hx₁, hy₁⟩
      have hf' : f.Addressable d.size := (hd.trans hc).symm ▸ hf
      rw [Frame.Addressable.read_eq hs hin, ok_bind]
      apply (hf'.write_paints (h.contains_iff.2 hin) _).mono
      intro e he
      refine he.congr (fun _ _ _ => Iff.rfl) (fun x' y' _ hxy => ?_)
      obtain ⟨rfl, rfl⟩ := hxy
      have hlt : src.pixel src.bytes x' y' < 2 ^ f.bpp := h.bpp_eq ▸ pixel_lt ..
      rw [stored, UInt32.toNat_ofNat_of_lt' (pixel_lt_uint32 ..), Nat.mod_eq_of_lt hlt]
    · obtain ⟨hx₀, -, hx₁, -⟩ := h.contains_iff.1 hxy
      constructor
      · rintro ⟨_, _, _, _, rfl⟩
        rfl
      · rintro rfl
        exact ⟨x', hx₀, hx₁, rfl, rfl⟩
  · obtain ⟨-, hy₀, -, hy₁⟩ := h.contains_iff.1 hxy
    exact ⟨fun _ => trivial, fun _ => ⟨y, hy₀, hy₁, rfl⟩⟩

/-! Row by row. -/

theorem Valid.row_eq (hs : src.WellFormed) {y : UInt32} (hw : 0 < src.width.toNat)
    (hy : y.toNat < src.height.toNat) : src.row y = .ok (src.bytes.extract
      (src.start + y.toNat * src.stride) (src.start + y.toNat * src.stride + src.rowSpan)) := by
  have hrow := Valid.row_le hs hw hy
  have hsized := hs.sized
  have hstart := hs.start_le
  have hfirst : size64 (y.toNat * src.stride) = .ok (y.toNat * src.stride) :=
    size64_of_le (by omega)
  rw [Pixmap.row, hfirst, ok_bind]
  exact if_pos (by rw [Pixmap.size]; show _ + src.rowSpan ≤ _; omega)

/-- Copied rows hold the bits of the rows of the source. -/
theorem Valid.takeRows_bits (hf : f.Valid b.size) (hs : src.WellFormed) (h : f.Resembles src)
    (hpacked : f.Packed) (hoffset : src.offset = 0) (hw : 0 < f.width.toNat) :
    Yields (f.takeRows src b) (fun c => c.size = b.size ∧
      ∀ y k, y < f.height.toNat → k < 8 * f.stride →
        c.bit (8 * (y * f.stride) + k) = src.bytes.bit (8 * (src.start + y * src.stride) + k)) := by
  have hspan : src.rowSpan = f.stride := by
    rw [hpacked.stride_eq, rowSpan, rowSpan, h.bpp_eq, h.width_eq, hpacked.offset_eq, hoffset]
  have hws : 0 < src.width.toNat := h.width_eq ▸ hw
  -- before row `j` all rows above it are copied
  let I : Int → Bytes → Prop := fun j c => c.size = b.size ∧ ∀ y k : Nat, (y : Int) < j →
    k < 8 * f.stride →
      c.bit (8 * (y * f.stride) + k) = src.bytes.bit (8 * (src.start + y * src.stride) + k)
  have hbase : I 0 b := ⟨rfl, fun y k hy _ => by omega⟩
  refine (Yields.forRange I hbase (fun j c hj₀ hj₁ hc => ?_)).mono (fun c hc => ?_)
  · obtain ⟨hsize, hbits⟩ := hc
    have hnat : (UInt32.ofNat j.toNat).toNat = j.toNat := by
      have hlt := src.height.toNat_lt
      exact UInt32.toNat_ofNat_of_lt' (by unfold UInt32.size; omega)
    have hrow := Valid.row_le hs hws (y := j.toNat) (by omega)
    have hrow' := hsize ▸ hf.row_le hw (y := j.toNat) (by rw [h.height_eq]; omega)
    rw [Valid.row_eq hs hws (by rw [hnat]; omega), ok_bind, hnat, hspan]
    rw [hspan] at hrow
    rw [← hpacked.stride_eq] at hrow'
    have hlen : (src.bytes.extract (src.start + j.toNat * src.stride)
        (src.start + j.toNat * src.stride + f.stride)).size = f.stride := by
      rw [Array.size_extract]
      omega
    rw [if_pos ⟨hlen.ge, by omega⟩]
    refine Yields.ok ⟨(Bytes.size_copyRun ..).trans hsize, fun y k hy hk => ?_⟩
    rw [hpacked.start_eq] at hrow' ⊢
    rw [Bytes.bit_copyRun (by omega)]
    by_cases hyj : y = j.toNat
    · subst hyj
      rw [if_pos (by omega), ← Bytes.bit_extract hrow hk]
      congr 1
      omega
    · have hprev : (y + 1) * f.stride ≤ j.toNat * f.stride := Nat.mul_le_mul_right _ (by omega)
      rw [Nat.succ_mul] at hprev
      rw [if_neg (by omega)]
      exact hbits y k (by omega) hk
  · refine ⟨hc.1, fun y k hy hk => hc.2 y k ?_ hk⟩
    rw [h.height_eq] at hy
    omega

/-! What the buffer of a copy holds. -/

/-- Bit `i` of the buffer belongs to no pixel of the frame. -/
def Spare (f : Frame) (i : Nat) : Prop :=
  ∀ x y, x < f.width.toNat → y < f.height.toNat → ¬ f.Owns x y i

end Frame

/-- The bit that a copy of `p` takes along to bit `i` if no pixel of the copy is there: what stands
at the same place of the same row, where rows are copied in whole bytes. -/
def Pixmap.carried (p : Pixmap) (i : Nat) : Bool :=
  let row := 8 * p.pixelType.rowBytes p.width
  decide (p.offset = 0) && p.bytes.bit (8 * (p.start + i / row * p.stride) + i % row)

namespace Frame
variable {f : Frame} {b c : Bytes} {src : Pixmap}

/-- The rows of `f` follow each other through the whole of `c`. They have the pixels of `src` and the
bits that it lets go along. -/
structure Repacks (f : Frame) (src : Pixmap) (c : Bytes) : Prop where
  size_eq : c.size = f.stride * f.height.toNat
  pixel_eq : ∀ x y, f.Contains x y → f.pixel c x y = src.pixel src.bytes x y
  spare_eq : ∀ i, i < 8 * c.size → f.Spare i → c.bit i = src.carried i

/-- Orientation and gamma have no part in where pixels lie. -/
theorem Repacks.reorient (h : f.Repacks src c) (o : Orientation) (g : Option Gamma) :
    Frame.Repacks { f with orientation := o, gamma := g } src c :=
  ⟨h.size_eq, h.pixel_eq, h.spare_eq⟩

theorem Resembles.place_eq (h : f.Resembles src) (hoffset : f.offset = src.offset) (x : Nat) :
    f.place x = src.place x := by
  simp only [place, columnBit, lowBit, h.bpp_eq, h.type_eq, hoffset]

theorem Resembles.stride_eq (h : f.Resembles src) (hpacked : f.Packed) :
    f.stride = src.pixelType.rowBytes src.width := by
  rw [hpacked.stride_eq, rowSpan, hpacked.offset_eq, Nat.zero_add, h.bpp_eq, h.width_eq]
  rfl

/-- Rows with the same bits have the same pixels. -/
theorem Resembles.pixel_eq {x y : Int} {size : Nat} (h : f.Resembles src) (hf : f.Valid size)
    (hpacked : f.Packed) (hoffset : src.offset = 0) (hxy : f.Contains x y)
    (hrow : ∀ k, k < 8 * f.stride → c.bit (8 * (y.toNat * f.stride) + k) =
      src.bytes.bit (8 * (src.start + y.toNat * src.stride) + k)) :
    f.pixel c x y = src.pixel src.bytes x y := by
  have hplace := h.place_eq (hpacked.offset_eq.trans hoffset.symm) x.toNat
  have hlt := (hf.place_lt hxy.toNat_lt.1).2
  rw [← hpacked.stride_eq] at hlt
  rw [pixel, pixel, ← h.bpp_eq]
  refine Bytes.window_congr (fun k hk => ?_)
  rw [position, position, hpacked.start_eq, Nat.zero_add, Nat.add_assoc, Nat.add_assoc, ← hplace]
  exact hrow (f.place x.toNat + k) (by omega)

/-- Bit `i` is bit `i % row` of row `i / row`. -/
theorem row_add_bit (stride i : Nat) :
    8 * (i / (8 * stride) * stride) + i % (8 * stride) = i := by
  rw [Nat.mul_left_comm, Nat.mul_comm _ (8 * stride)]
  exact Nat.div_add_mod ..

/-- In a row of whole bytes that pixels fill from its start on, some column holds bit `k`. -/
theorem Valid.exists_place {size n k : Nat} (hf : f.Valid size) (hoffset : f.offset = 0)
    (hfull : f.width.toNat * f.bpp = 8 * n) (hk : k < 8 * n) :
    ∃ x, x < f.width.toNat ∧ f.place x ≤ k ∧ k < f.place x + f.bpp := by
  have hbpp := hf.bpp_pos
  have hcolumn : ∀ x, f.columnBit x = x * f.bpp := fun x => by rw [columnBit, hoffset]; rfl
  have hcut : ∀ j, j < 8 * n →
      j / f.bpp < f.width.toNat ∧ j / f.bpp * f.bpp ≤ j ∧ j < j / f.bpp * f.bpp + f.bpp := by
    intro j hj
    have hdiv := Nat.div_add_mod' j f.bpp
    have hmod := Nat.mod_lt j hbpp
    exact ⟨(Nat.div_lt_iff_lt_mul hbpp).2 (hfull ▸ hj), by omega, by omega⟩
  rcases hf.place_cases with h | h
  · obtain ⟨hx, h₀, h₁⟩ := hcut k hk
    exact ⟨_, hx, by rw [h, hcolumn]; exact h₀, by rw [h, hcolumn]; exact h₁⟩
  · -- columns are counted from the other end of the byte
    obtain ⟨hx, h₀, h₁⟩ := hcut (8 * (k / 8) + (7 - k % 8)) (by omega)
    refine ⟨_, hx, ?_⟩
    obtain ⟨h₈, hp⟩ := h ((8 * (k / 8) + (7 - k % 8)) / f.bpp)
    rw [hcolumn] at h₈ hp
    rw [hp]
    omega

/-- Packed rows that fill whole bytes leave no bit between the pixels. -/
theorem Valid.not_spare {size i : Nat} (hf : f.Valid size) (hpacked : f.Packed)
    (hfull : f.width.toNat * f.bpp = 8 * f.stride) (hi : i < 8 * f.stride * f.height.toNat) :
    ¬ f.Spare i := by
  have hrow : 0 < 8 * f.stride := Nat.pos_of_mul_pos_right (Nat.zero_lt_of_lt hi)
  have hy : i / (8 * f.stride) < f.height.toNat := Nat.div_lt_of_lt_mul hi
  obtain ⟨x, hx, h₀, h₁⟩ := hf.exists_place hpacked.offset_eq hfull (Nat.mod_lt i hrow)
  intro hspare
  refine hspare x _ hx hy ((hf.owns_iff hx hy).2 ?_)
  have hbit := row_add_bit f.stride i
  rw [position, hpacked.start_eq]
  omega

/-- A copy into zeros has the pixels of the source, and between them what goes along. -/
theorem Addressable.takes_repack (hf : f.Addressable b.size) (hs : src.Addressable)
    (h : f.Resembles src) (hpacked : f.Packed) (hsize : b.size = f.stride * f.height.toNat)
    (hzero : ∀ i, b.bit i = false) (hw : 0 < f.width.toNat) :
    Yields (if src.offset = 0 then f.takeRows src b else f.takePixels src b) (f.Repacks src) := by
  have hstride := h.stride_eq hpacked
  by_cases hoffset : src.offset = 0
  · rw [if_pos hoffset]
    refine (Valid.takeRows_bits hf.toValid hs.toValid h hpacked hoffset hw).mono (fun c hc => ?_)
    obtain ⟨hcsize, hrows⟩ := hc
    rw [hsize] at hcsize
    refine ⟨hcsize, fun x y hxy => ?_, fun i hi _ => ?_⟩
    · exact h.pixel_eq hf.toValid hpacked hoffset hxy (fun k hk => hrows _ k hxy.toNat_lt.2 hk)
    · have hlt : i < 8 * f.stride * f.height.toNat := by rw [Nat.mul_assoc, ← hcsize]; exact hi
      have hrow : 0 < 8 * f.stride := Nat.pos_of_mul_pos_right (Nat.zero_lt_of_lt hlt)
      have hbit := hrows _ _ (Nat.div_lt_of_lt_mul hlt) (Nat.mod_lt i hrow)
      rw [row_add_bit] at hbit
      rw [Pixmap.carried, decide_eq_true hoffset, Bool.true_and, ← hstride, hbit]
  · rw [if_neg hoffset]
    refine (hf.takePixels_paints hs h).mono (fun c hc => ?_)
    refine ⟨hc.keeps.size_eq.trans hsize, fun x y hxy => hc.inside x y hxy trivial, fun i _ hi => ?_⟩
    rw [hc.keeps.bit_eq i hi, hzero, Pixmap.carried, decide_eq_false hoffset, Bool.false_and]

end Frame

namespace Pixmap
open Raster.Frame

/-! New pixmaps. -/

section Blank
variable (w h : UInt32) (type : PixelType)

theorem blank_packed : (blank w h type).Packed := by
  refine ⟨rfl, rfl, ?_⟩
  show (if w = 0 then 0 else type.rowBytes w) = byteCount (0 + w.toNat * type.bpp)
  rw [Nat.zero_add]
  split_ifs with hw
  · rw [hw, UInt32.toNat_zero, Nat.zero_mul]
    rfl
  · rfl

theorem blank_size : (blank w h type).bytes.size = (blank w h type).stride * h.toNat := by
  rw [(blank_packed w h type).stride_eq, rowSpan, (blank_packed w h type).offset_eq, Nat.zero_add]
  exact Array.size_replicate

theorem blank_bit (i : Nat) : (blank w h type).bytes.bit i = false := Bytes.bit_zeros ..

end Blank

/-! Copies. -/

section Copy
variable {p q : Pixmap} {parts : CopyParts}

/-- The frame of a copy: rows as close as whole bytes allow, from the first byte of a buffer on. -/
def copyFrame (p : Pixmap) (parts : CopyParts) : Frame :=
  { plainFrame p.width p.height p.pixelType (p.pixelType.rowBytes p.width) with
    orientation := if parts.orientation then p.orientation else .identity
    gamma := if parts.gamma then p.gamma else none }

theorem copyFrame_packed (p : Pixmap) (parts : CopyParts) : (p.copyFrame parts).Packed :=
  ⟨rfl, rfl, (blank_packed p.width p.height p.pixelType).stride_eq⟩

theorem copyFrame_resembles (p : Pixmap) (parts : CopyParts) : (p.copyFrame parts).Resembles p :=
  ⟨rfl, rfl, rfl⟩

/-- A buffer of zeros shows zeros. -/
theorem blank_pixel (f : Frame) (w h : UInt32) (type : PixelType) (x y : Int) :
    f.pixel (blank w h type).bytes x y = 0 := by
  apply Nat.eq_of_testBit_eq
  intro k
  rw [pixel, Bytes.testBit_window, blank_bit, Bool.and_false, Nat.zero_testBit]

/-- A pixmap without pixels leaves nothing to copy. -/
theorem blank_repacks (hempty : p.isEmpty = true) :
    (blank p.width p.height p.pixelType).Repacks p (blank p.width p.height p.pixelType).bytes := by
  have hpacked := blank_packed p.width p.height p.pixelType
  have hlike : (blank p.width p.height p.pixelType).Resembles p := ⟨rfl, rfl, rfl⟩
  have hnone : ¬ (0 < p.width.toNat ∧ 0 < p.height.toNat) := by
    rw [← isEmpty_eq_false_iff, hempty]
    exact Bool.noConfusion
  refine ⟨blank_size .., fun x y hxy => ?_, fun i hi => ?_⟩
  · have hlt := (hlike.contains_iff.1 hxy).toNat_lt
    exact absurd ⟨Nat.zero_lt_of_lt hlt.1, Nat.zero_lt_of_lt hlt.2⟩ hnone
  · -- the buffer has no bits at all
    have hsize : (blank p.width p.height p.pixelType).bytes.size = 0 := by
      rw [blank_size, hlike.stride_eq hpacked]
      rcases Nat.eq_zero_or_pos p.width.toNat with hw | hw
      · rw [PixelType.rowBytes, hw, Nat.zero_mul]
        exact Nat.zero_mul _
      · rw [Nat.eq_zero_of_not_pos (fun hh => hnone ⟨hw, hh⟩), Nat.mul_zero]
    omega

/-- A copy has the pixels of its source and what goes along with them, or zeros if no pixels were
asked for. -/
theorem copy_repacks (hp : p.Addressable)
    (hmem : alloc p.width p.height p.pixelType ≠ .error (.fault .outOfMemory)) (parts : CopyParts) :
    ∃ c, p.copy parts = .ok ⟨p.copyFrame parts, c⟩ ∧
      (⟨p.copyFrame parts, c⟩ : Pixmap).Addressable ∧
      if parts.pixels then (p.copyFrame parts).Repacks p c
      else ∀ x y, (p.copyFrame parts).pixel c x y = 0 := by
  have hnew := alloc_yields hp.known hp.width_le hp.height_le hmem
  have hplain := (alloc_owner ..).answer _ hnew
  have hblank : (blank p.width p.height p.pixelType).Addressable :=
    ⟨hplain.wellFormed, hp.width_le, hp.height_le⟩
  -- orientation and gamma are set last, in the frame of the new pixmap
  have hlast : ∀ c : Bytes, c.size = (blank p.width p.height p.pixelType).bytes.size →
      (⟨p.copyFrame parts, c⟩ : Pixmap).Addressable := by
    intro c hc
    have hvalid := hplain.wellFormed.reorient (p.copyFrame parts).orientation (p.copyFrame parts).gamma
    exact ⟨hc ▸ hvalid, hp.width_le, hp.height_le⟩
  rw [copy, hnew, ok_bind]
  by_cases hpixels : parts.pixels = true
  · by_cases hempty : p.isEmpty = true
    · simp only [hpixels, hempty, Bool.not_true, Bool.and_false, Bool.false_eq_true, if_false,
        if_true]
      exact ⟨_, rfl, hlast _ rfl, (blank_repacks hempty).reorient ..⟩
    · rw [Bool.not_eq_true] at hempty
      obtain ⟨c, hc, hrepacks⟩ := Addressable.takes_repack hblank hp ⟨rfl, rfl, rfl⟩
        (blank_packed ..) (blank_size ..) (blank_bit _ _ _) (isEmpty_eq_false_iff.1 hempty).1
      have hdraw : ((blank p.width p.height p.pixelType).draw .raw fun f b =>
          if p.offset = 0 then f.takeRows p b else f.takePixels p b) =
            .ok ⟨(blank p.width p.height p.pixelType).toFrame, c⟩ :=
        draw_ok _ hc
      simp only [hpixels, hempty, Bool.not_false, Bool.and_true, if_true, hdraw]
      have hsize := hrepacks.size_eq.trans (blank_size ..).symm
      exact ⟨c, rfl, hlast c hsize, hrepacks.reorient ..⟩
  · rw [Bool.not_eq_true] at hpixels
    simp only [hpixels, Bool.false_and, Bool.false_eq_true, if_false]
    exact ⟨_, rfl, hlast _ rfl, blank_pixel _ _ _ _⟩

/-! What a copy shows. -/

theorem Addressable.get_raw (hp : p.Addressable) {x y : Int} (hxy : p.Contains x y) :
    (p.seen .raw).get ⟨.ofInt x, .ofInt y⟩ = .ok (UInt32.ofNat (p.pixel p.bytes x y)) := by
  have hin : (p.seen .raw).ContainsUser x y := (contains_of_identity rfl).1 hxy
  rw [(hp.seen .raw).get_ofInt hin, userPixel, toRaw_of_identity rfl]
  rfl

/-- Pixmaps of one size and orientation with the same pixels show the same. -/
theorem Addressable.get_congr (hp : p.Addressable) (hq : q.Addressable)
    (horient : q.orientation = p.orientation) (hw : q.width = p.width) (hh : q.height = p.height)
    (hpixel : ∀ x y, q.Contains x y → q.pixel q.bytes x y = p.pixel p.bytes x y) (t : Point) :
    q.get t = p.get t := by
  have hraw : q.toRaw t.x.toInt t.y.toInt = p.toRaw t.x.toInt t.y.toInt := by
    rw [toRaw, toRaw, horient, hw, hh]
  have hin : q.ContainsUser t.x.toInt t.y.toInt ↔ p.ContainsUser t.x.toInt t.y.toInt := by
    rw [← contains_toRaw, ← contains_toRaw, hraw, Contains, Contains, hw, hh]
  rw [hq.get_eq, hp.get_eq]
  by_cases ht : q.ContainsUser t.x.toInt t.y.toInt
  · rw [if_pos ht, if_pos (hin.1 ht), userPixel, userPixel,
      hpixel _ _ ((q.contains_toRaw _ _).2 ht), hraw]
  · rw [if_neg ht, if_neg (fun h => ht (hin.2 h))]

/-- A pixmap whose pixels are all zero shows zero everywhere. -/
theorem Addressable.get_zero (hq : q.Addressable) (hzero : ∀ x y, q.pixel q.bytes x y = 0)
    (t : Point) : q.get t = .ok 0 := by
  rw [hq.get_eq, userPixel, hzero]
  split_ifs <;> rfl

/-- `q` is a copy of the chosen parts of `p`. -/
structure Copies (p : Pixmap) (parts : CopyParts) (q : Pixmap) : Prop where
  type_eq : q.pixelType = p.pixelType
  width_eq : q.width = p.width
  height_eq : q.height = p.height
  offset_eq : q.offset = 0
  stride_eq : q.stride = p.pixelType.rowBytes p.width
  orientation_eq : q.orientation = if parts.orientation then p.orientation else .identity
  gamma_eq : q.gamma = if parts.gamma then p.gamma else none
  /-- At every raw point. -/
  get_eq : ∀ t, (q.seen .raw).get t = if parts.pixels then (p.seen .raw).get t else .ok 0

/-- Pixmaps are equal that have one type and one size for the user, who sees the same in both. -/
theorem Addressable.equal_of_get (hp : p.Addressable) (htype : p.pixelType = q.pixelType)
    (hw : p.userWidth = q.userWidth) (hh : p.userHeight = q.userHeight)
    (hget : ∀ t, p.get t = q.get t) : p.equal q = .ok true := by
  have hagree : ∀ x y, p.agreeAt q x y = .ok true := by
    intro x y
    rw [agreeAt, ← hget, hp.get_eq, ok_bind, ok_bind, beq_self_eq_true]
    rfl
  rw [equal, if_neg (fun h => h.elim (· htype) (fun h => h.elim (· hw) (· hh)))]
  exact allCount_true (fun y => allCount_true (fun x => hagree x y) _ 0) _ 0

/-- A copy is made whenever there is memory for it and has the size and type of its source, in a
layout of its own. It shows what it was asked to take over, and a copy of everything is equal to its
source. -/
theorem copy_faithful (hp : p.Addressable)
    (hmem : alloc p.width p.height p.pixelType ≠ .error (.fault .outOfMemory)) :
    (∀ parts, Yields (p.copy parts) (p.Copies parts)) ∧
      Yields (p.copy .all) (fun q => q.equal p = .ok true ∧ p.equal q = .ok true) := by
  constructor
  · intro parts
    obtain ⟨c, hcopy, hq, hshown⟩ := copy_repacks hp hmem parts
    refine ⟨_, hcopy, rfl, rfl, rfl, rfl, ?_, rfl, rfl, fun t => ?_⟩
    · exact (copyFrame_resembles p parts).stride_eq (copyFrame_packed p parts)
    · by_cases hpixels : parts.pixels = true
      · rw [if_pos hpixels] at hshown ⊢
        exact (hp.seen .raw).get_congr (hq.seen .raw) rfl rfl rfl hshown.pixel_eq t
      · rw [if_neg hpixels] at hshown ⊢
        exact (hq.seen .raw).get_zero hshown t
  · obtain ⟨c, hcopy, hq, hshown⟩ := copy_repacks hp hmem .all
    have hget := hp.get_congr hq rfl rfl rfl hshown.pixel_eq
    exact ⟨_, hcopy, hq.equal_of_get rfl rfl rfl hget, hp.equal_of_get rfl rfl rfl (fun t => (hget t).symm)⟩

/-- A turned view of pixels of 18 bits that starts in the middle of a byte is packed anew. -/
theorem copy_faithful_turned : ∃ p q : Pixmap, p.Addressable ∧ p.copy .all = .ok q ∧
    p.Copies .all q ∧ p.offset = 6 ∧ q.bytes = #[0x96, 0x96, 0x5a, 0x6a, 0x05] := by
  let p : Pixmap := ⟨⟨1, 2, 1, 6, 6, .rgb666, ⟨true, true, false⟩, none⟩,
    #[0, 0xa5, 0xa5, 0xa5, 0x96, 0x5a, 0xa5]⟩
  have hp : p.Addressable := by
    refine ⟨⟨?_, ?_, ?_, ?_, ?_, ?_, ?_⟩, ?_, ?_⟩ <;> decide
  have hmem : alloc p.width p.height p.pixelType ≠ .error (.fault .outOfMemory) := by
    rw [alloc_ok (by decide) (by decide)]
    exact nofun
  obtain ⟨q, hq, hcopies⟩ := (copy_faithful hp hmem).1 .all
  refine ⟨p, q, hp, hq, hcopies, rfl, ?_⟩
  obtain ⟨f, hb⟩ : ∃ f, p.copy .all = .ok ⟨f, #[0x96, 0x96, 0x5a, 0x6a, 0x05]⟩ := ⟨_, by unfold p; rfl⟩
  rw [hb] at hq
  cases hq
  rfl

/-! Copies of the same pixels. -/

/-- A pixmap that starts with its buffer has the buffer as its data. -/
theorem data_eq (hstart : p.start = 0) : p.data = p.bytes := by
  rw [data, hstart, Array.extract_size]

/-- Pixmaps that show the same hold the same pixels. -/
theorem Addressable.pixel_congr (hp : p.Addressable) (hq : q.Addressable) (hw : q.width = p.width)
    (hh : q.height = p.height) (hsame : ∀ t : Point, p.Holds .raw t.x.toInt t.y.toInt →
      (p.seen .raw).get t = (q.seen .raw).get t) {x y : Int} (hxy : p.Contains x y) :
    p.pixel p.bytes x y = q.pixel q.bytes x y := by
  have hxy' : q.Contains x y := by
    rw [Contains, hw, hh]
    exact hxy
  have hheld : p.Holds .raw (Int32.ofInt x).toInt (Int32.ofInt y).toInt := by
    rw [(Frame.Addressable.toInt_ofInt hp hxy).1, (Frame.Addressable.toInt_ofInt hp hxy).2]
    exact (contains_of_identity rfl).1 hxy
  have hget := hsame ⟨.ofInt x, .ofInt y⟩ hheld
  rw [hp.get_raw hxy, hq.get_raw hxy'] at hget
  have heq := congrArg UInt32.toNat (Except.ok.inj hget)
  rwa [UInt32.toNat_ofNat_of_lt' (pixel_lt_uint32 ..),
    UInt32.toNat_ofNat_of_lt' (pixel_lt_uint32 ..)] at heq

end Copy

/-- Pixmaps with the same pixels have the same copy just if the copies take along the same bits
between the pixels; there are none if the rows are whole bytes. -/
theorem copy_same_iff {p q : Pixmap} (hp : p.Addressable) (hq : q.Addressable)
    (htype : q.pixelType = p.pixelType) (hw : q.width = p.width) (hh : q.height = p.height)
    (hsame : ∀ t : Point, p.Holds .raw t.x.toInt t.y.toInt →
      (p.seen .raw).get t = (q.seen .raw).get t)
    (hmem : alloc p.width p.height p.pixelType ≠ .error (.fault .outOfMemory)) :
    ∃ c d, p.copy ⟨true, false, false⟩ = .ok c ∧ q.copy ⟨true, false, false⟩ = .ok d ∧
      (c.data = d.data ↔ ∀ i, i < 8 * c.data.size → c.Spare i → p.carried i = q.carried i) ∧
      (p.width.toNat * p.bpp % 8 = 0 → c.data = d.data) := by
  have hmem' : alloc q.width q.height q.pixelType ≠ .error (.fault .outOfMemory) := by
    rw [htype, hw, hh]
    exact hmem
  -- both copies have one frame
  have hframe : q.copyFrame ⟨true, false, false⟩ = p.copyFrame ⟨true, false, false⟩ := by
    rw [copyFrame, copyFrame, htype, hw, hh]
    rfl
  obtain ⟨c, hc, haddr, hcp⟩ := copy_repacks hp hmem ⟨true, false, false⟩
  obtain ⟨d, hd, -, hdq⟩ := copy_repacks hq hmem' ⟨true, false, false⟩
  rw [if_pos rfl] at hcp hdq
  rw [hframe] at hd hdq
  have hlike := copyFrame_resembles p ⟨true, false, false⟩
  have hpacked := copyFrame_packed p ⟨true, false, false⟩
  have hsize : d.size = c.size := hdq.size_eq.trans hcp.size_eq.symm
  have hequal : (∀ i, i < 8 * c.size → (p.copyFrame ⟨true, false, false⟩).Spare i →
      p.carried i = q.carried i) → c = d := by
    intro hall
    refine Keeps.ext haddr.toValid (.refl ..) ⟨hsize, fun i hi => ?_⟩ (fun x y hxy => ?_)
    · rcases Nat.lt_or_ge i (8 * c.size) with hlt | hge
      · rw [hdq.spare_eq i (hsize ▸ hlt) hi, hcp.spare_eq i hlt hi, hall i hlt hi]
      · rw [Bytes.bit_of_size_le (hsize ▸ hge), Bytes.bit_of_size_le hge]
    · rw [hcp.pixel_eq x y hxy, hdq.pixel_eq x y hxy]
      exact hp.pixel_congr hq hw hh hsame (hlike.contains_iff.1 hxy)
  refine ⟨_, _, hc, hd, ?_, fun hfull => ?_⟩
  · rw [data_eq rfl, data_eq rfl]
    refine ⟨fun he i hlt hi => ?_, hequal⟩
    obtain rfl : c = d := he
    rw [← hcp.spare_eq i hlt hi, ← hdq.spare_eq i hlt hi]
  · rw [data_eq rfl, data_eq rfl]
    refine hequal (fun i hlt hi => absurd hi (Valid.not_spare haddr.toValid hpacked ?_ ?_))
    · rw [hlike.stride_eq hpacked, hlike.width_eq, hlike.bpp_eq]
      show _ = 8 * byteCount (p.width.toNat * p.bpp)
      unfold byteCount
      omega
    · rw [Nat.mul_assoc, ← hcp.size_eq]
      exact hlt

/-- Two views of a row of eight white pixels show four of them each. The copy of the one that starts
with the byte has the other four as well. -/
theorem copy_same_views : ∃ p q c d : Pixmap, p.Addressable ∧ q.Addressable ∧
    (∀ t : Point, p.Holds .raw t.x.toInt t.y.toInt → (p.seen .raw).get t = (q.seen .raw).get t) ∧
    p.copy ⟨true, false, false⟩ = .ok c ∧ q.copy ⟨true, false, false⟩ = .ok d ∧
    (c.data = d.data ↔ ∀ i, i < 8 * c.data.size → c.Spare i → p.carried i = q.carried i) ∧
    c.bytes = #[0xff] ∧ d.bytes = #[0xf0] := by
  let p : Pixmap := ⟨⟨0, 4, 1, 1, 0, .g1ub, .identity, none⟩, #[0xff]⟩
  let q : Pixmap := ⟨⟨0, 4, 1, 1, 1, .g1ub, .identity, none⟩, #[0xff]⟩
  have hp : p.Addressable := by
    refine ⟨⟨?_, ?_, ?_, ?_, ?_, ?_, ?_⟩, ?_, ?_⟩ <;> decide
  have hq : q.Addressable := by
    refine ⟨⟨?_, ?_, ?_, ?_, ?_, ?_, ?_⟩, ?_, ?_⟩ <;> decide
  have hmem : alloc p.width p.height p.pixelType ≠ .error (.fault .outOfMemory) := by
    rw [alloc_ok (by decide) (by decide)]
    exact nofun
  have hsame : ∀ t : Point, p.Holds .raw t.x.toInt t.y.toInt →
      (p.seen .raw).get t = (q.seen .raw).get t := by
    rintro ⟨x, y⟩ ⟨hx₀, hy₀, hx₁, hy₁⟩
    obtain rfl : y = 0 := Int32.toInt_inj.1 (Int.le_antisymm (Int.le_of_lt_add_one hy₁) hy₀)
    have hx : x = 0 ∨ x = 1 ∨ x = 2 ∨ x = 3 := by
      simp only [← Int32.toInt_inj]
      have hx₁ : x.toInt < 4 := hx₁
      have hx₀ : 0 ≤ x.toInt := hx₀
      show x.toInt = 0 ∨ x.toInt = 1 ∨ x.toInt = 2 ∨ x.toInt = 3
      omega
    unfold p q
    rcases hx with rfl | rfl | rfl | rfl <;> rfl
  obtain ⟨c, d, hc, hd, hiff, -⟩ := copy_same_iff hp hq rfl rfl rfl hsame hmem
  refine ⟨p, q, c, d, hp, hq, hsame, hc, hd, hiff, ?_, ?_⟩
  · obtain ⟨f, hb⟩ : ∃ f, p.copy ⟨true, false, false⟩ = .ok ⟨f, #[0xff]⟩ := ⟨_, by unfold p; rfl⟩
    rw [hb] at hc
    cases hc
    rfl
  · obtain ⟨f, hb⟩ : ∃ f, q.copy ⟨true, false, false⟩ = .ok ⟨f, #[0xf0]⟩ := ⟨_, by unfold q; rfl⟩
    rw [hb] at hd
    cases hd
    rfl

end Pixmap

end Raster
