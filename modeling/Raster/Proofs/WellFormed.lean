import Raster.Pixmap.View
import Raster.Proofs.BufferSize
import Raster.Proofs.Layout

/- Pixmaps are made well formed. Whatever the constructors, `resize`, `copy` and
   `convert` answer owns its buffer from the first bit on and is well formed
   (`Pixmap.Owner`); a view of a rectangle is well formed over the buffer of its parent
   (`Frame.Valid.sub`), although it starts in the middle of a byte, keeps the stride of
   the parent and ends on a row that the parent may have cut short. -/
namespace Raster

/-- No two pixels share a bit, and all of them lie in the data of the pixmap. -/
def Pixmap.Separated (p : Pixmap) : Prop :=
  ∀ x y, x < p.width.toNat → y < p.height.toNat →
    (∃ pos, p.locate x y = .ok pos ∧ 8 * p.start ≤ pos ∧ pos + p.bpp ≤ 8 * p.bytes.size) ∧
      ∀ x' y', x' < p.width.toNat → y' < p.height.toNat → (x', y') ≠ (x, y) →
        ∀ i, ¬ (p.Owns x y i ∧ p.Owns x' y' i)

theorem Pixmap.WellFormed.separated {p : Pixmap} (hp : p.WellFormed) : p.Separated := by
  intro x y hx hy
  refine ⟨⟨_, hp.locate_eq hx hy, hp.position_bounds hx hy⟩, ?_⟩
  intro x' y' hx' hy' hne i ⟨hi, hi'⟩
  rw [hp.owns_iff hx hy] at hi
  rw [hp.owns_iff hx' hy'] at hi'
  have ha := hp.position_apart hx hy hx' hy' hne
  omega

namespace Frame.Valid
variable {f : Frame} {size : Nat}

/-- Orientation and gamma have no part in where pixels lie. -/
theorem reorient (hv : f.Valid size) (o : Orientation) (g : Option Gamma) :
    Frame.Valid { f with orientation := o, gamma := g } size :=
  ⟨hv.known, hv.start_le, hv.offset_lt, hv.aligned, hv.rows_apart, hv.fits, hv.sized⟩

theorem seen (hv : f.Valid size) (s : Space) : (f.seen s).Valid size := by
  cases s with
  | user => exact hv
  | raw => exact hv.reorient .identity f.gamma

/-- The frame of a raw rectangle of a valid frame, starting at the byte that holds its first pixel. -/
theorem rectangle (hv : f.Valid size) {x y : Nat} {w h : UInt32}
    (hx : x + w.toNat ≤ f.width.toNat) (hy : y + h.toNat ≤ f.height.toNat) :
    Frame.Valid
      { f with
        start := f.start + min (y * f.stride + f.columnBit x / 8) (size - f.start)
        width := w
        height := h
        offset := f.columnBit x % 8 } size := by
  have hs := hv.start_le
  have hm : (x + w.toNat) * f.bpp ≤ f.width.toNat * f.bpp := Nat.mul_le_mul_right _ hx
  rw [Nat.add_mul] at hm
  refine ⟨hv.known, ?_, Nat.mod_lt _ (by decide), ?_, ?_, ?_, hv.sized⟩
  · show f.start + _ ≤ size
    omega
  · show _ ∣ f.columnBit x % 8
    rw [Nat.dvd_mod_iff (Nat.gcd_dvd_right ..)]
    exact Nat.dvd_add (Nat.dvd_mul_left_of_dvd (Nat.gcd_dvd_left ..) _) hv.aligned
  · intro (hw : 0 < w.toNat) (hh : 1 < h.toNat)
    show f.columnBit x % 8 + w.toNat * f.bpp ≤ 8 * f.stride
    have hr := hv.rows_apart (by omega) (by omega)
    simp only [columnBit]
    omega
  · intro (hw : 0 < w.toNat) (hh : 0 < h.toNat)
    show (h.toNat - 1) * f.stride + byteCount (f.columnBit x % 8 + w.toNat * f.bpp) ≤ size - (f.start + _)
    -- the last row of the rectangle ends where the same row of the frame ends or before it
    have hrow : (y + (h.toNat - 1)) * f.stride ≤ (f.height.toNat - 1) * f.stride :=
      Nat.mul_le_mul_right _ (by omega)
    have hf := hv.fits (by omega) (by omega)
    rw [Nat.add_mul] at hrow
    simp only [columnBit, byteCount] at *
    omega

/-- A view of a valid frame is valid over the same buffer. -/
theorem sub (hv : f.Valid size) {p : Point} {w h : UInt32} :
    Ensures (f.sub (size - f.start) p w h) (fun g => g.Valid size) := by
  refine Ensures.bind_any (fun ((x, y), (rw, rh)) => Ensures.ite (fun hin => ?_) (fun _ => Ensures.error ..))
  obtain ⟨hx, hy, hw, hh⟩ := hin
  refine Ensures.bind (P := fun byte => byte = y.toNat * f.stride + f.columnBit x.toNat / 8)
    (Ensures.lift ?_) (fun byte hb => Ensures.ok ?_)
  · exact Ensures.ite (fun _ => Ensures.ok rfl) (fun _ => Ensures.error ..)
  · subst hb
    exact hv.rectangle (by omega) (by omega)

end Frame.Valid

namespace Pixmap
open Raster.Frame

theorem WellFormed.view {p : Pixmap} (hp : p.WellFormed) (corner : Point) (w h : UInt32) :
    Ensures (p.view corner w h) (fun q => q.WellFormed ∧ q.bytes = p.bytes) :=
  Ensures.bind (Valid.sub hp) (fun _ hg => Ensures.ok ⟨hg, rfl⟩)

/-- A well-formed pixmap that starts with the first bit of its buffer. -/
structure Owner (p : Pixmap) : Prop where
  wellFormed : p.WellFormed
  start_eq : p.start = 0
  offset_eq : p.offset = 0

theorem owner_plainFrame {w h : UInt32} {type : PixelType} {stride : Nat} {b : Bytes}
    (hk : type ≠ .unknown) (hs : type.rowBytes w ≤ stride) (hb : b.size ≤ 0xffffffffffffffff)
    (hf : 0 < w.toNat → 0 < h.toNat → (h.toNat - 1) * stride + type.rowBytes w ≤ b.size) :
    Owner ⟨plainFrame w h type stride, b⟩ := by
  have hw : 0 < w.toNat → (plainFrame w h type stride).stride = stride := by
    intro hw
    apply if_neg
    intro h
    rw [h] at hw
    exact absurd hw (by decide)
  refine ⟨⟨hk, Nat.zero_le _, (by decide : 0 < 8), Nat.dvd_zero _, ?_, ?_, hb⟩, rfl, rfl⟩
  · intro hpos _
    show 0 + w.toNat * type.bpp ≤ 8 * (plainFrame w h type stride).stride
    rw [hw hpos]
    simp only [PixelType.rowBytes, byteCount] at hs
    omega
  · intro hpos hh
    show (h.toNat - 1) * (plainFrame w h type stride).stride + byteCount (0 + w.toNat * type.bpp) ≤
      b.size - 0
    rw [hw hpos, Nat.zero_add]
    exact hf hpos hh

theorem minStride_ensures (type : PixelType) (w : UInt32) :
    Ensures (minStride type w) (fun m => type ≠ .unknown ∧ m = type.rowBytes w) :=
  Ensures.ite (fun _ => Ensures.error ..) (fun hk => Ensures.ok ⟨hk, rfl⟩)

theorem checkStride_ensures (type : PixelType) (w : UInt32) (stride : Nat) :
    Ensures (checkStride type w stride) (fun _ => type ≠ .unknown ∧ type.rowBytes w ≤ stride) := by
  apply Ensures.bind (minStride_ensures type w)
  intro m hm
  obtain ⟨hk, rfl⟩ := hm
  exact Ensures.ite (fun _ => Ensures.error ..) (fun hs => Ensures.ok ⟨hk, Nat.le_of_not_lt hs⟩)

theorem zeros_ensures (n : Nat) : Ensures (zeros n) (fun b => b.size = n ∧ n ≤ maxSize) :=
  Ensures.ite (fun hn => Ensures.ok ⟨Array.size_replicate, hn⟩) (fun _ => Ensures.error ..)

theorem allocWithStride_owner (w h : UInt32) (type : PixelType) (stride : UInt64) :
    Ensures (allocWithStride w h type stride) Owner := by
  refine Ensures.bind (checkStride_ensures ..) (fun _ ⟨hk, hs⟩ => Ensures.ite (fun _ => Ensures.error ..) (fun _ => ?_))
  refine Ensures.bind (Ensures.lift (zeros_ensures _)) (fun b ⟨hb, hn⟩ => Ensures.ok ?_)
  apply owner_plainFrame hk hs (by unfold maxSize at hn; omega)
  intro hw hh
  have hw0 : w ≠ 0 := by
    intro h
    subst h
    exact absurd hw (by decide)
  have hm : stride.toNat * h.toNat = (h.toNat - 1) * stride.toNat + stride.toNat := by
    rw [← Nat.succ_mul, Nat.mul_comm]
    congr 1
    omega
  rw [hb, if_neg hw0]
  omega

theorem rowBytes_lt (type : PixelType) (w : UInt32) : type.rowBytes w < 2 ^ 35 := by
  have hw := w.toNat_lt
  have hbpp : w.toNat * type.bpp ≤ w.toNat * 32 := Nat.mul_le_mul_left _ (PixelType.bpp_le type)
  unfold PixelType.rowBytes byteCount
  omega

theorem toNat_rowBytes (type : PixelType) (w : UInt32) :
    (UInt64.ofNat (type.rowBytes w)).toNat = type.rowBytes w := by
  have hlt := rowBytes_lt type w
  apply UInt64.toNat_ofNat_of_lt'
  unfold UInt64.size
  omega

theorem alloc_eq {w h : UInt32} {type : PixelType} (hk : type ≠ .unknown) : alloc w h type =
    if sizeLimit ≤ type.rowBytes w * h.toNat then refuse (.tooLarge w h type)
    else do return ⟨plainFrame w h type (type.rowBytes w), ← zeros (type.rowBytes w * h.toNat)⟩ := by
  have hsize : (if w = 0 then 0 else type.rowBytes w * h.toNat) = type.rowBytes w * h.toNat := by
    split_ifs with hw
    · rw [hw, PixelType.rowBytes]
      simp [byteCount]
    · rfl
  simp only [alloc, allocWithStride, checkStride, minStride, if_neg hk, ok_bind, toNat_rowBytes,
    hsize, Nat.lt_irrefl, if_false]
  rfl

/-- A plain pixmap of zeros, with rows as close as whole bytes allow. -/
def blank (w h : UInt32) (type : PixelType) : Pixmap :=
  ⟨plainFrame w h type (type.rowBytes w), Array.replicate (type.rowBytes w * h.toNat) 0⟩

theorem alloc_ok {w h : UInt32} {type : PixelType} (hk : type ≠ .unknown)
    (hsize : type.rowBytes w * h.toNat ≤ maxSize) : alloc w h type = .ok (blank w h type) := by
  have hlimit : ¬ sizeLimit ≤ type.rowBytes w * h.toNat := by
    unfold maxSize at hsize
    unfold sizeLimit
    omega
  rw [alloc_eq hk, if_neg hlimit, zeros, if_pos hsize]
  rfl

/-- A new pixmap is refused for its type or its size, or it lacks memory, or it is blank. -/
theorem alloc_cases (w h : UInt32) (type : PixelType) :
    (∃ e, alloc w h type = .error (.error e)) ∧
        (type = .unknown ∨ sizeLimit ≤ type.rowBytes w * h.toNat) ∨
      alloc w h type = .error (.fault .outOfMemory) ∨
      alloc w h type = .ok (blank w h type) ∧ (blank w h type).bytes.size ≤ maxSize := by
  by_cases hk : type = .unknown
  · refine Or.inl ⟨⟨.notAllocatable type, ?_⟩, Or.inl hk⟩
    rw [alloc, minStride, if_pos hk]
    rfl
  by_cases hlimit : sizeLimit ≤ type.rowBytes w * h.toNat
  · exact Or.inl ⟨⟨_, (alloc_eq hk).trans (if_pos hlimit)⟩, Or.inr hlimit⟩
  by_cases hsize : type.rowBytes w * h.toNat ≤ maxSize
  · exact Or.inr (Or.inr ⟨alloc_ok hk hsize, Array.size_replicate.trans_le hsize⟩)
  · refine Or.inr (Or.inl ?_)
    rw [alloc_eq hk, if_neg hlimit, zeros, if_neg hsize]
    rfl

theorem alloc_blank (w h : UInt32) (type : PixelType) : Ensures (alloc w h type)
    (fun p => p = blank w h type ∧ (blank w h type).bytes.size ≤ maxSize) := by
  rcases alloc_cases w h type with ⟨⟨e, he⟩, -⟩ | he | ⟨hb, hmax⟩
  · rw [he]
    exact Ensures.error ..
  · rw [he]
    exact Ensures.error ..
  · rw [hb]
    exact Ensures.ok ⟨rfl, hmax⟩

/-- Making a pixmap faults only for want of memory. -/
theorem alloc_fault {w h : UInt32} {type : PixelType} {e : Fault}
    (he : alloc w h type = .error (.fault e)) : alloc w h type = .error (.fault .outOfMemory) := by
  rcases alloc_cases w h type with ⟨⟨e', he'⟩, -⟩ | he' | ⟨hb, -⟩
  · rw [he] at he'
    cases he'
  · exact he'
  · rw [he] at hb
    cases hb

/-- A pixmap of a type with a size is refused for its size only. -/
theorem alloc_refused_iff {w h : UInt32} {type : PixelType} (hk : type ≠ .unknown) :
    (∃ e, alloc w h type = .error (.error e)) ↔ sizeLimit ≤ type.rowBytes w * h.toNat := by
  constructor
  · rintro ⟨e, he⟩
    rcases alloc_cases w h type with ⟨-, hlarge⟩ | hfault | ⟨hb, -⟩
    · exact hlarge.resolve_left hk
    · rw [he] at hfault
      cases hfault
    · rw [he] at hb
      cases hb
  · intro hlarge
    exact ⟨_, (alloc_eq hk).trans (if_pos hlarge)⟩

/-- A pixmap of a type with a size is made if 32-bit integers reach its pixels. -/
theorem alloc_yields {w h : UInt32} {type : PixelType} (hk : type ≠ .unknown)
    (hw : w.toNat ≤ 0x7fffffff) (hh : h.toNat ≤ 0x7fffffff)
    (hmem : alloc w h type ≠ .error (.fault .outOfMemory)) :
    alloc w h type = .ok (blank w h type) := by
  have hrow : type.rowBytes w ≤ 0x7fffffff * 4 := by
    have hbpp : w.toNat * type.bpp ≤ w.toNat * 32 := Nat.mul_le_mul_left _ (PixelType.bpp_le type)
    unfold PixelType.rowBytes byteCount
    omega
  have hsize : type.rowBytes w * h.toNat < sizeLimit := by
    calc type.rowBytes w * h.toNat ≤ 0x7fffffff * 4 * 0x7fffffff := Nat.mul_le_mul hrow hh
      _ < sizeLimit := by decide
  rcases alloc_cases w h type with ⟨-, hlarge⟩ | he | ⟨hb, -⟩
  · exact absurd (hlarge.resolve_left hk) (by omega)
  · exact absurd he hmem
  · exact hb

theorem alloc_owner (w h : UInt32) (type : PixelType) : Ensures (alloc w h type) Owner :=
  Ensures.bind_any (fun _ => allocWithStride_owner ..)

theorem ofDataWithStride_owner (w h : UInt32) (type : PixelType) (stride : UInt64) {b : Bytes}
    (hb : b.size ≤ 0xffffffffffffffff) : Ensures (ofDataWithStride w h type stride b) Owner := by
  refine Ensures.bind (checkStride_ensures ..) (fun _ ⟨hk, hs⟩ => ?_)
  refine Ensures.bind (P := fun n => 0 < w.toNat → 0 < h.toNat →
      n = (h.toNat - 1) * stride.toNat + type.rowBytes w) (Ensures.lift ?_) (fun n hn => ?_)
  · -- without columns or rows no bytes are needed
    refine Ensures.ite (fun h0 => Ensures.ok (fun hw hh => ?_)) (fun _ => ?_)
    · rcases h0 with rfl | rfl
      · exact absurd hw (by decide)
      · exact absurd hh (by decide)
    · exact Ensures.ite (fun _ => Ensures.ok (fun _ _ => rfl)) (fun _ => Ensures.error ..)
  · refine Ensures.ite (fun _ => Ensures.error ..) (fun hlt => Ensures.ok ?_)
    exact owner_plainFrame hk hs hb (fun hw hh => hn hw hh ▸ Nat.le_of_not_lt hlt)

theorem ofData_owner (w h : UInt32) (type : PixelType) {b : Bytes}
    (hb : b.size ≤ 0xffffffffffffffff) : Ensures (ofData w h type b) Owner :=
  Ensures.bind_any (fun _ => ofDataWithStride_owner _ _ _ _ hb)

theorem draw_eq (p : Pixmap) (s : Space) (paint : Frame → Bytes → Except Fault Bytes) :
    p.draw s paint = (do return { p with bytes := ← paint (p.toFrame.seen s) p.bytes }) := by
  obtain ⟨frame, bytes⟩ := p
  simp only [draw]
  cases paint (frame.seen s) bytes <;> rfl

theorem draw_ok (p : Pixmap) {s : Space} {paint : Frame → Bytes → Except Fault Bytes} {b : Bytes}
    (h : paint (p.toFrame.seen s) p.bytes = .ok b) : p.draw s paint = .ok { p with bytes := b } := by
  rw [draw_eq, h]
  rfl

/-- What leaves the same buffer draws the same. -/
theorem draw_agree (p : Pixmap) {s : Space} {paint other : Frame → Bytes → Except Fault Bytes}
    (h : ∃ b, paint (p.toFrame.seen s) p.bytes = .ok b ∧ other (p.toFrame.seen s) p.bytes = .ok b) :
    ∃ q, p.draw s paint = .ok q ∧ p.draw s other = .ok q := by
  obtain ⟨b, hb, hother⟩ := h
  exact ⟨_, p.draw_ok hb, p.draw_ok hother⟩

theorem draw_error (p : Pixmap) {s : Space} {paint : Frame → Bytes → Except Fault Bytes} {e : Fault}
    (h : paint (p.toFrame.seen s) p.bytes = .error e) : p.draw s paint = .error e := by
  rw [draw_eq, h]
  rfl

/-- A pixmap keeps its form when its buffer is drawn on. -/
theorem WellFormed.draw {p : Pixmap} (hp : p.WellFormed) (s : Space)
    {paint : Frame → Bytes → Except Fault Bytes}
    (hs : ∀ f, Sized p.bytes.size (paint f p.bytes)) :
    Ensures (p.draw s paint)
      (fun q => q.WellFormed ∧ q.toFrame = p.toFrame ∧ q.bytes.size = p.bytes.size) := by
  rw [draw_eq]
  refine Ensures.bind (hs _) (fun b hb => Ensures.ok ⟨?_, rfl, hb⟩)
  show p.toFrame.Valid b.size
  rw [hb]
  exact hp

theorem Owner.draw {p : Pixmap} (hp : p.Owner) (s : Space)
    {paint : Frame → Bytes → Except Fault Bytes}
    (hs : ∀ f, Sized p.bytes.size (paint f p.bytes)) : Ensures (p.draw s paint) Owner :=
  (hp.wellFormed.draw s hs).mono
    (fun _ ⟨hq, he, _⟩ => ⟨hq, by rw [he]; exact hp.start_eq, by rw [he]; exact hp.offset_eq⟩)

theorem resize_owner {p : Pixmap} (hp : p.Owner) (w h : UInt32) :
    Ensures (p.resize w h) Owner := by
  refine Ensures.bind (minStride_ensures ..) (fun stride ⟨hk, hs⟩ => ?_)
  refine Ensures.ite (fun _ => Ensures.error ..) (fun _ => Ensures.ite (fun _ => Ensures.error ..) (fun hn => ?_))
  have hsize : (fitBytes p.bytes (stride * h.toNat)).size = stride * h.toNat := by
    simp only [fitBytes, Array.size_append, Array.size_extract, Array.size_replicate]
    omega
  subst hs
  refine Ensures.ok ⟨⟨hk, ?_, ?_, ?_, ?_, ?_, ?_⟩, hp.start_eq, hp.offset_eq⟩
  · exact hp.start_eq ▸ Nat.zero_le _
  · exact hp.offset_eq ▸ (by decide : 0 < 8)
  · exact hp.offset_eq ▸ Nat.dvd_zero _
  · intro _ _
    show p.offset + w.toNat * p.pixelType.bpp ≤ 8 * p.pixelType.rowBytes w
    rw [hp.offset_eq, PixelType.rowBytes, byteCount]
    omega
  · intro _ (hh : 0 < h.toNat)
    show (h.toNat - 1) * p.pixelType.rowBytes w + byteCount (p.offset + w.toNat * p.pixelType.bpp) ≤
      (fitBytes p.bytes (p.pixelType.rowBytes w * h.toNat)).size - p.start
    have hm : p.pixelType.rowBytes w * h.toNat =
        (h.toNat - 1) * p.pixelType.rowBytes w + p.pixelType.rowBytes w := by
      rw [← Nat.succ_mul, Nat.mul_comm]
      congr 1
      omega
    rw [hsize, hp.start_eq, hp.offset_eq, Nat.zero_add, hm]
    exact Nat.le_refl _
  · show (fitBytes p.bytes (p.pixelType.rowBytes w * h.toNat)).size ≤ _
    unfold maxSize at hn
    omega

theorem copy_owner (p : Pixmap) (parts : CopyParts) : Ensures (p.copy parts) Owner := by
  apply Ensures.bind (alloc_owner ..)
  intro new hnew
  have hend : ∀ q : Pixmap, q.Owner → ∀ o g, Owner { q with orientation := o, gamma := g } :=
    fun q hq o g => ⟨Valid.reorient hq.wellFormed o g, hq.start_eq, hq.offset_eq⟩
  refine Ensures.ite (fun _ => Ensures.bind (Ensures.lift (hnew.draw .raw (fun f => ?_)))
    (fun q hq => Ensures.ok (hend q hq ..))) (fun _ => Ensures.ok (hend new hnew ..))
  exact Ensures.ite (fun _ => sized_takeRows rfl ..) (fun _ => sized_takePixels rfl ..)

theorem Owner.blit {d : Pixmap} (hd : d.Owner) (src : Pixmap) (s : Space) (p q dest : Point) :
    Ensures (d.blit src s p q dest) Owner :=
  Ensures.ite (fun _ => Ensures.lift (hd.draw s (fun _ => sized_blitUser rfl ..)))
    (fun _ => Ensures.error ..)

theorem convert_owner (p : Pixmap) (type : PixelType) : Ensures (p.convert type) Owner := by
  apply Ensures.ite (fun _ => copy_owner ..)
  intro _
  apply Ensures.bind (alloc_owner ..)
  intro new hnew
  exact Ensures.ite (fun _ => Ensures.ok hnew) (fun _ => hnew.blit ..)

end Pixmap

end Raster
