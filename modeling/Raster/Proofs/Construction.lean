import Raster.Proofs.Views

/- Pixmaps over given bytes, and views, for all arguments. Both constructors answer just
   if the arguments are `Adequate`, which is said in exact numbers of bytes; what else
   they are given they refuse, but for one case: they compute the bytes required in 64
   bits, and where this overflows they fault (`Constructs`). A view is refused if its
   rectangle lies outside; inside, it faults if the byte that it starts with overflows
   (`Derives`). A rectangle with pixels starts inside the buffer, so that only an empty one
   at the far edges can do so. -/
namespace Raster

theorem size64_eq_ite (n : Nat) :
    size64 n = if Pixmap.sizeLimit ≤ n then .error .overflow else .ok n := by
  unfold size64 Pixmap.sizeLimit
  split_ifs with h₁ h₂ h₂
  · omega
  · rfl
  · rfl
  · omega

namespace Frame

/-- The byte with which the view of a user rectangle starts, counted from the start of the frame. -/
def firstByte (f : Frame) (corner : Point) (w h : UInt32) : Nat :=
  (f.toRawRect corner w h).1.2.toNat * f.stride + f.columnBit (f.toRawRect corner w h).1.1.toNat / 8

/-- The frame of a user rectangle, over a buffer that may end before its first byte. -/
def clippedRegion (f : Frame) (size : Nat) (corner : Point) (w h : UInt32) : Frame :=
  { f.region corner w h with start := f.start + min (f.firstByte corner w h) size }

/-- Only the first byte can overflow: corner and size of a raw rectangle are small numbers. -/
theorem sub_eq_ite (f : Frame) (size : Nat) (corner : Point) (w h : UInt32) :
    f.sub size corner w h =
      if f.IncludesUser corner w h then
        if Pixmap.sizeLimit ≤ f.firstByte corner w h then .error (.fault .overflow)
        else .ok (f.clippedRegion size corner w h)
      else refuse (.outsideParent corner.x corner.y w h f.userWidth f.userHeight) := by
  have hx := natAbs_toInt_le corner.x
  have hy := natAbs_toInt_le corner.y
  have hraw : f.orientation.rawRect f.width f.height corner.x.toInt corner.y.toInt w h =
      .ok (f.toRawRect corner w h) :=
    f.orientation.rawRect_eq f.width f.height w h (by omega) (by omega)
  have hin := f.includes_toRawRect corner w h
  unfold clippedRegion firstByte region
  rw [Frame.sub, hraw]
  generalize f.toRawRect corner w h = r at *
  obtain ⟨⟨x, y⟩, rw, rh⟩ := r
  dsimp only at hin ⊢
  show (if f.Includes x y rw rh then _ else _) = _
  by_cases hinc : f.IncludesUser corner w h
  · rw [if_pos (hin.2 hinc), if_pos hinc, byteOf, size64_eq_ite]
    split_ifs <;> rfl
  · rw [if_neg (fun hrect => hinc (hin.1 hrect)), if_neg hinc]

end Frame

namespace Pixmap
open Raster.Frame

/-- Bytes that `h` rows of `w` pixels take, the last one without what follows its pixels. -/
def requiredBytes (w h : UInt32) (type : PixelType) (stride : Nat) : Nat :=
  if w = 0 ∨ h = 0 then 0 else (h.toNat - 1) * stride + type.rowBytes w

/-- The type has pixels of some size, and a row of them fits into the stride. -/
def RowsFit (w : UInt32) (type : PixelType) (stride : Nat) : Prop :=
  type ≠ .unknown ∧ type.rowBytes w ≤ stride

instance (w : UInt32) (type : PixelType) (stride : Nat) : Decidable (RowsFit w type stride) :=
  inferInstanceAs (Decidable (_ ∧ _))

/-- A buffer of `size` bytes holds the rows. -/
def Adequate (w h : UInt32) (type : PixelType) (stride size : Nat) : Prop :=
  RowsFit w type stride ∧ requiredBytes w h type stride ≤ size

instance (w h : UInt32) (type : PixelType) (stride size : Nat) :
    Decidable (Adequate w h type stride size) :=
  inferInstanceAs (Decidable (_ ∧ _))

/-- How a constructor over given bytes ends. -/
structure Constructs (w h : UInt32) (type : PixelType) (stride : Nat) (bytes : Bytes)
    (x : Except Failure Pixmap) : Prop where
  answers : Adequate w h type stride bytes.size →
    x = .ok ⟨plainFrame w h type stride, bytes⟩ ∧ Owner ⟨plainFrame w h type stride, bytes⟩
  overflows : RowsFit w type stride → sizeLimit ≤ requiredBytes w h type stride →
    x = .error (.fault .overflow)
  refuses : ¬ Adequate w h type stride bytes.size →
    ¬ (RowsFit w type stride ∧ sizeLimit ≤ requiredBytes w h type stride) →
      ∃ e ∈ [Error.notAllocatable type, .strideTooSmall stride (type.rowBytes w),
        .dataTooSmall bytes.size (requiredBytes w h type stride)], x = refuse e

/-- How the view of a user rectangle ends. -/
structure Derives (p : Pixmap) (corner : Point) (w h : UInt32) (x : Except Failure Pixmap) : Prop where
  answers : p.IncludesUser corner w h → p.firstByte corner w h < sizeLimit →
    ∃ q, x = .ok q ∧ q.WellFormed ∧ q.bytes = p.bytes ∧ q.userWidth = w ∧ q.userHeight = h
  overflows : p.IncludesUser corner w h → sizeLimit ≤ p.firstByte corner w h →
    x = .error (.fault .overflow)
  refuses : ¬ p.IncludesUser corner w h →
    x = refuse (.outsideParent corner.x corner.y w h p.userWidth p.userHeight)
  /-- The first pixel of a rectangle lies in the buffer. -/
  starts : p.IncludesUser corner w h → 0 < w.toNat → 0 < h.toNat → p.firstByte corner w h < sizeLimit

theorem neededSize_eq (w h : UInt32) (type : PixelType) (stride : Nat) :
    neededSize w h type stride = size64 (requiredBytes w h type stride) := by
  unfold neededSize requiredBytes
  split_ifs
  · rfl
  · rfl

/-- The arguments are looked at in this order. -/
theorem ofDataWithStride_eq (w h : UInt32) (type : PixelType) (stride : UInt64) (bytes : Bytes) :
    ofDataWithStride w h type stride bytes =
      if type = .unknown then refuse (.notAllocatable type)
      else if stride.toNat < type.rowBytes w then
        refuse (.strideTooSmall stride.toNat (type.rowBytes w))
      else if sizeLimit ≤ requiredBytes w h type stride.toNat then .error (.fault .overflow)
      else if bytes.size < requiredBytes w h type stride.toNat then
        refuse (.dataTooSmall bytes.size (requiredBytes w h type stride.toNat))
      else .ok ⟨plainFrame w h type stride.toNat, bytes⟩ := by
  simp only [ofDataWithStride, checkStride, minStride, neededSize_eq, size64_eq_ite]
  by_cases hk : type = .unknown
  · simp only [if_pos hk]
    rfl
  by_cases hs : stride.toNat < type.rowBytes w
  · simp only [if_neg hk, ok_bind, if_pos hs]
    rfl
  by_cases hover : sizeLimit ≤ requiredBytes w h type stride.toNat
  · simp only [if_neg hk, ok_bind, if_neg hs, if_pos hover]
    rfl
  simp only [if_neg hk, ok_bind, if_neg hs, if_neg hover]
  show (if bytes.size < requiredBytes w h type stride.toNat then _ else _) = _
  split_ifs <;> rfl

/-- Without a stride the least one is taken. -/
theorem ofData_eq (w h : UInt32) (type : PixelType) (bytes : Bytes) :
    ofData w h type bytes = ofDataWithStride w h type (.ofNat (type.rowBytes w)) bytes := by
  by_cases hk : type = .unknown
  · rw [ofDataWithStride_eq, if_pos hk, ofData, minStride, if_pos hk]
    rfl
  · rw [ofData, minStride, if_neg hk]
    rfl

/-- A buffer that can exist is smaller than what overflows. -/
theorem Adequate.lt_sizeLimit {w h : UInt32} {type : PixelType} {stride size : Nat}
    (ha : Adequate w h type stride size) (hsize : size ≤ maxSize) :
    requiredBytes w h type stride < sizeLimit := by
  have hneed := ha.2
  unfold maxSize at hsize
  unfold sizeLimit
  omega

section Constructors
variable (w h : UInt32) (type : PixelType) (stride : UInt64) {bytes : Bytes}
  (hb : bytes.size ≤ maxSize)
include hb

theorem Adequate.owner {w h : UInt32} {type : PixelType} {stride : Nat}
    (ha : Adequate w h type stride bytes.size) : Owner ⟨plainFrame w h type stride, bytes⟩ := by
  obtain ⟨⟨hk, hs⟩, hneed⟩ := ha
  refine owner_plainFrame hk hs (by unfold maxSize at hb; omega) (fun hw hh => ?_)
  rwa [requiredBytes, if_neg] at hneed
  rintro (rfl | rfl)
  · exact absurd hw (by decide)
  · exact absurd hh (by decide)

theorem ofDataWithStride_constructs :
    Constructs w h type stride.toNat bytes (ofDataWithStride w h type stride bytes) := by
  rw [ofDataWithStride_eq]
  refine ⟨fun ha => ⟨?_, ha.owner hb⟩, fun hrows hover => ?_, fun hsmall hfits => ?_⟩
  · have hlimit := ha.lt_sizeLimit hb
    obtain ⟨⟨hk, hs⟩, hneed⟩ := ha
    rw [if_neg hk, if_neg (Nat.not_lt.2 hs), if_neg (Nat.not_le.2 hlimit), if_neg (Nat.not_lt.2 hneed)]
  · obtain ⟨hk, hs⟩ := hrows
    rw [if_neg hk, if_neg (Nat.not_lt.2 hs), if_pos hover]
  · split_ifs with hk hs hover hless
    · exact ⟨_, List.mem_cons_self, rfl⟩
    · exact ⟨_, List.mem_cons_of_mem _ List.mem_cons_self, rfl⟩
    · exact absurd ⟨⟨hk, Nat.le_of_not_lt hs⟩, hover⟩ hfits
    · exact ⟨_, List.mem_cons_of_mem _ (List.mem_cons_of_mem _ List.mem_cons_self), rfl⟩
    · exact absurd ⟨⟨hk, Nat.le_of_not_lt hs⟩, Nat.le_of_not_lt hless⟩ hsmall

theorem ofData_constructs :
    Constructs w h type (type.rowBytes w) bytes (ofData w h type bytes) := by
  have hstride := ofDataWithStride_constructs w h type (.ofNat (type.rowBytes w)) hb
  rwa [toNat_rowBytes, ← ofData_eq] at hstride

end Constructors

theorem view_eq_ite (p : Pixmap) (corner : Point) (w h : UInt32) : p.view corner w h =
    if p.IncludesUser corner w h then
      if sizeLimit ≤ p.firstByte corner w h then .error (.fault .overflow)
      else .ok { p with toFrame := p.clippedRegion p.size corner w h }
    else refuse (.outsideParent corner.x corner.y w h p.userWidth p.userHeight) := by
  rw [view, sub_eq_ite]
  split_ifs <;> rfl

theorem WellFormed.view_derives {p : Pixmap} (hp : p.WellFormed) (corner : Point) (w h : UInt32) :
    p.Derives corner w h (p.view corner w h) := by
  refine ⟨fun hin hfirst => ?_, fun hin hover => ?_, fun hout => ?_, fun hin hw hh => ?_⟩
  · have hview : p.view corner w h = .ok { p with toFrame := p.clippedRegion p.size corner w h } := by
      rw [view_eq_ite, if_pos hin, if_neg (Nat.not_le.2 hfirst)]
    obtain ⟨hwell, hbytes⟩ := (hp.view corner w h).answer _ hview
    obtain ⟨hwidth, hheight⟩ := p.region_size corner w h
    exact ⟨_, hview, hwell, hbytes, hwidth, hheight⟩
  · rw [view_eq_ite, if_pos hin, if_pos hover]
  · rw [view_eq_ite, if_neg hout]
  · obtain ⟨h₀, h₁, h₂, h₃⟩ := (p.includes_toRawRect corner w h).2 hin
    obtain ⟨hrw, hrh⟩ := p.toRawRect_size_pos corner w h hw hh
    have hbyte := Frame.Valid.byte_lt hp (x := (p.toRawRect corner w h).1.1.toNat)
      (y := (p.toRawRect corner w h).1.2.toNat) (by omega) (by omega)
    have hsized := hp.sized
    unfold firstByte sizeLimit
    omega

/-- Both constructors over given bytes answer for adequate arguments, and refuse all others unless the
bytes required overflow; views of whatever they answer, turned or not, are answered inside and refused
outside unless their first byte overflows. -/
theorem construction_cases (w h : UInt32) (type : PixelType) {bytes : Bytes}
    (hb : bytes.size ≤ maxSize) :
    Constructs w h type (type.rowBytes w) bytes (ofData w h type bytes) ∧
      (∀ stride : UInt64,
        Constructs w h type stride.toNat bytes (ofDataWithStride w h type stride bytes)) ∧
      ∀ p : Pixmap, p.WellFormed → ∀ corner vw vh, p.Derives corner vw vh (p.view corner vw vh) :=
  ⟨ofData_constructs w h type hb, fun stride => ofDataWithStride_constructs w h type stride hb,
    fun _ hp corner vw vh => hp.view_derives corner vw vh⟩

/-- A pixmap of the greatest sizes over no bytes requires about 2^66 bytes, and the view of nothing
behind the last pixel starts at byte 2^64 if the stride is that large. -/
theorem construction_overflows :
    ofData 0xffffffff 0xffffffff .rgba8888 #[] = .error (.fault .overflow) ∧
      ∃ p, ofDataWithStride 1 1 .g8 0xffffffffffffffff #[0] = .ok p ∧
        p.view ⟨1, 1⟩ 0 0 = .error (.fault .overflow) := by
  obtain ⟨hdata, -, -⟩ := construction_cases 0xffffffff 0xffffffff .rgba8888
    (show (#[] : Bytes).size ≤ maxSize by decide)
  obtain ⟨-, hstride, hview⟩ := construction_cases 1 1 .g8 (show (#[0] : Bytes).size ≤ maxSize by decide)
  obtain ⟨hp, howner⟩ := (hstride 0xffffffffffffffff).answers (by decide)
  refine ⟨hdata.overflows (by decide) (by decide), _, hp, ?_⟩
  exact (hview _ howner.wellFormed ⟨1, 1⟩ 0 0).overflows (by decide) (by decide)

end Pixmap

end Raster
