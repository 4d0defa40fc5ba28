import Raster.Proofs.BlitEmpty
import Raster.Proofs.Inks
import Raster.Proofs.WellFormed

/- When checkers fault. A checker is painted on a tile of its own, which may be larger
   than 32-bit integers reach. Then either the number of a cell overflows, or a cell that
   is set pixel by pixel goes over the middle of the 32-bit numbers; rows of whole bytes
   are stamped wherever they are, and cells that start in the upper half are taken for
   negative ones and left out (`Oversized`, `tile_yields`, `tile_faults`). The copy of the
   tile overruns a canvas without rows if some of it lies above (`Overruns`). -/
namespace Raster

namespace Frame
open Bounds
variable {f : Frame} {b : Bytes} {n : Nat}

/-- The form of a new frame: nothing lies before the first pixel, and without columns there are no
bytes from row to row. -/
structure Plain (f : Frame) : Prop where
  start_eq : f.start = 0
  offset_eq : f.offset = 0
  orientation_eq : f.orientation = .identity
  stride_eq : f.width = 0 → f.stride = 0

theorem Plain.isAligned_iff (hf : f.Plain) : f.isAligned = true ↔ f.bpp % 8 = 0 := by
  rw [isAligned, hf.offset_eq]
  simp

/-! Boxes in frames of any size. -/

/-- A box is drawn if its rows are stamped or 32-bit integers reach its points. -/
theorem Valid.box_draws (hf : f.Valid n) (hb : b.size = n) (x0 y0 x1 y1 : Int) (v : Pixel)
    (hreach : f.isAligned = true ∨ ∀ x y, f.Contains x y → x ≤ max x0 x1 → y ≤ max y0 y1 →
      x ≤ 0x7fffffff ∧ y ≤ 0x7fffffff) : f.Draws v b (f.box x0 y0 x1 y1 v b) := by
  refine Draws.forRange (fun y c h₀ h₁ hc => ?_)
  have hf' : f.Valid c.size := (hc.trans hb).symm ▸ hf
  have hrow := hf'.spanRow_paints x0 x1 y v
    (hreach.imp_right (fun h x hxy hx => h x y hxy hx (by omega)))
  exact Draws.of_paints hrow

/-- The first coordinate that 32-bit integers do not reach stands for a negative one. -/
theorem writeRaw_beyond (f : Frame) (y : Int32) (v : Pixel) (b : Bytes) :
    Stops (f.writeRaw (.ofInt 0x80000000) y v b) := by
  have hneg : (Int32.ofInt 0x80000000).toInt = -0x80000000 := by decide
  refine ⟨.outOfBounds, if_neg (fun hxy => ?_)⟩
  have h := hxy.1
  omega

/-- A box that is set pixel by pixel is not drawn over that coordinate. -/
theorem box_stops (ha : ¬ f.isAligned = true) {x0 y0 x1 y1 : Int} (hx₀ : x0 ≤ 0x80000000)
    (hx₁ : 0x80000000 ≤ x1) (hy₀ : y0 ≤ 0) (hy₁ : 0 ≤ y1) (hw : 0x80000000 < f.width.toNat)
    (hh : 0 < f.height.toNat) (v : Pixel) : Stops (f.box x0 y0 x1 y1 v b) := by
  refine Stops.forRange (P := fun c => c.size = b.size) (j := 0) (fun y c hc => sized_spanRow hc ..)
    rfl (by omega) (by omega) (fun c hc => ?_)
  rw [spanRow, if_neg (by omega), if_neg (by omega), if_neg ha]
  exact Stops.forRange (P := fun c => c.size = b.size) (j := 0x80000000)
    (fun x c hc => sized_writeRaw hc ..) hc (by omega) (by omega) (fun c _ => writeRaw_beyond ..)

end Frame

namespace Pixmap

/-- A new pixmap is plain, and its buffer is one that can be allocated. -/
theorem plainFrame_plain (w h : UInt32) (type : PixelType) (stride : Nat) :
    (plainFrame w h type stride).Plain :=
  ⟨rfl, rfl, rfl, fun hw => if_pos hw⟩

end Pixmap

namespace Checker
open Raster.Frame Bounds

/-! Cells. -/

/-- Where the cell with number `i` along a side starts, as a 32-bit integer. -/
def cellStart (cell : UInt32) (i : Int) : Int := (Int32.ofInt (i * cell.toNat)).toInt

section Cells
variable {size cell : UInt32} {i j : Int}

/-- A cell ends where the next one starts. -/
theorem mul_add_le {k : Int} (h : i < k) (cell : UInt32) :
    i * cell.toNat + cell.toNat ≤ k * cell.toNat := by
  have hle : (i + 1) * cell.toNat ≤ k * cell.toNat :=
    Int.mul_le_mul_of_nonneg_right h (Int.natCast_nonneg _)
  rwa [Int.add_mul, Int.one_mul] at hle

theorem cellCount_mul_le (hc : 0 < cell.toNat) (hi : i < cellCount size cell) :
    i * cell.toNat < size.toNat := by
  have hnext := mul_add_le hi cell
  have hle : cellCount size cell * cell.toNat ≤ size.toNat + cell.toNat - 1 := Nat.div_mul_le_self ..
  rw [← Int.natCast_mul] at hnext
  omega

/-- Cells of more than one pixel have numbers of 32 bits, and so do their sums. -/
theorem cellCount_le (hc : 1 < cell.toNat) (size : UInt32) : cellCount size cell ≤ 2 ^ 31 := by
  have hs := size.toNat_lt
  have h : cellCount size cell < 2 ^ 31 + 1 :=
    (Nat.div_lt_iff_lt_mul (by omega)).2 (by omega)
  omega

theorem cellStart_eq (hi : 0 ≤ i) (hx : i * cell.toNat < 2 ^ 32) : cellStart cell i =
    if i * cell.toNat < 2 ^ 31 then i * cell.toNat else i * cell.toNat - 2 ^ 32 := by
  have hnonneg : 0 ≤ i * cell.toNat := Int.mul_nonneg hi (Int.natCast_nonneg _)
  rw [cellStart, Int32.toInt_ofInt, Int.bmod, Int32.size]
  split_ifs <;> omega

/-- Cells whose size divides half of the 32-bit numbers do not go over its end. -/
theorem cellStart_add_le (hc : cell.toNat ∣ 2 ^ 31) (hi : 0 ≤ i) (hx : i * cell.toNat < 2 ^ 32) :
    cellStart cell i + cell.toNat ≤ 2 ^ 31 := by
  obtain ⟨q, hq⟩ := hc
  have hq' : (q : Int) * cell.toNat = 2 ^ 31 := by
    rw [Int.mul_comm]
    exact_mod_cast hq.symm
  have hlt : ∀ k : Int, i * cell.toNat < k * cell.toNat → i < k :=
    fun k h => Int.lt_of_mul_lt_mul_right h (Int.natCast_nonneg _)
  rw [cellStart_eq hi hx]
  split_ifs with hlow
  · have hnext := mul_add_le (hlt q (by omega)) cell
    omega
  · have hnext := mul_add_le (hlt (2 * q) (by rw [Int.mul_assoc]; omega)) cell
    rw [Int.mul_assoc] at hnext
    omega

end Cells

/-! The tile. -/

/-- A tile beyond the reach of 32-bit integers, with cells of one pixel, or with cells that are set
pixel by pixel and of which one goes over the end. -/
def Oversized (type : PixelType) (size cell : UInt32) : Prop :=
  2 ^ 31 < size.toNat ∧ (cell.toNat = 1 ∨ type.bpp % 8 ≠ 0 ∧ ¬ cell.toNat ∣ 2 ^ 31)

instance (type : PixelType) (size cell : UInt32) : Decidable (Oversized type size cell) :=
  inferInstanceAs (Decidable (_ ∧ _))

/-- The form in which a tile is made, and which it keeps when it is painted. -/
structure Tile (type : PixelType) (size : UInt32) (p : Pixmap) : Prop where
  wellFormed : p.WellFormed
  plain : p.toFrame.Plain
  type_eq : p.pixelType = type
  width_eq : p.width = size
  height_eq : p.height = size
  stride_pos : size ≠ 0 → 0 < p.stride
  size_le : p.bytes.size ≤ Pixmap.maxSize

theorem alloc_tile (type : PixelType) (size : UInt32) :
    Ensures (Pixmap.alloc size size type) (Tile type size) := by
  refine ⟨fun p hp => ?_⟩
  have howner := (Pixmap.alloc_owner size size type).answer p hp
  obtain ⟨rfl, hmax⟩ := (Pixmap.alloc_blank size size type).answer p hp
  refine ⟨howner.wellFormed, Pixmap.plainFrame_plain .., rfl, rfl, rfl, fun hsize => ?_, hmax⟩
  have hpos : 0 < size.toNat * type.bpp :=
    Nat.mul_pos (UInt32.pos_iff_ne_zero.2 hsize) (Frame.Valid.bpp_pos howner.wellFormed)
  show 0 < if size = 0 then 0 else type.rowBytes size
  rw [if_neg hsize, PixelType.rowBytes, byteCount]
  omega

section Tile
variable {f : Frame} {b : Bytes} {n : Nat} {cell : UInt32} {even odd : Pixel} {i j : Int}

theorem one_le_cell (cell : UInt32) : 1 ≤ (max cell 1).toNat := by
  show 1 ≤ (if cell ≤ 1 then 1 else cell).toNat
  split_ifs with h
  · decide
  · have hlt := UInt32.lt_iff_toNat_lt.1 (UInt32.not_le.1 h)
    exact Nat.le_of_lt hlt

theorem paintCell_eq (hf : f.Plain) (hc : 0 < cell.toNat) (hi : 0 ≤ i) (hj : 0 ≤ j)
    (hx : i * cell.toNat < 2 ^ 32) (hy : j * cell.toNat < 2 ^ 32) (hk : i + j < 2 ^ 32) :
    paintCell f cell even odd i j b =
      f.box (cellStart cell i) (cellStart cell j) (cellStart cell i + cell.toNat - 1)
        (cellStart cell j + cell.toNat - 1) (if (i + j) % 2 = 0 then even else odd) b := by
  have hx₀ : 0 ≤ i * cell.toNat := Int.mul_nonneg hi (Int.natCast_nonneg _)
  have hy₀ : 0 ≤ j * cell.toNat := Int.mul_nonneg hj (Int.natCast_nonneg _)
  have hcell : ¬ (cell = 0 ∨ cell = 0) := by
    intro h
    rw [h.elim id id] at hc
    exact absurd hc (by decide)
  have hpass : ∀ v : Int, 0 ≤ v → v < 2 ^ 32 → uint32.check v = .ok v := by
    intro v h₀ h₁
    exact check_of_holds ⟨h₀, by simp only [uint32]; omega⟩
  have hraw : ∀ x y, f.rawPoint x y = .ok (x, y) := by
    intro x y
    rw [rawPoint, hf.orientation_eq]
    rfl
  rw [paintCell, hpass _ (by omega) hk, ok_bind, hpass _ hx₀ hx, ok_bind, hpass _ hy₀ hy, ok_bind,
    fillRectOf, bySize, if_neg hcell]
  simp only [byCorners, hraw, ok_bind]
  rfl

theorem sized_paintCell (hb : b.size = n) (cell : UInt32) (even odd : Pixel) (i j : Int) :
    Sized n (paintCell f cell even odd i j b) :=
  Ensures.bind_any (fun _ => Ensures.bind_any (fun _ => Ensures.bind_any (fun _ =>
    sized_fillRectOf hb ..)))

variable {type : PixelType} {size : UInt32} {p : Pixmap}

/-- In a tile that is not oversized 32-bit integers reach the pixels of a cell, or its rows are
stamped. -/
theorem cell_reached (ht : Tile type size p) (hsmall : ¬ Oversized type size cell) (hi : 0 ≤ i)
    (hj : 0 ≤ j) (hx : i * cell.toNat < 2 ^ 32) (hy : j * cell.toNat < 2 ^ 32) :
    p.isAligned = true ∨ ∀ x y, p.Contains x y → x < cellStart cell i + cell.toNat →
      y < cellStart cell j + cell.toNat → x ≤ 0x7fffffff ∧ y ≤ 0x7fffffff := by
  rw [ht.plain.isAligned_iff, Frame.bpp, ht.type_eq]
  by_cases ha : type.bpp % 8 = 0
  · exact Or.inl ha
  refine Or.inr (fun x y hxy hx' hy' => ?_)
  by_cases hlarge : 2 ^ 31 < size.toNat
  · -- no cell goes over the end
    have hdvd : cell.toNat ∣ 2 ^ 31 :=
      Decidable.of_not_not (fun h => hsmall ⟨hlarge, Or.inr ⟨ha, h⟩⟩)
    have hx₁ := cellStart_add_le hdvd hi hx
    have hy₁ := cellStart_add_le hdvd hj hy
    omega
  · obtain ⟨-, -, hw, hh⟩ := hxy
    rw [ht.width_eq] at hw
    rw [ht.height_eq] at hh
    omega

theorem paintCell_keeps (ht : Tile type size p) (hc : 0 < cell.toNat)
    (hsmall : ¬ Oversized type size cell) (hb : b.size = p.bytes.size) (even odd : Pixel)
    (hi₀ : 0 ≤ i) (hi₁ : i < cellCount size cell) (hj₀ : 0 ≤ j) (hj₁ : j < cellCount size cell) :
    Yields (paintCell p.toFrame cell even odd i j b) (p.Keeps b) := by
  have hsize := size.toNat_lt
  have hx := cellCount_mul_le hc hi₁
  have hy := cellCount_mul_le hc hj₁
  have hk : i + j < 2 ^ 32 := by
    by_cases h1 : cell.toNat = 1
    · have hle : ¬ 2 ^ 31 < size.toNat := fun h => hsmall ⟨h, Or.inl h1⟩
      rw [h1] at hx hy
      omega
    · have hcount := cellCount_le (show 1 < cell.toNat by omega) size
      omega
  have hreach := cell_reached ht hsmall hi₀ hj₀ (by omega) (by omega)
  rw [paintCell_eq ht.plain hc hi₀ hj₀ (by omega) (by omega) hk]
  have hbox := Valid.box_draws ht.wellFormed hb (cellStart cell i) (cellStart cell j)
    (cellStart cell i + cell.toNat - 1) (cellStart cell j + cell.toNat - 1)
    (if (i + j) % 2 = 0 then even else odd)
    (hreach.imp_right (fun h x y hxy hx hy => h x y hxy (by omega) (by omega)))
  exact hbox.mono (fun c hc => hc.keeps)

/-- Beyond the reach of 32-bit integers the numbers of the last cell overflow, if cells are single
pixels. -/
theorem last_cell_stops (h1 : cell.toNat = 1) (hsize : 2 ^ 31 < size.toNat) (f : Frame)
    (even odd : Pixel) : ∃ k : Int, 0 ≤ k ∧ k < cellCount size cell ∧
      ∀ b, Stops (paintCell f cell even odd k k b) := by
  have hcount : cellCount size cell = size.toNat := by
    rw [cellCount, h1, Nat.div_one, Nat.add_sub_cancel]
  refine ⟨size.toNat - 1, by omega, by omega, fun b => ?_⟩
  apply Stops.bind_first
  apply Stops.check
  simp only [Holds, uint32]
  omega

/-- The cell at the end of the 32-bit integers goes over it, if its size does not divide their
number. -/
theorem middle_cell_stops (ht : Tile type size p) (hc : 0 < cell.toNat) (hbpp : type.bpp % 8 ≠ 0)
    (hdvd : ¬ cell.toNat ∣ 2 ^ 31) (hsize : 2 ^ 31 < size.toNat) (even odd : Pixel) :
    ∃ k : Int, 0 ≤ k ∧ k < cellCount size cell ∧
      ∀ b, Stops (paintCell p.toFrame cell even odd k 0 b) := by
  have hdiv := Nat.div_add_mod (2 ^ 31) cell.toNat
  have hmod := Nat.mod_lt (2 ^ 31) hc
  have hrest : 2 ^ 31 % cell.toNat ≠ 0 := fun h => hdvd (Nat.dvd_of_mod_eq_zero h)
  have hnumber : 2 ^ 31 / cell.toNat ≤ 2 ^ 31 := Nat.div_le_self ..
  rw [Nat.mul_comm] at hdiv
  generalize 2 ^ 31 / cell.toNat = k at hdiv hnumber
  have hcount : k < cellCount size cell := by
    apply (Nat.le_div_iff_mul_le hc).2
    rw [Nat.succ_mul]
    omega
  have hcast : (k : Int) * cell.toNat = (k * cell.toNat : Nat) := (Int.natCast_mul ..).symm
  have hwidth := congrArg UInt32.toNat ht.width_eq
  have hheight := congrArg UInt32.toNat ht.height_eq
  have ha : ¬ p.isAligned = true := by
    rw [ht.plain.isAligned_iff, Frame.bpp, ht.type_eq]
    exact hbpp
  refine ⟨k, Int.natCast_nonneg _, by omega, fun b => ?_⟩
  rw [paintCell_eq ht.plain hc (by omega) (by omega) (by omega) (by omega) (by omega),
    cellStart_eq (Int.natCast_nonneg _) (by omega), if_pos (by omega),
    cellStart_eq (Int.le_refl 0) (by omega), if_pos (by omega)]
  apply box_stops ha <;> omega

/-- The cells of a tile, row after row. -/
def paintCells (f : Frame) (size cell : UInt32) (even odd : Pixel) (b : Bytes) :
    Except Fault Bytes :=
  forRange 0 (cellCount size cell) b fun j b =>
    forRange 0 (cellCount size cell) b fun i b => paintCell f cell even odd i j b

theorem paintCells_keeps (ht : Tile type size p) (hc : 0 < cell.toNat)
    (hsmall : ¬ Oversized type size cell) (even odd : Pixel) :
    Yields (paintCells p.toFrame size cell even odd p.bytes) (p.Keeps p.bytes) := by
  refine Keeps.forRange (fun j c hj₀ hj₁ hc' => Keeps.forRange (fun i d hi₀ hi₁ hd => ?_))
  exact paintCell_keeps ht hc hsmall (hd.trans hc') even odd hi₀ hi₁ hj₀ hj₁

/-- The rows break off at a cell that does. -/
theorem paintCells_stops {f : Frame} {i j : Int} (hi₀ : 0 ≤ i) (hi₁ : i < cellCount size cell)
    (hj₀ : 0 ≤ j) (hj₁ : j < cellCount size cell)
    (hstop : ∀ c, Stops (paintCell f cell even odd i j c)) (b : Bytes) :
    Stops (paintCells f size cell even odd b) := by
  refine Stops.forRange (P := fun c => c.size = b.size)
    (fun _ c hc => Ensures.forRange (fun _ _ hc => sized_paintCell hc ..) hc) rfl hj₀ hj₁
    (fun c hc => ?_)
  exact Stops.forRange (P := fun c => c.size = b.size) (fun _ _ hc => sized_paintCell hc ..) hc hi₀
    hi₁ (fun d _ => hstop d)

/-- A tile stays one when its pixels are painted. -/
theorem Tile.of_size (ht : Tile type size p) (hb : b.size = p.bytes.size) :
    Tile type size { p with bytes := b } := by
  have hwell : p.toFrame.Valid b.size := hb ▸ ht.wellFormed
  exact ⟨hwell, ht.plain, ht.type_eq, ht.width_eq, ht.height_eq, ht.stride_pos, hb ▸ ht.size_le⟩

theorem tile_eq (hp : Pixmap.alloc size size type = .ok p) (cell : UInt32) (even odd : Pixel) :
    tile type size cell even odd =
      liftM (p.draw .user fun f b => paintCells f size (max cell 1) even odd b) := by
  rw [tile, hp, ok_bind]
  rfl

/-- A tile that can be made is painted, unless it is oversized. -/
theorem tile_yields (hp : Pixmap.alloc size size type = .ok p)
    (hsmall : ¬ Oversized type size (max cell 1)) (even odd : Pixel) :
    Yields (tile type size cell even odd) (Tile type size) := by
  have ht := (alloc_tile type size).answer p hp
  obtain ⟨c, hc, hkeeps⟩ := paintCells_keeps ht (one_le_cell cell) hsmall even odd
  refine ⟨{ p with bytes := c }, ?_, ht.of_size hkeeps.size_eq⟩
  rw [tile_eq hp, p.draw_ok hc]
  rfl

theorem tile_faults (hp : Pixmap.alloc size size type = .ok p)
    (hlarge : Oversized type size (max cell 1)) (even odd : Pixel) :
    ∃ e, tile type size cell even odd = .error (.fault e) := by
  have ht := (alloc_tile type size).answer p hp
  obtain ⟨hsize, hcell⟩ := hlarge
  have hstop : Stops (paintCells p.toFrame size (max cell 1) even odd p.bytes) := by
    rcases hcell with h1 | ⟨hbpp, hdvd⟩
    · obtain ⟨k, hk₀, hk₁, hk⟩ := last_cell_stops h1 hsize p.toFrame even odd
      exact paintCells_stops hk₀ hk₁ hk₀ hk₁ hk p.bytes
    · obtain ⟨k, hk₀, hk₁, hk⟩ :=
        middle_cell_stops ht (one_le_cell cell) hbpp hdvd hsize even odd
      exact paintCells_stops hk₀ hk₁ (Int.le_refl 0) (by omega) hk p.bytes
  obtain ⟨e, he⟩ := hstop
  refine ⟨e, ?_⟩
  rw [tile_eq hp, p.draw_error he]
  rfl

end Tile

/-! The copy. -/

/-- The copy of the rows of a tile to a canvas of width `w` and height `h` overruns: the canvas has
no rows, the tile starts above its upper and before its right edge, and it reaches the upper and
the left one. -/
def Overruns (w h : UInt32) (type : PixelType) (corner : Point) (size : UInt32) : Prop :=
  type.bpp % 8 = 0 ∧ h = 0 ∧ corner.y.toInt < 0 ∧ corner.x.toInt < w.toNat ∧
    -corner.x.toInt < min size.toNat (2 ^ 31) ∧ -corner.y.toInt < min size.toNat (2 ^ 31)

instance (w h : UInt32) (type : PixelType) (corner : Point) (size : UInt32) :
    Decidable (Overruns w h type corner size) :=
  inferInstanceAs (Decidable (_ ∧ _))

section Copy
variable {size : UInt32} {corner : Point} {tile : Pixmap} {f : Frame} {n : Nat}

/-- The last coordinate of the tile that is asked for. -/
def lastCoordinate (size : UInt32) : Int := min (size.toNat - 1) 0x7fffffff

theorem rectangle_eq (hsize : 0 < size.toNat) :
    BlitRect.ofCorners ⟨0, 0⟩ (farCorner ⟨0, 0⟩ size size) corner =
      ⟨0, 0, lastCoordinate size, lastCoordinate size, corner.x.toInt, corner.y.toInt⟩ :=
  BlitRect.ofCorners_farCorner hsize hsize corner

/-- What is copied of a tile is in the reach of 32-bit integers. -/
theorem part_legible {type : PixelType} (ht : Tile type size tile) (sw sh dw dh : UInt32) :
    (BlitRect.part ⟨0, 0, lastCoordinate size, lastCoordinate size, corner.x.toInt, corner.y.toInt⟩
      sw sh dw dh).Legible tile := by
  have hle : ∀ x y : Int,
      x ≤ (BlitRect.part ⟨0, 0, lastCoordinate size, lastCoordinate size, corner.x.toInt,
        corner.y.toInt⟩ sw sh dw dh).x1 →
      y ≤ (BlitRect.part ⟨0, 0, lastCoordinate size, lastCoordinate size, corner.x.toInt,
        corner.y.toInt⟩ sw sh dw dh).y1 → x ≤ 0x7fffffff ∧ y ≤ 0x7fffffff := by
    intro x y hx hy
    simp only [BlitRect.part, BlitRect.xAxis, BlitRect.yAxis, BlitRect.Axis.count,
      lastCoordinate] at hx hy
    omega
  refine ⟨ht.wellFormed, fun x y _ hx hy => hle x y hx hy, fun x y _ hx hy => ?_⟩
  rw [toRaw_of_identity ht.plain.orientation_eq]
  exact hle x y hx hy

theorem overruns_iff (hp : f.Plain) (ht : Tile f.pixelType size tile) (hsize : 0 < size.toNat) :
    f.Overruns tile (BlitRect.ofCorners ⟨0, 0⟩ (farCorner ⟨0, 0⟩ size size) corner) n ↔
      Overruns f.width f.height f.pixelType corner size := by
  have halign : tile.isAligned = true ↔ f.bpp % 8 = 0 := by
    rw [ht.plain.isAligned_iff, Frame.bpp, ht.type_eq, Frame.bpp]
  obtain ⟨huw, huh⟩ := size_of_identity ht.plain.orientation_eq
  obtain ⟨hfw, hfh⟩ := size_of_identity hp.orientation_eq
  rw [rectangle_eq hsize]
  simp only [Frame.Overruns, ByRows, hp.orientation_eq, ht.plain.orientation_eq, ht.type_eq, halign,
    hp.isAligned_iff, huw, huh, hfw, hfh, ht.width_eq, ht.height_eq, BlitRect.xAxis, BlitRect.yAxis,
    BlitRect.Axis.Left, BlitRect.Axis.start, true_and, and_self, hp.start_eq, lastCoordinate]
  constructor
  · intro h
    obtain ⟨hbpp, ⟨hx, hy⟩, hrows⟩ := h
    have hno : f.height = 0 := by
      refine hrows.resolve_right (fun h => ?_)
      rw [hp.stride_eq h.1, Nat.mul_zero] at h
      omega
    rw [hno] at hy
    have h0 : (0 : UInt32).toNat = 0 := rfl
    exact ⟨hbpp, hno, by omega, by omega, by omega, by omega⟩
  · intro h
    obtain ⟨hbpp, hno, hy, hx, hx', hy'⟩ := h
    rw [hno]
    have h0 : (0 : UInt32).toNat = 0 := rfl
    exact ⟨hbpp, ⟨⟨hx, by omega⟩, by omega, by omega⟩, Or.inl rfl⟩

end Copy

end Checker

end Raster
