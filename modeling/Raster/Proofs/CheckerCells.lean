import Raster.Proofs.Checker
import Raster.Proofs.Rectangles

/- What a checker shows. A cell of the tile is a box of its own, and as cells lie side by
   side each pixel of the tile has the colour of the cell that its coordinates, divided by
   the size of a cell, tell (`paintCells_paints`, `tile_shows`); cells at the right and the
   lower edge are cut off by the tile. The part of the tile that is copied keeps its
   place towards the corner of the checker, whichever side of the canvas it hangs over and
   however the canvas is turned (`copyTile_paints`). So a checker on a canvas with pixels
   shows its cells from the corner on and nothing beside them (`checker_lands`). -/
namespace Raster

namespace BlitRect

/-- A raw point is a target just if its user point is as far from the destination as a point of the
rectangle is from the first corner. -/
theorem target_iff (r : BlitRect) (f : Frame) (x y : Int) : r.Target f x y ↔
    (r.x2 ≤ (f.toUser x y).1 ∧ (f.toUser x y).1 - r.x2 < r.x1 - r.x0 + 1) ∧
      r.y2 ≤ (f.toUser x y).2 ∧ (f.toUser x y).2 - r.y2 < r.y1 - r.y0 + 1 := by
  constructor
  · rintro ⟨j, hj₀, hj₁, i, hi₀, hi₁, hxy⟩
    have huser := f.toUser_toRaw (r.x2 + i) (r.y2 + j)
    rw [← hxy] at huser
    rw [huser]
    dsimp only
    omega
  · rintro ⟨⟨hx₀, hx₁⟩, hy₀, hy₁⟩
    refine ⟨(f.toUser x y).2 - r.y2, by omega, hy₁, (f.toUser x y).1 - r.x2, by omega, hx₁, ?_⟩
    rw [Int.add_comm r.x2, Int.sub_add_cancel, Int.add_comm r.y2, Int.sub_add_cancel,
      f.toRaw_toUser]

end BlitRect

namespace Checker
open Raster.Frame

/-- What cells of two kinds in turn have at a point, counted from the corner of the first cell. -/
def shade {α : Type} (cell : UInt32) (even odd : α) (x y : Int) : α :=
  if (x / cell.toNat + y / cell.toNat) % 2 = 0 then even else odd

/-- The colours can be coded before the cells are laid or after. -/
theorem shade_encodeRgb (type : PixelType) (cell : UInt32) (even odd : Rgb) (x y : Int) :
    shade cell (type.encodeRgb even) (type.encodeRgb odd) x y =
      type.encodeRgb (shade cell even odd x y) :=
  (apply_ite type.encodeRgb _ _ _).symm

/-- The points of a checker. -/
def Covers (corner : Point) (size : UInt32) (x y : Int) : Prop :=
  (corner.x.toInt ≤ x ∧ x < corner.x.toInt + size.toNat) ∧
    corner.y.toInt ≤ y ∧ y < corner.y.toInt + size.toNat

instance (corner : Point) (size : UInt32) (x y : Int) : Decidable (Covers corner size x y) :=
  inferInstanceAs (Decidable ((_ ∧ _) ∧ _ ∧ _))

/-! The cells of a tile. -/

section Cells
variable {size cell : UInt32} {x i : Int}

/-- The points of cell `i` are those that give `i` when divided by its size. -/
theorem cell_iff (hc : 0 < cell.toNat) :
    i * cell.toNat ≤ x ∧ x < i * cell.toNat + cell.toNat ↔ x / cell.toNat = i := by
  have hpos : (0 : Int) < cell.toNat := Int.natCast_pos.2 hc
  have hnext : i * cell.toNat + cell.toNat = (i + 1) * cell.toNat := by
    rw [Int.add_mul, Int.one_mul]
  rw [hnext, ← Int.le_ediv_iff_mul_le hpos, ← Int.ediv_lt_iff_lt_mul hpos]
  omega

/-- Every point of a tile is in one of its cells. -/
theorem cell_lt_cellCount (hc : 0 < cell.toNat) (hx : x < size.toNat) :
    x / cell.toNat < cellCount size cell := by
  have hpos : (0 : Int) < cell.toNat := Int.natCast_pos.2 hc
  apply Int.lt_of_add_one_le
  rw [cellCount, Int.natCast_ediv, Int.le_ediv_iff_mul_le hpos, Int.add_mul, Int.one_mul]
  have hle := Int.ediv_mul_le x hpos.ne'
  omega

end Cells

section Tile
variable {f : Frame} {b : Bytes} {type : PixelType} {size cell : UInt32} {even odd : Pixel} {p : Pixmap}
  {i j : Int}

/-- A cell that 32-bit integers reach is painted as a whole. -/
theorem paintCell_paints (hf : f.Addressable b.size) (hplain : f.Plain) (hc : 0 < cell.toNat)
    (hi : 0 ≤ i) (hj : 0 ≤ j) (hx : i * cell.toNat < 2 ^ 31) (hy : j * cell.toNat < 2 ^ 31) :
    Yields (paintCell f cell even odd i j b)
      (f.Paints (fun x y => x / cell.toNat = i ∧ y / cell.toNat = j)
        (fun x y => f.stored (shade cell even odd x y)) b) := by
  have hpos : (1 : Int) ≤ cell.toNat := Int.natCast_pos.2 hc
  have hi₁ : i * 1 ≤ i * cell.toNat := Int.mul_le_mul_of_nonneg_left hpos hi
  have hj₁ : j * 1 ≤ j * cell.toNat := Int.mul_le_mul_of_nonneg_left hpos hj
  rw [paintCell_eq hplain hc hi hj (by omega) (by omega) (by omega), cellStart_eq hi (by omega),
    cellStart_eq hj (by omega), if_pos hx, if_pos hy]
  refine (hf.box_paints _ _ _ _ _).mono (fun c hpaint => hpaint.congr (fun x y _ => ?_) ?_)
  · rw [← cell_iff hc, ← cell_iff hc, InBox]
    dsimp only
    omega
  · rintro x y - ⟨rfl, rfl⟩
    rfl

/-- Row after row the cells paint the whole tile. -/
theorem paintCells_paints (ht : Tile type size p) (hc : 0 < cell.toNat)
    (hsize : size.toNat ≤ 0x7fffffff) (even odd : Pixel) :
    Yields (paintCells p.toFrame size cell even odd p.bytes)
      (p.Paints (fun _ _ => True) (fun x y => p.stored (shade cell even odd x y)) p.bytes) := by
  have hp : p.Addressable := ⟨ht.wellFormed, ht.width_eq ▸ hsize, ht.height_eq ▸ hsize⟩
  have hcells : Yields (paintCells p.toFrame size cell even odd p.bytes)
      (p.Paints (fun x y => ∃ j : Int, 0 ≤ j ∧ j < cellCount size cell ∧ ∃ i : Int, 0 ≤ i ∧
        i < cellCount size cell ∧ x / cell.toNat = i ∧ y / cell.toNat = j)
        (fun x y => p.stored (shade cell even odd x y)) p.bytes) := by
    refine Paints.forRange _ (fun j c hj₀ hj₁ hc' => Paints.forRange _ (fun i d hi₀ hi₁ hd => ?_))
    have hx := cellCount_mul_le hc hi₁
    have hy := cellCount_mul_le hc hj₁
    have hf : p.toFrame.Addressable d.size := (hd.trans hc').symm ▸ hp
    exact paintCell_paints hf ht.plain hc hi₀ hj₀ (by omega) (by omega)
  refine hcells.mono (fun c hpaint => hpaint.area (fun x y hxy => iff_of_true ?_ trivial))
  -- the cell of a pixel of the tile is one of those that are painted
  obtain ⟨hx₀, hy₀, hx₁, hy₁⟩ := hxy
  rw [ht.width_eq] at hx₁
  rw [ht.height_eq] at hy₁
  exact ⟨y / cell.toNat, Int.ediv_nonneg hy₀ (Int.natCast_nonneg _), cell_lt_cellCount hc hy₁,
    x / cell.toNat, Int.ediv_nonneg hx₀ (Int.natCast_nonneg _), cell_lt_cellCount hc hx₁, rfl, rfl⟩

/-- A tile with its cells painted. -/
structure Patterned (type : PixelType) (size cell : UInt32) (even odd : Pixel) (tile : Pixmap) : Prop
    extends Tile type size tile where
  pixel_eq : ∀ x y, tile.Contains x y →
    tile.pixel tile.bytes x y = tile.stored (shade cell even odd x y)

/-- A tile that can be made shows its cells. -/
theorem tile_shows (hp : Pixmap.alloc size size type = .ok p) (hsize : size.toNat ≤ 0x7fffffff)
    (cell : UInt32) (even odd : Pixel) :
    Yields (tile type size cell even odd) (Patterned type size (max cell 1) even odd) := by
  have ht := (alloc_tile type size).answer p hp
  obtain ⟨c, hc, hpaint⟩ := paintCells_paints ht (one_le_cell cell) hsize even odd
  refine ⟨{ p with bytes := c }, ?_, ht.of_size hpaint.keeps.size_eq,
    fun x y hxy => hpaint.inside x y hxy trivial⟩
  rw [tile_eq hp, p.draw_ok hc]
  rfl

end Tile

/-! The copy on a canvas. -/

section Copy
variable {f : Frame} {b : Bytes} {tile : Pixmap} {size cell : UInt32} {even odd : Pixel}

/-- The part of the tile that is copied goes to the points of the checker. -/
theorem part_target_iff (hsize : size.toNat ≤ 0x7fffffff) (ht : Tile f.pixelType size tile)
    (corner : Point) {x y : Int} (hxy : f.Contains x y) :
    ((BlitRect.part ⟨0, 0, lastCoordinate size, lastCoordinate size, corner.x.toInt, corner.y.toInt⟩
      tile.userWidth tile.userHeight f.userWidth f.userHeight).Target f x y) ↔
      Covers corner size (f.toUser x y).1 (f.toUser x y).2 := by
  obtain ⟨hw, hh⟩ := size_of_identity ht.plain.orientation_eq
  rw [ht.width_eq] at hw
  rw [ht.height_eq] at hh
  -- the user point lies on the canvas
  have huser : f.ContainsUser (f.toUser x y).1 (f.toUser x y).2 := by
    rw [← f.contains_toRaw, f.toRaw_toUser]
    exact hxy
  obtain ⟨hx₀, hy₀, hx₁, hy₁⟩ := huser
  rw [BlitRect.target_iff, hw, hh]
  simp only [BlitRect.part, BlitRect.xAxis, BlitRect.yAxis, BlitRect.Axis.start, BlitRect.Axis.target,
    BlitRect.Axis.count, lastCoordinate, Covers]
  omega

/-- What is copied to a point of the checker is the cell of the point, counted from the corner. -/
theorem part_image (ht : Patterned f.pixelType size cell even odd tile) (corner : Point) {x y : Int}
    (hin : Covers corner size (f.toUser x y).1 (f.toUser x y).2) :
    (BlitRect.part ⟨0, 0, lastCoordinate size, lastCoordinate size, corner.x.toInt, corner.y.toInt⟩
      tile.userWidth tile.userHeight f.userWidth f.userHeight).image f tile x y =
      f.stored (shade cell even odd ((f.toUser x y).1 - corner.x.toInt)
        ((f.toUser x y).2 - corner.y.toInt)) := by
  -- where the checker hangs over, the copy starts as much later in the tile
  have hoffset : ∀ u d : Int, max (0 + max (-d) 0) 0 + (u - max d 0) = u - d := by
    intro u d
    omega
  obtain ⟨⟨hx₀, hx₁⟩, hy₀, hy₁⟩ := hin
  have hcontains : tile.Contains ((f.toUser x y).1 - corner.x.toInt)
      ((f.toUser x y).2 - corner.y.toInt) := by
    refine ⟨by omega, by omega, ?_, ?_⟩
    · rw [ht.width_eq]
      omega
    · rw [ht.height_eq]
      omega
  calc _ = f.stored (BlitRect.converted f tile ((f.toUser x y).1 - corner.x.toInt)
        ((f.toUser x y).2 - corner.y.toInt)) := by
        simp only [BlitRect.image, BlitRect.part, BlitRect.xAxis, BlitRect.yAxis,
          BlitRect.Axis.start, BlitRect.Axis.target, hoffset]
    _ = tile.pixel tile.bytes ((f.toUser x y).1 - corner.x.toInt)
        ((f.toUser x y).2 - corner.y.toInt) := by
        rw [stored_converted ht.type_eq, userPixel, toRaw_of_identity ht.plain.orientation_eq]
    _ = tile.stored (shade cell even odd ((f.toUser x y).1 - corner.x.toInt)
        ((f.toUser x y).2 - corner.y.toInt)) := ht.pixel_eq _ _ hcontains
    _ = _ := by simp only [stored, bpp, ht.type_eq]

/-- The copy of a tile is cut to the canvas and keeps its place towards the corner. -/
theorem copyTile_paints (hf : f.Addressable b.size) (hne : f.isEmpty = false)
    (hsize : size.toNat ≤ 0x7fffffff) (ht : Patterned f.pixelType size cell even odd tile)
    (corner : Point) :
    Yields (f.blitClippedOf tile ⟨0, 0⟩ size size corner b)
      (f.Paints (fun x y => Covers corner size (f.toUser x y).1 (f.toUser x y).2)
        (fun x y => f.stored (shade cell even odd ((f.toUser x y).1 - corner.x.toInt)
          ((f.toUser x y).2 - corner.y.toInt))) b) := by
  unfold blitClippedOf
  by_cases hzero : size = 0 ∨ size = 0
  · rw [if_pos hzero]
    refine Yields.ok (Paints.none (fun x y _ hin => ?_))
    rw [hzero.elim id id] at hin
    simp only [Covers, UInt32.toNat_zero] at hin
    omega
  rw [if_neg hzero]
  have hpos : 0 < size.toNat := UInt32.pos_iff_ne_zero.2 (fun h => hzero (Or.inl h))
  obtain ⟨hw, hh⟩ := user_pos_of_not_empty hne
  have hrect : BlitRect.ofCorners ⟨0, 0⟩ (farCorner ⟨0, 0⟩ size size) corner =
      ⟨0, 0, lastCoordinate size, lastCoordinate size, corner.x.toInt, corner.y.toInt⟩ :=
    rectangle_eq hpos
  have hcopy := hf.blitClipped_paints ⟨0, 0⟩ (farCorner ⟨0, 0⟩ size size) corner
    (hrect ▸ part_legible ht.toTile ..) hw hh
  rw [hrect] at hcopy
  exact hcopy.mono (fun c hpaint => hpaint.congr
    (fun x y hxy => part_target_iff hsize ht.toTile corner hxy)
    (fun x y _ hin => part_image ht corner hin))

end Copy

/-- From `p` to `q` the points of a checker on the pixmap take the colours of its cells, and nothing
else changes. -/
structure Lands (p : Pixmap) (corner : Point) (size cell : UInt32) (even odd : Rgb) (q : Pixmap) :
    Prop where
  frame_eq : q.toFrame = p.toFrame
  keeps : p.Keeps p.bytes q.bytes
  get_in : ∀ t : Point, p.ContainsUser t.x.toInt t.y.toInt →
    Covers corner size t.x.toInt t.y.toInt → q.get t = .ok (p.pixelType.encodeRgb
      (shade (max cell 1) even odd (t.x.toInt - corner.x.toInt) (t.y.toInt - corner.y.toInt)))
  get_out : ∀ t : Point, ¬ (p.ContainsUser t.x.toInt t.y.toInt ∧
    Covers corner size t.x.toInt t.y.toInt) → q.get t = p.get t

/-- A checker whose tile can be made lands on any canvas with pixels, however it is turned. -/
theorem checker_lands {p new : Pixmap} (hp : p.Addressable) (hne : p.isEmpty = false) {size : UInt32}
    (hsize : size.toNat ≤ 0x7fffffff) (hnew : Pixmap.alloc size size p.pixelType = .ok new)
    (corner : Point) (cell : UInt32) (even odd : Rgb) :
    Yields (p.draw .user (Shape.checker corner size cell even odd).paint)
      (Lands p corner size cell even odd) := by
  obtain ⟨tile, htile, ht⟩ :=
    tile_shows hnew hsize cell (p.pixelType.encodeRgb even) (p.pixelType.encodeRgb odd)
  obtain ⟨c, hc, hpaint⟩ := copyTile_paints hp hne hsize ht corner
  have hdraw : (Shape.checker corner size cell even odd).paint p.toFrame p.bytes = .ok c := by
    simp only [Shape.paint, htile]
    exact hc
  refine ⟨{ p with bytes := c }, p.draw_ok hdraw, rfl, hpaint.keeps, fun t ht hin => ?_,
    fun t hout => ?_⟩
  · rw [hp.get_painted hpaint ht (by rw [p.toUser_toRaw]; exact hin), p.toUser_toRaw,
      shade_encodeRgb, PixelType.encodeRgb, stored_eq_of_lt (PixelType.encode_lt ..),
      UInt32.ofNat_toNat]
  · apply hp.get_unpainted hpaint
    intro ht hin
    rw [p.toUser_toRaw] at hin
    exact hout ⟨ht, hin⟩

/-- Two pixels to a cell and five to a side, over the left and the lower edge of a canvas turned by a
quarter: the third cell of a row is cut off by the tile, and has the first colour again. -/
theorem checker_lands_turned : ∃ p q : Pixmap, p.Addressable ∧ p.isEmpty = false ∧
    Pixmap.alloc 5 5 p.pixelType = .ok (Pixmap.blank 5 5 p.pixelType) ∧
    p.draw .user (Shape.checker ⟨-2, 1⟩ 5 2 ⟨255, 255, 255⟩ ⟨0, 0, 0⟩).paint = .ok q ∧
      q.get ⟨0, 1⟩ = .ok 0 ∧ q.get ⟨2, 1⟩ = .ok 3 ∧ q.get ⟨0, 3⟩ = .ok 3 ∧ q.get ⟨2, 0⟩ = .ok 1 := by
  let p : Pixmap := ⟨⟨1, 4, 3, 3, 6, .g2ub, .rotated .identity .quarterTurn, none⟩, Array.replicate 9 85⟩
  have hp : p.Addressable := by
    refine ⟨⟨?_, ?_, ?_, ?_, ?_, ?_, ?_⟩, ?_, ?_⟩ <;> decide
  have hnew : Pixmap.alloc 5 5 p.pixelType = .ok (Pixmap.blank 5 5 p.pixelType) :=
    Pixmap.alloc_ok (by decide) (by decide)
  obtain ⟨q, hq, hlands⟩ :=
    checker_lands hp rfl (by decide) hnew ⟨-2, 1⟩ 2 ⟨255, 255, 255⟩ ⟨0, 0, 0⟩
  refine ⟨p, q, hp, rfl, hnew, hq, ?_, ?_, ?_, ?_⟩
  · exact (hlands.get_in ⟨0, 1⟩ (by decide) (by decide)).trans (by decide)
  · exact (hlands.get_in ⟨2, 1⟩ (by decide) (by decide)).trans (by decide)
  · exact (hlands.get_in ⟨0, 3⟩ (by decide) (by decide)).trans (by decide)
  · exact (hlands.get_out ⟨2, 0⟩ (by decide)).trans (by decide)

end Checker
end Raster
