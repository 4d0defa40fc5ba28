import Mathlib.Tactic.SplitIfs
import Raster.Proofs.Image
import Raster.Proofs.WellFormed

/- User coordinates. For coordinates of 32 bits the map from user to raw points is total
   (`rawPoint_eq`); `Orientation.toRaw` and `Orientation.toUser` are inverse to each
   other and carry the points of the user size to the points of the raw size. So an
   access by user coordinates is an access to one pixel of the image, or none
   (`read_eq`, `write_paints`). -/
namespace Raster

theorem Point.ext_toInt {p q : Point} (hx : p.x.toInt = q.x.toInt) (hy : p.y.toInt = q.y.toInt) :
    p = q := by
  cases p
  cases q
  exact congrArg₂ Point.mk (Int32.toInt_inj.1 hx) (Int32.toInt_inj.1 hy)

namespace Orientation

/-- `v` counted from the far end `last`, where `on` asks for it. -/
def reflect (on : Bool) (last v : Int) : Int := if on then last - v else v

/-- The raw point of a user point, in a buffer of raw size `w` and `h`. -/
def toRaw (o : Orientation) (w h x y : Int) : Int × Int :=
  let p := o.exchange (x, y)
  (reflect o.mirrorX (w - 1) p.1, reflect o.mirrorY (h - 1) p.2)

/-- The user point of a raw point. -/
def toUser (o : Orientation) (w h x y : Int) : Int × Int :=
  o.exchange (reflect o.mirrorX (w - 1) x, reflect o.mirrorY (h - 1) y)

variable (o : Orientation) (w h x y : Int)

@[simp] theorem exchange_exchange {α : Type} (p : α × α) : o.exchange (o.exchange p) = p := by
  obtain ⟨swap, mx, my⟩ := o
  cases swap <;> rfl

@[simp] theorem reflect_reflect (on : Bool) (last v : Int) :
    reflect on last (reflect on last v) = v := by
  cases on
  · rfl
  · simp only [reflect, if_true]
    omega

theorem toRaw_toUser : o.toRaw w h (o.toUser w h x y).1 (o.toUser w h x y).2 = (x, y) := by
  simp only [toRaw, toUser, Prod.mk.eta, exchange_exchange, reflect_reflect]

theorem toUser_toRaw : o.toUser w h (o.toRaw w h x y).1 (o.toRaw w h x y).2 = (x, y) := by
  simp only [toRaw, toUser, reflect_reflect, Prod.mk.eta, exchange_exchange]

theorem toRaw_inj {x y x' y' : Int} : o.toRaw w h x y = o.toRaw w h x' y' ↔ x = x' ∧ y = y' := by
  constructor
  · intro he
    have hu := congrArg (fun p => o.toUser w h p.1 p.2) he
    simp only [toUser_toRaw] at hu
    exact Prod.mk.inj hu
  · intro he
    rw [he.1, he.2]

theorem mirrored_eq (on : Bool) {last v : Int} (hl : last.natAbs ≤ 2 ^ 41) (hv : v.natAbs ≤ 2 ^ 62) :
    mirrored on last v = .ok (reflect on last v) := by
  cases on
  · rfl
  · have hcheck : Bounds.int64.check (last - v) = .ok (last - v) :=
      Bounds.check_of_holds (by simp only [Bounds.Holds, Bounds.int64]; omega)
    exact hcheck

variable {x y} in
/-- No fault occurs for coordinates that fit 62 bits. -/
theorem rawPoint_eq (w h : UInt32) (hx : x.natAbs ≤ 2 ^ 62) (hy : y.natAbs ≤ 2 ^ 62) :
    o.rawPoint w h x y = .ok (o.toRaw w.toNat h.toNat x y) := by
  have hw := w.toNat_lt
  have hh := h.toNat_lt
  obtain ⟨swap, mx, my⟩ := o
  cases swap
  · simp only [rawPoint, exchange, Bool.false_eq_true, if_false,
      mirrored_eq mx (show ((w.toNat : Int) - 1).natAbs ≤ 2 ^ 41 by omega) hx,
      mirrored_eq my (show ((h.toNat : Int) - 1).natAbs ≤ 2 ^ 41 by omega) hy]
    rfl
  · simp only [rawPoint, exchange, if_true,
      mirrored_eq mx (show ((w.toNat : Int) - 1).natAbs ≤ 2 ^ 41 by omega) hy,
      mirrored_eq my (show ((h.toNat : Int) - 1).natAbs ≤ 2 ^ 41 by omega) hx]
    rfl

/-- Distances on an axis do not change when it is mirrored. -/
theorem natAbs_reflect_sub (on : Bool) (last v v' : Int) :
    (reflect on last v - reflect on last v').natAbs = (v - v').natAbs := by
  cases on
  · rfl
  · simp only [reflect, if_true]
    omega

end Orientation

namespace Frame
variable {f : Frame} {b : Bytes} {x y : Int}

/-- The raw point of a user point. -/
def toRaw (f : Frame) (x y : Int) : Int × Int :=
  f.orientation.toRaw f.width.toNat f.height.toNat x y

/-- The user point of a raw point. -/
def toUser (f : Frame) (x y : Int) : Int × Int :=
  f.orientation.toUser f.width.toNat f.height.toNat x y

/-- The user point `x`, `y` lies in the frame. -/
def ContainsUser (f : Frame) (x y : Int) : Prop :=
  0 ≤ x ∧ 0 ≤ y ∧ x < f.userWidth.toNat ∧ y < f.userHeight.toNat

instance (f : Frame) (x y : Int) : Decidable (f.ContainsUser x y) :=
  inferInstanceAs (Decidable (_ ∧ _ ∧ _ ∧ _))

/-- The value of the pixel at a user point of the frame. -/
def userPixel (f : Frame) (b : Bytes) (x y : Int) : Nat :=
  f.pixel b (f.toRaw x y).1 (f.toRaw x y).2

/-- Points of the user size are those whose raw points are points of the raw size. -/
theorem contains_toRaw (f : Frame) (x y : Int) :
    f.Contains (f.toRaw x y).1 (f.toRaw x y).2 ↔ f.ContainsUser x y := by
  obtain ⟨start, w, h, stride, offset, type, ⟨swap, mx, my⟩, gamma⟩ := f
  -- mirrored or not, an axis runs over the same range
  cases swap <;> cases mx <;> cases my <;>
    simp only [Contains, ContainsUser, toRaw, Orientation.toRaw, Orientation.reflect,
      Orientation.exchange, userWidth, userHeight, Orientation.userSize, Bool.false_eq_true,
      if_false, if_true] <;> omega

theorem toRaw_toUser (f : Frame) (x y : Int) : f.toRaw (f.toUser x y).1 (f.toUser x y).2 = (x, y) :=
  f.orientation.toRaw_toUser ..

theorem toUser_toRaw (f : Frame) (x y : Int) : f.toUser (f.toRaw x y).1 (f.toRaw x y).2 = (x, y) :=
  f.orientation.toUser_toRaw ..

theorem toRaw_of_identity (h : f.orientation = .identity) (x y : Int) : f.toRaw x y = (x, y) := by
  rw [toRaw, h]
  rfl

theorem size_of_identity (h : f.orientation = .identity) :
    f.userWidth = f.width ∧ f.userHeight = f.height := by
  rw [userWidth, userHeight, h]
  exact ⟨rfl, rfl⟩

theorem contains_of_identity (h : f.orientation = .identity) :
    f.Contains x y ↔ f.ContainsUser x y := by
  rw [← f.contains_toRaw, toRaw_of_identity h]

theorem toRaw_inj {x y x' y' : Int} : f.toRaw x y = f.toRaw x' y' ↔ x = x' ∧ y = y' :=
  f.orientation.toRaw_inj ..

/-- Distances on both axes are exchanged with the axes. -/
theorem natAbs_toRaw_sub (f : Frame) (x y x' y' : Int) :
    ((f.toRaw x y).1 - (f.toRaw x' y').1).natAbs =
        (if f.orientation.swapAxes then y - y' else x - x').natAbs ∧
      ((f.toRaw x y).2 - (f.toRaw x' y').2).natAbs =
        (if f.orientation.swapAxes then x - x' else y - y').natAbs := by
  simp only [toRaw, Orientation.toRaw, Orientation.natAbs_reflect_sub, Orientation.exchange]
  split <;> exact ⟨rfl, rfl⟩

theorem rawPoint_eq (f : Frame) (hx : x.natAbs ≤ 2 ^ 62) (hy : y.natAbs ≤ 2 ^ 62) :
    f.rawPoint x y = .ok (f.toRaw x y) :=
  f.orientation.rawPoint_eq _ _ hx hy

theorem natAbs_toInt_le (v : Int32) : v.toInt.natAbs ≤ 2 ^ 31 := by
  have h₁ := v.toInt_lt
  have h₂ := v.le_toInt
  omega

theorem rawPoint_point (f : Frame) (p : Point) :
    f.rawPoint p.x.toInt p.y.toInt = .ok (f.toRaw p.x.toInt p.y.toInt) := by
  have hx := natAbs_toInt_le p.x
  have hy := natAbs_toInt_le p.y
  exact f.rawPoint_eq (by omega) (by omega)

/-- Raw points of points of 32 bits need one bit more, and a sign. -/
theorem natAbs_toRaw_le (f : Frame) (p : Point) :
    (f.toRaw p.x.toInt p.y.toInt).1.natAbs ≤ 2 ^ 33 ∧
      (f.toRaw p.x.toInt p.y.toInt).2.natAbs ≤ 2 ^ 33 := by
  have hw := f.width.toNat_lt
  have hh := f.height.toNat_lt
  have hx := natAbs_toInt_le p.x
  have hy := natAbs_toInt_le p.y
  unfold toRaw Orientation.toRaw Orientation.reflect Orientation.exchange
  split_ifs <;> dsimp only <;> constructor <;> omega

/-! Single pixels. -/

section Addressable
variable (hf : f.Addressable b.size)
include hf

/-- A read answers the pixel of a point in the frame, and zero elsewhere. -/
theorem Addressable.user_read_eq (p : Point) : f.read p b =
    .ok (if f.ContainsUser p.x.toInt p.y.toInt then
      UInt32.ofNat (f.userPixel b p.x.toInt p.y.toInt) else 0) := by
  rw [read, rawPoint_point, ok_bind]
  show f.readClipped (f.toRaw p.x.toInt p.y.toInt).1 (f.toRaw p.x.toInt p.y.toInt).2 b = _
  by_cases hp : f.ContainsUser p.x.toInt p.y.toInt
  · have hc := (f.contains_toRaw _ _).2 hp
    rw [if_pos hp, readClipped, if_pos hc]
    exact hf.read_eq hc
  · rw [if_neg hp, readClipped, if_neg (fun hc => hp ((f.contains_toRaw _ _).1 hc))]

/-- A write paints its point, as far as it lies in the frame. -/
theorem Addressable.user_write_paints (p : Point) (v : Pixel) :
    Yields (f.write p v b)
      (f.Paints (fun x y => (x, y) = f.toRaw p.x.toInt p.y.toInt) (fun _ _ => f.stored v) b) := by
  rw [write, rawPoint_point, ok_bind]
  apply (hf.writeClipped_paints (f.toRaw p.x.toInt p.y.toInt).1 (f.toRaw p.x.toInt p.y.toInt).2
    v).mono
  intro c hpaint
  apply hpaint.area
  intro x y _
  rw [← Prod.mk.eta (p := f.toRaw _ _), Prod.mk.injEq]

end Addressable

/-- Both spaces have the raw coordinates of the frame. -/
theorem Addressable.seen {size : Nat} (hf : f.Addressable size) (s : Space) :
    (f.seen s).Addressable size := by
  cases s with
  | user => exact hf
  | raw => exact ⟨hf.toValid.seen .raw, hf.width_le, hf.height_le⟩

theorem Addressable.user_le {size : Nat} (hf : f.Addressable size) :
    f.userWidth.toNat ≤ 0x7fffffff ∧ f.userHeight.toNat ≤ 0x7fffffff := by
  have hw := hf.width_le
  have hh := hf.height_le
  unfold userWidth userHeight Orientation.userSize Orientation.exchange
  split_ifs
  · exact ⟨hh, hw⟩
  · exact ⟨hw, hh⟩

/-- User points of the frame have coordinates of 32 bits. -/
theorem Addressable.user_toInt_ofInt {size : Nat} (hf : f.Addressable size)
    (hxy : f.ContainsUser x y) :
    (Int32.ofInt x).toInt = x ∧ (Int32.ofInt y).toInt = y := by
  obtain ⟨hx, hy, hw, hh⟩ := hxy
  obtain ⟨hw', hh'⟩ := hf.user_le
  constructor
  · exact Int32.toInt_ofInt_of_le (by omega) (by omega)
  · exact Int32.toInt_ofInt_of_le (by omega) (by omega)

end Frame

/-- A well-formed pixmap whose raw coordinates are 32-bit integers. -/
def Pixmap.Addressable (p : Pixmap) : Prop := p.toFrame.Addressable p.bytes.size

namespace Pixmap.Addressable
variable {p d : Pixmap} {S : Int → Int → Prop} {g : Int → Int → Nat} {c : Bytes}

theorem get_eq (hp : p.Addressable) (point : Point) :
    p.get point = .ok (if p.ContainsUser point.x.toInt point.y.toInt then
      UInt32.ofNat (p.userPixel p.bytes point.x.toInt point.y.toInt) else 0) :=
  Frame.Addressable.user_read_eq hp point

/-- A point of the pixmap shows its pixel. -/
theorem get_ofInt (hp : p.Addressable) {x y : Int} (hxy : p.ContainsUser x y) :
    p.get ⟨.ofInt x, .ofInt y⟩ = .ok (UInt32.ofNat (p.userPixel p.bytes x y)) := by
  obtain ⟨hx, hy⟩ := Frame.Addressable.user_toInt_ofInt hp hxy
  rw [hp.get_eq]
  dsimp only
  rw [hx, hy, if_pos hxy]

section Paints
variable (hd : d.Addressable) (hp : d.Paints S g d.bytes c)
include hd hp

theorem of_paints : ({ d with bytes := c } : Pixmap).Addressable := by
  show d.toFrame.Addressable c.size
  rw [hp.keeps.size_eq]
  exact hd

/-- A painted pixel reads as it was painted. -/
theorem get_painted {t : Point} (ht : d.ContainsUser t.x.toInt t.y.toInt)
    (hS : S (d.toRaw t.x.toInt t.y.toInt).1 (d.toRaw t.x.toInt t.y.toInt).2) :
    ({ d with bytes := c } : Pixmap).get t = .ok (UInt32.ofNat
      (g (d.toRaw t.x.toInt t.y.toInt).1 (d.toRaw t.x.toInt t.y.toInt).2)) := by
  rw [(hd.of_paints hp).get_eq]
  show Except.ok (if d.ContainsUser _ _ then _ else _) = _
  rw [if_pos ht]
  show Except.ok (UInt32.ofNat (d.pixel c _ _)) = _
  rw [hp.inside _ _ ((d.contains_toRaw _ _).2 ht) hS]

/-- All other pixels read as before. -/
theorem get_unpainted {t : Point} (hS : d.ContainsUser t.x.toInt t.y.toInt →
      ¬ S (d.toRaw t.x.toInt t.y.toInt).1 (d.toRaw t.x.toInt t.y.toInt).2) :
    ({ d with bytes := c } : Pixmap).get t = d.get t := by
  rw [(hd.of_paints hp).get_eq, hd.get_eq]
  show Except.ok (if d.ContainsUser _ _ then UInt32.ofNat (d.pixel c _ _) else _) = _
  by_cases ht : d.ContainsUser t.x.toInt t.y.toInt
  · rw [hp.outside _ _ ((d.contains_toRaw _ _).2 ht) (hS ht)]
    rfl
  · rw [if_neg ht, if_neg ht]

end Paints

end Pixmap.Addressable

end Raster
