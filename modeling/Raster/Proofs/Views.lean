import Raster.Proofs.UserSpace

/- Views. The frame of a rectangle finds its pixels where the frame that it was taken from
   has them (`window_position`), although it starts at another bit, and the frame of a
   rectangle in a rectangle is the frame of one rectangle (`window_window`). A user
   rectangle has a raw rectangle of its own, mirrored as a whole, so that mirroring a
   point in the small size and moving it is moving it and mirroring it in the large one
   (`toRaw_region`). Together: a view shows and sets the pixels of its parent, and views
   of views are views (`Pixmap.view_shows`). -/
namespace Raster

/-- The point `q` seen from the point `p`. -/
def Point.shift (p q : Point) : Point := ⟨p.x + q.x, p.y + q.y⟩

theorem Int32.toInt_add_of_le {a b : Int32} (h₀ : -2 ^ 31 ≤ a.toInt + b.toInt)
    (h₁ : a.toInt + b.toInt < 2 ^ 31) : (a + b).toInt = a.toInt + b.toInt := by
  rw [Int32.toInt_add]
  exact Int.bmod_eq_of_le (by omega) (by omega)

namespace Orientation

/-- Where a run of `size` from `v` on starts when counted from the far end `last`, where `on` asks
for it. -/
def reflectRun (on : Bool) (last v size : Int) : Int := if on then last - v - size else v

/-- The raw origin and size of a user rectangle. -/
def toRawRect (o : Orientation) (w h : UInt32) (x y : Int) (rw rh : UInt32) :
    (Int × Int) × (UInt32 × UInt32) :=
  let p := o.exchange (x, y)
  let s := o.exchange (rw, rh)
  ((reflectRun o.mirrorX w.toNat p.1 s.1.toNat, reflectRun o.mirrorY h.toNat p.2 s.2.toNat), s)

theorem mirroredRun_eq (on : Bool) {last v size : Int} (hl : last.natAbs ≤ 2 ^ 33)
    (hv : v.natAbs ≤ 2 ^ 33) (hs : size.natAbs ≤ 2 ^ 33) :
    mirroredRun on last v size = .ok (reflectRun on last v size) := by
  cases on
  · rfl
  · have hfirst : Bounds.int64.check (last - v) = .ok (last - v) :=
      Bounds.check_of_holds (by simp only [Bounds.Holds, Bounds.int64]; omega)
    have hrun : Bounds.int64.check (last - v - size) = .ok (last - v - size) :=
      Bounds.check_of_holds (by simp only [Bounds.Holds, Bounds.int64]; omega)
    simp only [mirroredRun, reflectRun, if_true, hfirst, ok_bind, hrun]

theorem rawRect_eq (o : Orientation) (w h : UInt32) {x y : Int} (rw rh : UInt32)
    (hx : x.natAbs ≤ 2 ^ 33) (hy : y.natAbs ≤ 2 ^ 33) :
    o.rawRect w h x y rw rh = .ok (o.toRawRect w h x y rw rh) := by
  have hsize : ∀ n : UInt32, (n.toNat : Int).natAbs ≤ 2 ^ 33 := by
    intro n
    have hn := n.toNat_lt
    omega
  obtain ⟨swap, mx, my⟩ := o
  cases swap
  · simp only [rawRect, exchange, Bool.false_eq_true, if_false,
      mirroredRun_eq mx (hsize w) hx (hsize rw), mirroredRun_eq my (hsize h) hy (hsize rh)]
    rfl
  · simp only [rawRect, exchange, if_true,
      mirroredRun_eq mx (hsize w) hy (hsize rh), mirroredRun_eq my (hsize h) hx (hsize rw)]
    rfl

end Orientation

namespace Frame
variable {f : Frame} {b : Bytes}

/-! Raw rectangles. -/

/-- The frame of a raw rectangle. -/
def window (f : Frame) (x y : Nat) (w h : UInt32) : Frame :=
  { f with
    start := f.start + (y * f.stride + f.columnBit x / 8)
    width := w
    height := h
    offset := f.columnBit x % 8 }

section Window
variable (f : Frame) (x y x' y' : Nat) (w h w' h' : UInt32)

/-- Columns of the rectangle are columns of the frame, less the whole bytes before it. -/
theorem columnBit_window :
    (f.window x y w h).columnBit x' + 8 * (f.columnBit x / 8) = f.columnBit (x + x') := by
  show x' * f.bpp + f.columnBit x % 8 + 8 * (f.columnBit x / 8) = (x + x') * f.bpp + f.offset
  rw [Nat.add_mul]
  have hc : f.columnBit x = x * f.bpp + f.offset := rfl
  omega

theorem window_position :
    (f.window x y w h).position x' y' = f.position (x + x') (y + y') := by
  have hcol := columnBit_window f x y x' w h
  have hdiv : f.columnBit (x + x') / 8 =
      f.columnBit x / 8 + (f.window x y w h).columnBit x' / 8 := by omega
  have hmod : f.columnBit (x + x') % 8 = (f.window x y w h).columnBit x' % 8 := by omega
  have hlow : ∀ k, (f.window x y w h).lowBit k = f.lowBit k := fun _ => rfl
  have hstart : (f.window x y w h).start = f.start + (y * f.stride + f.columnBit x / 8) := rfl
  have hstride : (f.window x y w h).stride = f.stride := rfl
  simp only [position, place, hlow, hstart, hstride, hdiv, hmod, Nat.add_mul]
  omega

theorem window_window :
    (f.window x y w h).window x' y' w' h' = f.window (x + x') (y + y') w' h' := by
  have hcol := columnBit_window f x y x' w h
  have hstart : (f.window x y w h).start = f.start + (y * f.stride + f.columnBit x / 8) := rfl
  have hstride : (f.window x y w h).stride = f.stride := rfl
  have hs : (f.window x y w h).start +
      (y' * (f.window x y w h).stride + (f.window x y w h).columnBit x' / 8) =
        f.start + ((y + y') * f.stride + f.columnBit (x + x') / 8) := by
    rw [hstart, hstride, Nat.add_mul]
    omega
  have ho : (f.window x y w h).columnBit x' % 8 = f.columnBit (x + x') % 8 := by omega
  show ({ f.window x y w h with start := _, width := w', height := h', offset := _ } : Frame) = _
  rw [hs, ho]
  rfl

end Window

section Valid
variable {size x y : Nat} {w h : UInt32} (hf : f.Valid size)
include hf

/-- The byte that holds the start of a pixel lies in the buffer. -/
theorem Valid.byte_lt (hx : x < f.width.toNat) (hy : y < f.height.toNat) :
    f.start + (y * f.stride + f.columnBit x / 8) < size := by
  have hcol := (hf.place_lt hx).1
  have hrow := hf.row_le hx hy
  omega

theorem Valid.window (hx : x + w.toNat ≤ f.width.toNat) (hy : y + h.toNat ≤ f.height.toNat)
    (hw : 0 < w.toNat) (hh : 0 < h.toNat) : (f.window x y w h).Valid size := by
  have hbyte := hf.byte_lt (x := x) (y := y) (by omega) (by omega)
  have hrect := hf.rectangle hx hy
  rwa [Nat.min_eq_left (by omega)] at hrect

end Valid

/-! User rectangles. -/

/-- The user rectangle with origin `c` and size `w`, `h` lies in the frame. -/
def IncludesUser (f : Frame) (c : Point) (w h : UInt32) : Prop :=
  0 ≤ c.x.toInt ∧ 0 ≤ c.y.toInt ∧ c.x.toInt + w.toNat ≤ f.userWidth.toNat ∧
    c.y.toInt + h.toNat ≤ f.userHeight.toNat

instance (f : Frame) (c : Point) (w h : UInt32) : Decidable (f.IncludesUser c w h) :=
  inferInstanceAs (Decidable (_ ∧ _ ∧ _ ∧ _))

/-- The raw origin and size of a user rectangle. -/
def toRawRect (f : Frame) (c : Point) (w h : UInt32) : (Int × Int) × (UInt32 × UInt32) :=
  f.orientation.toRawRect f.width f.height c.x.toInt c.y.toInt w h

/-- The frame of a user rectangle. -/
def region (f : Frame) (c : Point) (w h : UInt32) : Frame :=
  let r := f.toRawRect c w h
  f.window r.1.1.toNat r.1.2.toNat r.2.1 r.2.2

section Region
variable (f : Frame) (c c' : Point) (w h w' h' : UInt32)

theorem includes_toRawRect :
    f.Includes (f.toRawRect c w h).1.1 (f.toRawRect c w h).1.2 (f.toRawRect c w h).2.1
      (f.toRawRect c w h).2.2 ↔ f.IncludesUser c w h := by
  obtain ⟨start, fw, fh, stride, offset, type, ⟨swap, mx, my⟩, gamma⟩ := f
  -- mirrored or not, a run lies in the same range
  cases swap <;> cases mx <;> cases my <;>
    simp only [Includes, IncludesUser, toRawRect, Orientation.toRawRect, Orientation.reflectRun,
      Orientation.exchange, userWidth, userHeight, Orientation.userSize, Bool.false_eq_true,
      if_false, if_true] <;> omega

theorem region_size : (f.region c w h).userWidth = w ∧ (f.region c w h).userHeight = h := by
  obtain ⟨start, fw, fh, stride, offset, type, ⟨swap, mx, my⟩, gamma⟩ := f
  cases swap <;> exact ⟨rfl, rfl⟩

/-- The raw point of a point of the rectangle, counted from the raw origin of the rectangle. -/
theorem toRaw_region (x y : Int) :
    f.toRaw (c.x.toInt + x) (c.y.toInt + y) =
      ((f.toRawRect c w h).1.1 + ((f.region c w h).toRaw x y).1,
        (f.toRawRect c w h).1.2 + ((f.region c w h).toRaw x y).2) := by
  obtain ⟨start, fw, fh, stride, offset, type, ⟨swap, mx, my⟩, gamma⟩ := f
  cases swap <;> cases mx <;> cases my <;>
    simp only [toRaw, toRawRect, region, window, Orientation.toRaw, Orientation.toRawRect,
      Orientation.reflect, Orientation.reflectRun, Orientation.exchange, Bool.false_eq_true,
      if_false, if_true, Prod.mk.injEq, true_and, and_true] <;> omega

theorem toRawRect_size_pos (hw : 0 < w.toNat) (hh : 0 < h.toNat) :
    0 < (f.toRawRect c w h).2.1.toNat ∧ 0 < (f.toRawRect c w h).2.2.toNat := by
  obtain ⟨start, fw, fh, stride, offset, type, ⟨swap, mx, my⟩, gamma⟩ := f
  cases swap
  · exact ⟨hw, hh⟩
  · exact ⟨hh, hw⟩

variable {c c'} in
/-- A rectangle in the rectangle has its raw origin that much further. -/
theorem toRawRect_region (hx : (c.shift c').x.toInt = c.x.toInt + c'.x.toInt)
    (hy : (c.shift c').y.toInt = c.y.toInt + c'.y.toInt) :
    f.toRawRect (c.shift c') w' h' =
      (((f.toRawRect c w h).1.1 + ((f.region c w h).toRawRect c' w' h').1.1,
        (f.toRawRect c w h).1.2 + ((f.region c w h).toRawRect c' w' h').1.2),
        ((f.region c w h).toRawRect c' w' h').2) := by
  obtain ⟨start, fw, fh, stride, offset, type, ⟨swap, mx, my⟩, gamma⟩ := f
  cases swap <;> cases mx <;> cases my <;>
    simp only [toRawRect, region, window, Orientation.toRawRect, Orientation.reflectRun,
      Orientation.exchange, hx, hy, Bool.false_eq_true, if_false, if_true, Prod.mk.injEq,
      true_and, and_true] <;> omega

end Region

section Addressable
variable {size : Nat} {c c' t : Point} {w h w' h' : UInt32}

/-- A view of a rectangle with pixels is the frame of the rectangle. -/
theorem Valid.sub_eq (hf : f.Valid size) (c : Point) (hw : 0 < w.toNat) (hh : 0 < h.toNat) :
    f.sub (size - f.start) c w h =
      if f.IncludesUser c w h then .ok (f.region c w h)
      else refuse (.outsideParent c.x c.y w h f.userWidth f.userHeight) := by
  have hx := natAbs_toInt_le c.x
  have hy := natAbs_toInt_le c.y
  have hraw : f.orientation.rawRect f.width f.height c.x.toInt c.y.toInt w h =
      .ok (f.toRawRect c w h) :=
    f.orientation.rawRect_eq f.width f.height w h (by omega) (by omega)
  have hin := f.includes_toRawRect c w h
  obtain ⟨hrw, hrh⟩ := f.toRawRect_size_pos c w h hw hh
  have hregion : f.region c w h = f.window (f.toRawRect c w h).1.1.toNat
      (f.toRawRect c w h).1.2.toNat (f.toRawRect c w h).2.1 (f.toRawRect c w h).2.2 := rfl
  rw [Frame.sub, hraw, hregion]
  generalize f.toRawRect c w h = r at *
  obtain ⟨⟨x, y⟩, rw, rh⟩ := r
  dsimp only at hin hrw hrh
  show (if f.Includes x y rw rh then _ else _) = _
  by_cases hinc : f.IncludesUser c w h
  · have hrect := hin.2 hinc
    rw [if_pos hrect, if_pos hinc]
    obtain ⟨h₀, h₁, h₂, h₃⟩ := hrect
    -- the first pixel of the rectangle lies in the buffer
    have hbyte := hf.byte_lt (x := x.toNat) (y := y.toNat) (by omega) (by omega)
    have hsized := hf.sized
    have hfit : f.byteOf x.toNat y.toNat = .ok (y.toNat * f.stride + f.columnBit x.toNat / 8) :=
      size64_of_le (by omega)
    rw [hfit]
    show Except.ok { f with start := _, width := _, height := _, offset := _ } = _
    rw [Nat.min_eq_left (by omega)]
    rfl
  · rw [if_neg (fun hrect => hinc (hin.1 hrect)), if_neg hinc]

theorem Addressable.toInt_shift (hf : f.Addressable size) (hin : f.IncludesUser c w h)
    (hx₀ : 0 ≤ t.x.toInt) (hx₁ : t.x.toInt ≤ w.toNat) (hy₀ : 0 ≤ t.y.toInt)
    (hy₁ : t.y.toInt ≤ h.toNat) :
    (c.shift t).x.toInt = c.x.toInt + t.x.toInt ∧ (c.shift t).y.toInt = c.y.toInt + t.y.toInt := by
  obtain ⟨h₀, h₁, h₂, h₃⟩ := hin
  obtain ⟨hw, hh⟩ := hf.user_le
  constructor
  · exact Int32.toInt_add_of_le (by omega) (by omega)
  · exact Int32.toInt_add_of_le (by omega) (by omega)

theorem Addressable.includes_shift (hf : f.Addressable size) (hin : f.IncludesUser c w h)
    (hin' : (f.region c w h).IncludesUser c' w' h') : f.IncludesUser (c.shift c') w' h' := by
  obtain ⟨hrw, hrh⟩ := f.region_size c w h
  obtain ⟨h₀, h₁, h₂, h₃⟩ := hin'
  rw [hrw] at h₂
  rw [hrh] at h₃
  obtain ⟨hx, hy⟩ := hf.toInt_shift hin h₀ (by omega) h₁ (by omega)
  obtain ⟨h₄, h₅, h₆, h₇⟩ := hin
  unfold IncludesUser
  rw [hx, hy]
  refine ⟨?_, ?_, ?_, ?_⟩ <;> omega

/-- A region of a region is a region. -/
theorem Addressable.region_region (hf : f.Addressable size) (hin : f.IncludesUser c w h)
    (hin' : (f.region c w h).IncludesUser c' w' h') :
    (f.region c w h).region c' w' h' = f.region (c.shift c') w' h' := by
  obtain ⟨hrw, hrh⟩ := f.region_size c w h
  have hrect := (f.includes_toRawRect c w h).2 hin
  have hrect' := ((f.region c w h).includes_toRawRect c' w' h').2 hin'
  obtain ⟨h₀, h₁, h₂, h₃⟩ := hin'
  rw [hrw] at h₂
  rw [hrh] at h₃
  obtain ⟨hx, hy⟩ := hf.toInt_shift hin h₀ (by omega) h₁ (by omega)
  obtain ⟨h₄, h₅, -, -⟩ := hrect
  obtain ⟨h₆, h₇, -, -⟩ := hrect'
  show ((f.region c w h).region c' w' h') = f.window _ _ _ _
  rw [f.toRawRect_region w h w' h' hx hy, Int.toNat_add h₄ h₆, Int.toNat_add h₅ h₇]
  exact f.window_window ..

theorem Addressable.region (hf : f.Addressable size) (hin : f.IncludesUser c w h)
    (hw : 0 < w.toNat) (hh : 0 < h.toNat) : (f.region c w h).Addressable size := by
  obtain ⟨h₀, h₁, h₂, h₃⟩ := (f.includes_toRawRect c w h).2 hin
  obtain ⟨hrw, hrh⟩ := f.toRawRect_size_pos c w h hw hh
  have hwidth := hf.width_le
  have hheight := hf.height_le
  refine ⟨hf.toValid.window (by omega) (by omega) hrw hrh, ?_, ?_⟩
  · show (f.toRawRect c w h).2.1.toNat ≤ _
    omega
  · show (f.toRawRect c w h).2.2.toNat ≤ _
    omega

/-- A point of the region is the point of the frame that lies that far from the corner. -/
theorem Addressable.contains_shift (hf : f.Addressable size) (hin : f.IncludesUser c w h)
    (ht : (f.region c w h).ContainsUser t.x.toInt t.y.toInt) :
    f.ContainsUser (c.shift t).x.toInt (c.shift t).y.toInt ∧
      (f.region c w h).position ((f.region c w h).toRaw t.x.toInt t.y.toInt).1.toNat
          ((f.region c w h).toRaw t.x.toInt t.y.toInt).2.toNat =
        f.position (f.toRaw (c.shift t).x.toInt (c.shift t).y.toInt).1.toNat
          (f.toRaw (c.shift t).x.toInt (c.shift t).y.toInt).2.toNat := by
  obtain ⟨hrw, hrh⟩ := f.region_size c w h
  obtain ⟨hcx, hcy, -, -⟩ := (f.includes_toRawRect c w h).2 hin
  obtain ⟨htx, hty, -, -⟩ := ((f.region c w h).contains_toRaw _ _).2 ht
  obtain ⟨h₀, h₁, h₂, h₃⟩ := ht
  rw [hrw] at h₂
  rw [hrh] at h₃
  obtain ⟨hx, hy⟩ := hf.toInt_shift hin h₀ (by omega) h₁ (by omega)
  obtain ⟨h₄, h₅, h₆, h₇⟩ := hin
  rw [hx, hy]
  refine ⟨⟨by omega, by omega, by omega, by omega⟩, ?_⟩
  rw [f.toRaw_region c w h, Int.toNat_add hcx htx, Int.toNat_add hcy hty]
  exact f.window_position ..

end Addressable

/-- A write to a point of the frame replaces the bits of its pixel. -/
theorem Addressable.write_eq (hf : f.Addressable b.size) {t : Point} (v : Pixel)
    (ht : f.ContainsUser t.x.toInt t.y.toInt) :
    f.write t v b = .ok (b.overwrite (f.position (f.toRaw t.x.toInt t.y.toInt).1.toNat
      (f.toRaw t.x.toInt t.y.toInt).2.toNat) f.bpp v.toNat) := by
  have hraw := (f.contains_toRaw _ _).2 ht
  obtain ⟨hx, hy⟩ := hf.toInt_ofInt hraw
  obtain ⟨hx', hy'⟩ := hraw.toNat_lt
  have hfit := (hf.position_bounds hx' hy').2
  rw [write, rawPoint_point, ok_bind]
  show f.writeClipped (f.toRaw t.x.toInt t.y.toInt).1 (f.toRaw t.x.toInt t.y.toInt).2 v b = _
  rw [writeClipped, if_pos hraw, writeRaw, hx, hy, if_pos hraw, hf.locate_eq hx' hy', ok_bind,
    Bytes.writeBits_eq hfit]

end Frame

namespace Pixmap
open Raster.Frame

/-- `q` shows the rectangle of `p` with corner `c` and size `w`, `h`, and is drawn on in its place. -/
structure Shows (p : Pixmap) (c : Point) (w h : UInt32) (q : Pixmap) : Prop where
  width_eq : q.userWidth = w
  height_eq : q.userHeight = h
  get_eq : ∀ t, q.ContainsUser t.x.toInt t.y.toInt → q.get t = p.get (c.shift t)
  write_eq : ∀ t v, q.ContainsUser t.x.toInt t.y.toInt → ∃ q',
    (q.draw .user fun f b => f.write t v b) = .ok q' ∧
      (p.draw .user fun f b => f.write (c.shift t) v b) = .ok (p.absorb q')
  /-- Views of the view are views of `p`. -/
  view_eq : ∀ c' w' h', 0 < w'.toNat → 0 < h'.toNat → q.IncludesUser c' w' h' → ∃ r,
    q.view c' w' h' = .ok r ∧ p.view (c.shift c') w' h' = .ok r

variable {p : Pixmap} {w h : UInt32}

theorem view_eq (hp : p.Addressable) (c : Point) (hw : 0 < w.toNat) (hh : 0 < h.toNat) :
    p.view c w h =
      if p.IncludesUser c w h then .ok { p with toFrame := p.region c w h }
      else refuse (.outsideParent c.x c.y w h p.userWidth p.userHeight) := by
  have hsub := Frame.Addressable.toValid hp |>.sub_eq c hw hh
  rw [Pixmap.view, Pixmap.size, hsub]
  by_cases hin : p.IncludesUser c w h
  · rw [if_pos hin, if_pos hin]
    rfl
  · rw [if_neg hin, if_neg hin]
    rfl

theorem shows_region (hp : p.Addressable) {c : Point} (hw : 0 < w.toNat) (hh : 0 < h.toNat)
    (hin : p.IncludesUser c w h) : p.Shows c w h { p with toFrame := p.region c w h } := by
  have hq : Pixmap.Addressable { p with toFrame := p.region c w h } :=
    Frame.Addressable.region hp hin hw hh
  obtain ⟨hrw, hrh⟩ := p.region_size c w h
  refine ⟨hrw, hrh, fun t ht => ?_, fun t v ht => ?_, fun c' w' h' hw' hh' hin' => ?_⟩
  · obtain ⟨hc, hpos⟩ := Frame.Addressable.contains_shift hp hin ht
    rw [hp.get_eq, hq.get_eq, if_pos hc, if_pos ht]
    show Except.ok (UInt32.ofNat (p.bytes.window _ p.bpp)) =
      .ok (UInt32.ofNat (p.bytes.window _ p.bpp))
    rw [hpos]
  · obtain ⟨hc, hpos⟩ := Frame.Addressable.contains_shift hp hin ht
    have hwrite := Frame.Addressable.write_eq hq v ht
    have hwrite' := Frame.Addressable.write_eq hp v hc
    rw [← hpos] at hwrite'
    exact ⟨_, draw_ok _ hwrite, draw_ok _ hwrite'⟩
  · have hcorner := Frame.Addressable.includes_shift hp hin hin'
    rw [view_eq hq c' hw' hh', view_eq hp (c.shift c') hw' hh', if_pos hcorner, if_pos hin']
    refine ⟨_, rfl, ?_⟩
    rw [Frame.Addressable.region_region hp hin hin']

/-- A view of a rectangle with pixels is taken just where the rectangle lies in the pixmap, and it
shows the rectangle. -/
theorem view_shows (hp : p.Addressable) (c : Point) (hw : 0 < w.toNat) (hh : 0 < h.toNat) :
    if 0 ≤ c.x.toInt ∧ 0 ≤ c.y.toInt ∧ c.x.toInt + w.toNat ≤ p.userWidth.toNat ∧
        c.y.toInt + h.toNat ≤ p.userHeight.toNat then
      ∃ q, p.view c w h = .ok q ∧ p.Shows c w h q
    else p.view c w h = refuse (.outsideParent c.x c.y w h p.userWidth p.userHeight) := by
  rw [view_eq hp c hw hh]
  show if p.IncludesUser c w h then _ else _
  by_cases hin : p.IncludesUser c w h
  · rw [if_pos hin, if_pos hin]
    exact ⟨_, rfl, shows_region hp hw hh hin⟩
  · rw [if_neg hin, if_neg hin]

/-- A view of a view of turned pixels of 18 bits starts inside a byte of the common buffer. -/
theorem view_shows_nested : ∃ p q r : Pixmap, p.Addressable ∧ p.view ⟨0, 1⟩ 3 4 = .ok q ∧
    p.Shows ⟨0, 1⟩ 3 4 q ∧ q.view ⟨1, 1⟩ 2 2 = .ok r ∧ p.view ⟨1, 2⟩ 2 2 = .ok r ∧
      (r.start, r.offset) = (14, 2) := by
  let p : Pixmap := ⟨⟨0, 5, 3, 12, 0, .rgb666, ⟨true, true, false⟩, none⟩, Array.replicate 36 0xa5⟩
  have hp : p.Addressable := by
    refine ⟨⟨?_, ?_, ?_, ?_, ?_, ?_, ?_⟩, ?_, ?_⟩ <;> decide
  have hv := view_shows hp ⟨0, 1⟩ (w := 3) (h := 4) (by decide) (by decide)
  rw [if_pos (by decide)] at hv
  obtain ⟨q, hq, hshows⟩ := hv
  have hin : q.IncludesUser ⟨1, 1⟩ 2 2 := by
    rw [IncludesUser, hshows.width_eq, hshows.height_eq]
    decide
  obtain ⟨r, hr, hr'⟩ := hshows.view_eq ⟨1, 1⟩ 2 2 (by decide) (by decide) hin
  have hr'' : p.view ⟨1, 2⟩ 2 2 = .ok r := hr'
  refine ⟨p, q, r, hp, hq, hshows, hr, hr'', ?_⟩
  rw [view_eq hp _ (by decide) (by decide), if_pos (by decide)] at hr''
  cases hr''
  decide

end Pixmap

end Raster
