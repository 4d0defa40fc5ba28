import Mathlib.Tactic.SplitIfs
import Raster.Proofs.Colouring
import Raster.Proofs.Drawing
import Raster.Proofs.Inks

/- Runs and rectangles. A run is a box of one row or one column, so all of them are given by
   two corners: `InBox` is what lies between, `OnBorder` the border of it. A box in user
   coordinates is a box in the buffer, whatever the orientation (`inBox_toRaw`), and its
   corners may lie far outside as they are never wrapped around. So every such drawing sets
   just the points of its description `Drawing.box?` (`straight_colours`). -/
namespace Raster

/-- The point lies in the box between two corners, both included, that stand in any order. -/
def InBox (p q : Int × Int) (x y : Int) : Prop :=
  min p.1 q.1 ≤ x ∧ x ≤ max p.1 q.1 ∧ min p.2 q.2 ≤ y ∧ y ≤ max p.2 q.2

instance (p q : Int × Int) (x y : Int) : Decidable (InBox p q x y) :=
  inferInstanceAs (Decidable (_ ∧ _ ∧ _ ∧ _))

/-- The point lies on a side of the box. -/
def OnBorder (p q : Int × Int) (x y : Int) : Prop :=
  InBox p q x y ∧ (x = p.1 ∨ x = q.1 ∨ y = p.2 ∨ y = q.2)

instance (p q : Int × Int) (x y : Int) : Decidable (OnBorder p q x y) :=
  inferInstanceAs (Decidable (_ ∧ _))

/-- What a run or a rectangle covers; other drawings have no such description. A size of zero leaves
nothing. -/
def Drawing.box? : Drawing → Option (Int → Int → Prop)
  | hline x0 x1 y => some (InBox (x0.toInt, y.toInt) (x1.toInt, y.toInt))
  | hlineOf x y w => some fun x' y' =>
      w ≠ 0 ∧ InBox (x.toInt, y.toInt) (x.toInt + w.toNat - 1, y.toInt) x' y'
  | vline x y0 y1 => some (InBox (x.toInt, y0.toInt) (x.toInt, y1.toInt))
  | vlineOf x y h => some fun x' y' =>
      h ≠ 0 ∧ InBox (x.toInt, y.toInt) (x.toInt, y.toInt + h.toNat - 1) x' y'
  | rect p q => some (OnBorder (p.x.toInt, p.y.toInt) (q.x.toInt, q.y.toInt))
  | rectOf p w h => some fun x y => w ≠ 0 ∧ h ≠ 0 ∧
      OnBorder (p.x.toInt, p.y.toInt) (p.x.toInt + w.toNat - 1, p.y.toInt + h.toNat - 1) x y
  | fillRect p q => some (InBox (p.x.toInt, p.y.toInt) (q.x.toInt, q.y.toInt))
  | fillRectOf p w h => some fun x y => w ≠ 0 ∧ h ≠ 0 ∧
      InBox (p.x.toInt, p.y.toInt) (p.x.toInt + w.toNat - 1, p.y.toInt + h.toNat - 1) x y
  | _ => none

namespace Frame
variable {f : Frame} {b : Bytes}

/-! Boxes under an orientation. -/

theorem inBox_toRaw (f : Frame) (x0 y0 x1 y1 x y : Int) :
    InBox (f.toRaw x0 y0) (f.toRaw x1 y1) (f.toRaw x y).1 (f.toRaw x y).2 ↔
      InBox (x0, y0) (x1, y1) x y := by
  unfold toRaw
  obtain ⟨swap, mx, my⟩ := f.orientation
  cases swap <;> cases mx <;> cases my <;>
    simp only [InBox, Orientation.toRaw, Orientation.reflect, Orientation.exchange,
      Bool.false_eq_true, if_false, if_true] <;> omega

theorem onBorder_toRaw (f : Frame) (x0 y0 x1 y1 x y : Int) :
    OnBorder (f.toRaw x0 y0) (f.toRaw x1 y1) (f.toRaw x y).1 (f.toRaw x y).2 ↔
      OnBorder (x0, y0) (x1, y1) x y := by
  unfold OnBorder
  refine and_congr (f.inBox_toRaw ..) ?_
  unfold toRaw
  obtain ⟨swap, mx, my⟩ := f.orientation
  cases swap <;> cases mx <;> cases my <;>
    simp only [Orientation.toRaw, Orientation.reflect, Orientation.exchange,
      Bool.false_eq_true, if_false, if_true] <;> omega

section Addressable
variable (hf : f.Addressable b.size) (v : Pixel)
include hf

/-! Between raw corners. -/

theorem Addressable.spanRow_paints_box {p q : Int × Int} (hrow : q.2 = p.2) :
    Yields (f.spanRow p.1 q.1 p.2 v b) (f.Paints (InBox p q) (fun _ _ => f.stored v) b) := by
  refine (hf.spanRow_paints p.1 q.1 p.2 v).mono (fun c hc => hc.area (fun x y _ => ?_))
  simp only [InBox]
  omega

theorem Addressable.spanColumn_paints_box {p q : Int × Int} (hcolumn : q.1 = p.1) :
    Yields (f.spanColumn p.1 p.2 q.2 v b) (f.Paints (InBox p q) (fun _ _ => f.stored v) b) := by
  refine (hf.spanColumn_paints p.1 p.2 q.2 v).mono (fun c hc => hc.area (fun x y _ => ?_))
  simp only [InBox]
  omega

/-- The rows of a box are those of them in the frame. -/
theorem Addressable.box_paints (x0 y0 x1 y1 : Int) :
    Yields (f.box x0 y0 x1 y1 v b)
      (f.Paints (InBox (x0, y0) (x1, y1)) (fun _ _ => f.stored v) b) := by
  unfold box
  refine (Paints.forRange (fun y => InBox (x0, y) (x1, y)) (fun y c _ _ hc => ?_)).mono
    (fun c hc => hc.area (fun x' y' hin => ?_))
  · exact (hc ▸ hf : f.Addressable c.size).spanRow_paints_box v (p := (x0, y)) (q := (x1, y)) rfl
  · obtain ⟨-, htop, -, hbottom⟩ := hin
    simp only [InBox]
    constructor
    · rintro ⟨y, hlo, hhi, hrow⟩
      omega
    · intro h
      exact ⟨y', by omega, by omega, by omega⟩

theorem Addressable.border_paints (x0 y0 x1 y1 : Int) :
    Yields (f.border x0 y0 x1 y1 v b)
      (f.Paints (OnBorder (x0, y0) (x1, y1)) (fun _ _ => f.stored v) b) := by
  unfold border
  refine Yields.bind (hf.spanRow_paints_box v (p := (x0, y0)) (q := (x1, y0)) rfl) (fun b₁ h₁ => ?_)
  have hf₁ : f.Addressable b₁.size := h₁.keeps.size_eq ▸ hf
  refine Yields.bind (hf₁.spanRow_paints_box v (p := (x0, y1)) (q := (x1, y1)) rfl) (fun b₂ h₂ => ?_)
  have hf₂ : f.Addressable b₂.size := h₂.keeps.size_eq ▸ hf₁
  refine Yields.bind (hf₂.spanColumn_paints_box v (p := (x0, y0)) (q := (x0, y1)) rfl) (fun b₃ h₃ => ?_)
  have hf₃ : f.Addressable b₃.size := h₃.keeps.size_eq ▸ hf₂
  refine (hf₃.spanColumn_paints_box v (p := (x1, y0)) (q := (x1, y1)) rfl).mono (fun b₄ h₄ => ?_)
  refine (((h₁.trans h₂).trans h₃).trans h₄).area (fun x' y' _ => ?_)
  simp only [InBox, OnBorder]
  omega

/-! From user coordinates. -/

section User
variable {x0 y0 x1 y1 : Int} (hx0 : x0.natAbs ≤ 2 ^ 62) (hy0 : y0.natAbs ≤ 2 ^ 62)
  (hx1 : x1.natAbs ≤ 2 ^ 62) (hy1 : y1.natAbs ≤ 2 ^ 62)

include hx0 hy0 hx1 in
/-- A row of the user is a row or a column of the buffer. -/
theorem Addressable.userRow_paints :
    Yields (f.userRow x0 x1 y0 v b)
      (f.Paints (InBox (f.toRaw x0 y0) (f.toRaw x1 y0)) (fun _ _ => f.stored v) b) := by
  rw [userRow, f.rawPoint_eq hx0 hy0, ok_bind, f.rawPoint_eq hx1 hy0, ok_bind]
  split_ifs with hswap
  · apply hf.spanColumn_paints_box v
    simp only [toRaw, Orientation.toRaw, Orientation.exchange, if_pos hswap]
  · apply hf.spanRow_paints_box v
    simp only [toRaw, Orientation.toRaw, Orientation.exchange, if_neg hswap]

include hx0 hy0 hy1 in
theorem Addressable.userColumn_paints :
    Yields (f.userColumn x0 y0 y1 v b)
      (f.Paints (InBox (f.toRaw x0 y0) (f.toRaw x0 y1)) (fun _ _ => f.stored v) b) := by
  rw [userColumn, f.rawPoint_eq hx0 hy0, ok_bind, f.rawPoint_eq hx0 hy1, ok_bind]
  split_ifs with hswap
  · apply hf.spanRow_paints_box v
    simp only [toRaw, Orientation.toRaw, Orientation.exchange, if_pos hswap]
  · apply hf.spanColumn_paints_box v
    simp only [toRaw, Orientation.toRaw, Orientation.exchange, if_neg hswap]

omit hf in
include hx0 hy0 hx1 hy1 in
/-- What paints an area given by raw corners paints it from the raw corners of user corners. -/
theorem byCorners_paints {paint : Int → Int → Int → Int → Pixel → Bytes → Except Fault Bytes}
    {A : Int × Int → Int × Int → Int → Int → Prop}
    (hpaint : ∀ x0 y0 x1 y1, Yields (paint x0 y0 x1 y1 v b)
      (f.Paints (A (x0, y0) (x1, y1)) (fun _ _ => f.stored v) b)) :
    Yields (f.byCorners paint x0 y0 x1 y1 v b)
      (f.Paints (A (f.toRaw x0 y0) (f.toRaw x1 y1)) (fun _ _ => f.stored v) b) := by
  simp only [byCorners, f.rawPoint_eq hx0 hy0, f.rawPoint_eq hx1 hy1, ok_bind]
  exact hpaint ..

end User
end Addressable

end Frame

namespace Pixmap
variable {p : Pixmap}

/-- An area of the raw corners that looks the same in user coordinates is coloured by user corners. -/
theorem Addressable.byCorners_colours (hp : p.Addressable) (s : Space) (v : Pixel)
    {paint : Frame → Int → Int → Int → Int → Pixel → Bytes → Except Fault Bytes}
    {A : Int × Int → Int × Int → Int → Int → Prop}
    (hpaint : ∀ {f : Frame} {b : Bytes}, f.Addressable b.size → ∀ x0 y0 x1 y1,
      Yields (paint f x0 y0 x1 y1 v b) (f.Paints (A (x0, y0) (x1, y1)) (fun _ _ => f.stored v) b))
    (hA : ∀ (f : Frame) x0 y0 x1 y1 x y,
      A (f.toRaw x0 y0) (f.toRaw x1 y1) (f.toRaw x y).1 (f.toRaw x y).2 ↔ A (x0, y0) (x1, y1) x y)
    {x0 y0 x1 y1 : Int} (hx0 : x0.natAbs ≤ 2 ^ 62) (hy0 : y0.natAbs ≤ 2 ^ 62)
    (hx1 : x1.natAbs ≤ 2 ^ 62) (hy1 : y1.natAbs ≤ 2 ^ 62) :
    Yields (p.draw s fun f b => f.byCorners (paint f) x0 y0 x1 y1 v b)
      (p.Colours s (A (x0, y0) (x1, y1)) v) := by
  have hf : (p.toFrame.seen s).Addressable p.bytes.size := Frame.Addressable.seen hp s
  exact hp.draw_colours (Frame.byCorners_paints v hx0 hy0 hx1 hy1 (hpaint hf)) (fun x y _ => hA ..)

/-- Nothing is drawn for a size of zero. -/
theorem Addressable.colours_unless (hp : p.Addressable) (s : Space) (v : Pixel) {c : Prop} [Decidable c]
    {paint : Frame → Bytes → Except Fault Bytes} {S : Int → Int → Prop}
    (h : Yields (p.draw s paint) (p.Colours s S v)) :
    Yields (p.draw s fun f b => if c then .ok b else paint f b)
      (p.Colours s (fun x y => ¬ c ∧ S x y) v) := by
  by_cases hc : c
  · simp only [if_pos hc]
    refine hp.draw_colours (S := fun _ _ => False) (Yields.ok (Frame.Paints.none (fun _ _ _ => id)))
      (fun x y _ => ?_)
    simp only [hc, not_true_eq_false, false_and]
  · simp only [if_neg hc]
    simpa only [hc, not_false_eq_true, true_and] using h

section Runs
variable (hp : p.Addressable) (s : Space) (v : Pixel) {x0 y0 x1 y1 : Int} (hx0 : x0.natAbs ≤ 2 ^ 62)
  (hy0 : y0.natAbs ≤ 2 ^ 62) (hx1 : x1.natAbs ≤ 2 ^ 62) (hy1 : y1.natAbs ≤ 2 ^ 62)
include hp

include hx0 hy0 hx1 in
theorem Addressable.userRow_colours : Yields (p.draw s fun f b => f.userRow x0 x1 y0 v b)
    (p.Colours s (InBox (x0, y0) (x1, y0)) v) := by
  have hf : (p.toFrame.seen s).Addressable p.bytes.size := Frame.Addressable.seen hp s
  exact hp.draw_colours (hf.userRow_paints v hx0 hy0 hx1) (fun x y _ => Frame.inBox_toRaw ..)

include hx0 hy0 hy1 in
theorem Addressable.userColumn_colours : Yields (p.draw s fun f b => f.userColumn x0 y0 y1 v b)
    (p.Colours s (InBox (x0, y0) (x0, y1)) v) := by
  have hf : (p.toFrame.seen s).Addressable p.bytes.size := Frame.Addressable.seen hp s
  exact hp.draw_colours (hf.userColumn_paints v hx0 hy0 hy1) (fun x y _ => Frame.inBox_toRaw ..)

include hx0 hy0 hx1 hy1 in
theorem Addressable.border_colours :
    Yields (p.draw s fun f b => f.byCorners f.border x0 y0 x1 y1 v b)
      (p.Colours s (OnBorder (x0, y0) (x1, y1)) v) :=
  hp.byCorners_colours s v (fun hf => hf.border_paints v) Frame.onBorder_toRaw hx0 hy0 hx1 hy1

include hx0 hy0 hx1 hy1 in
theorem Addressable.box_colours :
    Yields (p.draw s fun f b => f.byCorners f.box x0 y0 x1 y1 v b)
      (p.Colours s (InBox (x0, y0) (x1, y1)) v) :=
  hp.byCorners_colours s v (fun hf => hf.box_paints v) Frame.inBox_toRaw hx0 hy0 hx1 hy1

end Runs

/-- In every orientation a run or a rectangle sets just the points it covers. -/
theorem straight_colours (hp : p.Addressable) (s : Space) (v : Pixel) {d : Drawing}
    {S : Int → Int → Prop} (hd : d.box? = some S) :
    Yields (p.draw s (d.paint v)) (p.Colours s S v) := by
  -- coordinates of 32 bits, and such with a size added, are far from the bounds of 64 bits
  have hnear : ∀ n : Int32, n.toInt.natAbs ≤ 2 ^ 62 := fun n => (Frame.natAbs_add_le n 0).1
  have hfar : ∀ (n : Int32) (w : UInt32), (n.toInt + w.toNat - 1).natAbs ≤ 2 ^ 62 :=
    fun n w => (Frame.natAbs_add_le n w).2
  cases d with
  | hline x0 x1 y =>
    cases hd
    exact hp.userRow_colours s v (hnear x0) (hnear y) (hnear x1)
  | hlineOf x y w =>
    cases hd
    exact hp.colours_unless s v (hp.userRow_colours s v (hnear x) (hnear y) (hfar x w))
  | vline x y0 y1 =>
    cases hd
    exact hp.userColumn_colours s v (hnear x) (hnear y0) (hnear y1)
  | vlineOf x y h =>
    cases hd
    exact hp.colours_unless s v (hp.userColumn_colours s v (hnear x) (hnear y) (hfar y h))
  | rect q r =>
    cases hd
    exact hp.border_colours s v (hnear q.x) (hnear q.y) (hnear r.x) (hnear r.y)
  | rectOf q w h =>
    cases hd
    have hsize := hp.colours_unless s v (c := w = 0 ∨ h = 0)
      (hp.border_colours s v (hnear q.x) (hnear q.y) (hfar q.x w) (hfar q.y h))
    simp only [not_or, and_assoc] at hsize
    exact hsize
  | fillRect q r =>
    cases hd
    exact hp.box_colours s v (hnear q.x) (hnear q.y) (hnear r.x) (hnear r.y)
  | fillRectOf q w h =>
    cases hd
    have hsize := hp.colours_unless s v (c := w = 0 ∨ h = 0)
      (hp.box_colours s v (hnear q.x) (hnear q.y) (hfar q.x w) (hfar q.y h))
    simp only [not_or, and_assoc] at hsize
    exact hsize
  | _ => cases hd

/-- Pixels of two bits that begin inside a byte, on a pixmap turned by a quarter: between corners at both
ends of the coordinates, given from right to left, only the points in the pixmap are set. -/
theorem straight_colours_far : ∃ p q : Pixmap, p.Addressable ∧
    (p.draw .user fun f b => f.fillRect ⟨0x7fffffff, 1⟩ ⟨1, -0x80000000⟩ 5 b) = .ok q ∧
      q.get ⟨1, 1⟩ = .ok 1 ∧ q.get ⟨2, 0⟩ = .ok 1 ∧ q.get ⟨0, 0⟩ = .ok 3 ∧ q.get ⟨1, 2⟩ = .ok 3 := by
  let p : Pixmap := ⟨⟨1, 4, 3, 3, 6, .p2, .rotated .identity .quarterTurn, none⟩, Array.replicate 9 255⟩
  have hp : p.Addressable := by
    refine ⟨⟨?_, ?_, ?_, ?_, ?_, ?_, ?_⟩, ?_, ?_⟩ <;> decide
  obtain ⟨q, hq, hcolours⟩ := straight_colours hp .user 5
    (d := .fillRect ⟨0x7fffffff, 1⟩ ⟨1, -0x80000000⟩) rfl
  refine ⟨p, q, hp, hq, ?_, ?_, ?_, ?_⟩
  · exact (hcolours.get_in ⟨1, 1⟩ (by decide) (by decide)).trans (by decide)
  · exact (hcolours.get_in ⟨2, 0⟩ (by decide) (by decide)).trans (by decide)
  · exact (hcolours.get_out ⟨0, 0⟩ (by decide)).trans (by decide)
  · exact (hcolours.get_out ⟨1, 2⟩ (by decide)).trans (by decide)

end Pixmap

end Raster
