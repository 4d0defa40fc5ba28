import Raster.Proofs.Colouring
import Raster.Proofs.LineTrace

/- Lines inside the pixmap. A line between two points of the pixmap is not clipped, so
   that it sets just the points that trace it (`Addressable.line_paints`). Which points
   these are does not depend on the orientation: mirrored lines follow mirrored points,
   and exchanged axes exchange the two cases of `Traces` (`traces_joining`). The points
   make a chain from end to end, without a gap along the longer axis and at most one
   pixel from step to step along the other (`Unbroken`). -/
namespace Raster

namespace Segment
variable {s : Segment} {x y x' y' : Int}

/-! Mirrored lines. -/

/-- The line with its columns counted from the far end, where `on` asks for it. -/
def mirrorX (on : Bool) (last : Int) (s : Segment) : Segment :=
  ⟨Orientation.reflect on last s.x0, s.y0, Orientation.reflect on last s.x1, s.y1⟩

/-- The line with its rows counted from the far end, where `on` asks for it. -/
def mirrorY (on : Bool) (last : Int) (s : Segment) : Segment :=
  ⟨s.x0, Orientation.reflect on last s.y0, s.x1, Orientation.reflect on last s.y1⟩

theorem turn_mirrorX (last : Int) (s : Segment) (x y : Int) :
    (s.mirrorX true last).turn (last - x) y = -s.turn x y := by
  simp only [turn, mirrorX, Orientation.reflect, if_true]
  ring

theorem turn_mirrorY (last : Int) (s : Segment) (x y : Int) :
    (s.mirrorY true last).turn x (last - y) = -s.turn x y := by
  simp only [turn, mirrorY, Orientation.reflect, if_true]
  ring

theorem follows_mirrorX (hx : s.x0 ≠ s.x1) (on : Bool) (last : Int) :
    (s.mirrorX on last).Follows (Orientation.reflect on last x) y ↔ s.Follows x y := by
  cases on with
  | false => exact Iff.rfl
  | true =>
    have hne : last - s.x0 ≠ last - s.x1 := by omega
    show (s.mirrorX true last).Follows (last - x) y ↔ _
    rw [follows_iff hx, follows_iff (s := s.mirrorX true last) hne, turn_mirrorX, turn_mirrorX,
      turn_mirrorX]
    simp only [mirrorX, Orientation.reflect, if_true, Int.natAbs_neg, Int.neg_mul_neg]
    rw [show last - s.x1 - (last - s.x0) = -(s.x1 - s.x0) by omega,
      show last - x - (last - s.x0) = -(x - s.x0) by omega,
      show last - x - (last - s.x1) = -(x - s.x1) by omega]
    simp only [Int.natAbs_neg]
    rw [← and_assoc, ← and_assoc (c := _ ∧ _)]
    refine and_congr_left (fun _ => ?_)
    omega

theorem follows_mirrorY (hx : s.x0 ≠ s.x1) (on : Bool) (last : Int) :
    (s.mirrorY on last).Follows x (Orientation.reflect on last y) ↔ s.Follows x y := by
  cases on with
  | false => exact Iff.rfl
  | true =>
    have hfirst : (s.mirrorY true last).turn x (s.mirrorY true last).y0 = -s.turn x s.y0 :=
      turn_mirrorY last s x s.y0
    have hsecond : (s.mirrorY true last).turn x (s.mirrorY true last).y1 = -s.turn x s.y1 :=
      turn_mirrorY last s x s.y1
    show (s.mirrorY true last).Follows x (last - y) ↔ _
    rw [follows_iff hx, follows_iff (s := s.mirrorY true last) hx, hfirst, hsecond, turn_mirrorY]
    simp only [mirrorY, Int.natAbs_neg, Int.neg_mul_neg]

theorem traces_mirrorX (hs : s.Proper) (on : Bool) (last : Int) :
    (s.mirrorX on last).Traces (Orientation.reflect on last x) y ↔ s.Traces x y := by
  have hlength := Orientation.natAbs_reflect_sub on last s.x1 s.x0
  have hwide : (s.mirrorX on last).Wide ↔ s.Wide := by rw [Wide, Wide, mirrorX, hlength]
  unfold Traces
  by_cases h : s.Wide
  · rw [if_pos h, if_pos (hwide.2 h)]
    exact follows_mirrorX (hs.columns_ne h) on last
  · rw [if_neg h, if_neg (fun h' => h (hwide.1 h'))]
    have hy := hs.transpose.columns_ne (s.wide_total.resolve_left h)
    exact follows_mirrorY (s := s.transpose) hy on last

theorem Proper.mirrorX (hs : s.Proper) (on : Bool) (last : Int) : (s.mirrorX on last).Proper := by
  intro h
  refine hs ⟨?_, h.2⟩
  have hx := congrArg (Orientation.reflect on last) h.1
  simpa only [Segment.mirrorX, Orientation.reflect_reflect] using hx

theorem traces_mirrorY (hs : s.Proper) (on : Bool) (last : Int) :
    (s.mirrorY on last).Traces x (Orientation.reflect on last y) ↔ s.Traces x y := by
  have hmirror := traces_transpose (x := Orientation.reflect on last y) (y := x)
    (hs.transpose.mirrorX on last)
  exact hmirror.trans ((traces_mirrorX hs.transpose on last).trans (traces_transpose hs))

/-! Chains of points. -/

/-- The points of `S` lead from one end of the line to the other column by column, at most one row up
or down at a time. -/
structure Chains (s : Segment) (S : Int → Int → Prop) : Prop where
  first : S s.x0 s.y0
  second : S s.x1 s.y1
  columns : ∀ x, min s.x0 s.x1 ≤ x → x ≤ max s.x0 s.x1 → ∃ y, S x y
  joined : ∀ x y x' y', S x y → S x' y' → (x' - x).natAbs ≤ 1 → (y' - y).natAbs ≤ 1

/-- The points of `S` lead from one end of the line to the other along its longer axis. -/
def Unbroken (s : Segment) (S : Int → Int → Prop) : Prop :=
  if s.Wide then s.Chains S else s.transpose.Chains fun y x => S x y

theorem chains_follows (hx : s.x0 ≠ s.x1) (hwide : s.Wide) : s.Chains s.Follows := by
  have hend : ∀ x y, s.turn x y = 0 → min s.x0 s.x1 ≤ x → x ≤ max s.x0 s.x1 → s.Follows x y := by
    intro x y hturn h₀ h₁
    exact (follows_of_multiple hx (hturn.trans (Int.mul_zero _).symm)).2 ⟨h₀, h₁, hturn⟩
  refine ⟨hend _ _ s.turn_first (by omega) (by omega),
    hend _ _ s.turn_second (by omega) (by omega), ?_, ?_⟩
  · exact fun x h₀ h₁ => exists_follows hx h₀ h₁
  · intro x y x' y' h h' hstep
    have hle := rows_le_columns hx hwide ((follows_iff hx).1 h).2.2.1 ((follows_iff hx).1 h').2.2.1
    omega

theorem unbroken_traces (hs : s.Proper) : s.Unbroken s.Traces := by
  unfold Unbroken Traces
  by_cases h : s.Wide
  · simp only [if_pos h]
    exact chains_follows (hs.columns_ne h) h
  · simp only [if_neg h]
    have htall := s.wide_total.resolve_left h
    exact chains_follows (hs.transpose.columns_ne htall) htall

/-! In user coordinates. -/

/-- The line between two points. -/
def between (p q : Point) : Segment := ⟨p.x.toInt, p.y.toInt, q.x.toInt, q.y.toInt⟩

theorem proper_between {p q : Point} (hne : p ≠ q) : (between p q).Proper :=
  fun h => hne (Point.ext_toInt h.1 h.2)

end Segment

namespace Frame
open Segment
variable {f : Frame} {b : Bytes} {p q : Point}

/-- Raw points trace the raw line where their user points trace the user line. -/
theorem traces_joining (f : Frame) (hne : p ≠ q) (x y : Int) :
    (f.joining p q).Traces (f.toRaw x y).1 (f.toRaw x y).2 ↔ (between p q).Traces x y := by
  have hs := proper_between hne
  have hmirror : ∀ {s : Segment} {x y : Int} (mx my : Bool) (w h : Int), s.Proper →
      (((s.mirrorX mx w).mirrorY my h).Traces (Orientation.reflect mx w x)
        (Orientation.reflect my h y) ↔ s.Traces x y) :=
    fun mx my w h hs => (traces_mirrorY (hs.mirrorX mx w) my h).trans (traces_mirrorX hs mx w)
  obtain ⟨start, w, h, stride, offset, type, ⟨swap, mx, my⟩, gamma⟩ := f
  cases swap with
  | false => exact hmirror mx my _ _ hs
  | true => exact (hmirror mx my _ _ hs.transpose).trans (traces_transpose hs)

/-- A line between two points of the frame is not clipped. -/
theorem Addressable.line_paints (hf : f.Addressable b.size) (hp : f.ContainsUser p.x.toInt p.y.toInt)
    (hq : f.ContainsUser q.x.toInt q.y.toInt) (hne : p ≠ q) (v : Pixel) :
    Yields (f.line p q v b) (f.Paints (f.joining p q).Traces (fun _ _ => f.stored v) b) := by
  have hin : (f.joining p q).Within f.width.toNat f.height.toNat := by
    obtain ⟨h₀, h₁, h₂, h₃⟩ := (f.contains_toRaw _ _).2 hp
    obtain ⟨h₄, h₅, h₆, h₇⟩ := (f.contains_toRaw _ _).2 hq
    exact ⟨inside_iff.2 ⟨h₀, h₂, h₁, h₃⟩, inside_iff.2 ⟨h₄, h₆, h₅, h₇⟩⟩
  have hproper : (f.joining p q).Proper := by
    intro h
    exact proper_between hne (f.toRaw_inj.1 (Prod.ext h.1 h.2))
  have hclip : (f.joining p q).clip f.width.toNat f.height.toNat = .ok (some (f.joining p q)) := by
    have hsize := inside_iff.1 hin.1
    rw [clip, if_neg (by omega)]
    exact trim_inside hin.1 hin.2 15
  rw [line, rawSegment_eq, ok_bind, segment, hclip]
  apply (hf.paintSegment_paints hin v).mono
  intro c hc
  exact hc.area (fun x y _ => covers_iff hproper)

end Frame

namespace Pixmap

/-- A line between two points of the pixmap sets in every orientation just the points nearest to it
along its longer axis, and the pixels set are a chain from one end to the other. -/
theorem line_traces {d : Pixmap} (hd : d.Addressable) (s : Space) {p q : Point}
    (hp : d.Holds s p.x.toInt p.y.toInt) (hq : d.Holds s q.x.toInt q.y.toInt) (hne : p ≠ q)
    (v : Pixel) :
    Yields (d.draw s fun f b => f.line p q v b)
        (d.Colours s (Segment.between p q).Traces v) ∧
      (Segment.between p q).Unbroken
        (fun x y => d.Holds s x y ∧ (Segment.between p q).Traces x y) := by
  have hf : (d.toFrame.seen s).Addressable d.bytes.size := Frame.Addressable.seen hd s
  refine ⟨hd.draw_colours (hf.line_paints hp hq hne v) (fun x y _ => ?_), ?_⟩
  · exact (d.toFrame.seen s).traces_joining hne x y
  · have hproper := Segment.proper_between hne
    have hin : ∀ x y, (Segment.between p q).Traces x y → d.Holds s x y := by
      intro x y h
      obtain ⟨⟨h₀, h₁⟩, h₂, h₃⟩ := h.between hproper
      obtain ⟨h₄, h₅, h₆, h₇⟩ := hp
      obtain ⟨h₈, h₉, h₁₀, h₁₁⟩ := hq
      simp only [Segment.between] at h₀ h₁ h₂ h₃
      exact ⟨by omega, by omega, by omega, by omega⟩
    have hset : (fun x y => d.Holds s x y ∧ (Segment.between p q).Traces x y) =
        (Segment.between p q).Traces := by
      funext x y
      exact propext (and_iff_right_of_imp (hin x y))
    rw [hset]
    exact Segment.unbroken_traces hproper

/-- A line of three columns on 2 by 4 pixels that are turned by a quarter: both rows of the middle
column are equally near. -/
theorem line_traces_turned : ∃ d e : Pixmap, d.Addressable ∧
    (d.draw .user fun f b => f.line ⟨0, 0⟩ ⟨2, 1⟩ 1 b) = .ok e ∧ e.get ⟨1, 0⟩ = .ok 1 ∧
      e.get ⟨1, 1⟩ = .ok 1 ∧ e.get ⟨0, 1⟩ = .ok 0 := by
  let d : Pixmap := ⟨⟨0, 2, 4, 2, 0, .g8, .rotated .identity .quarterTurn, none⟩, Array.replicate 8 0⟩
  have hd : d.Addressable := by
    refine ⟨⟨?_, ?_, ?_, ?_, ?_, ?_, ?_⟩, ?_, ?_⟩ <;> decide
  obtain ⟨⟨e, he, hcolours⟩, -⟩ := line_traces hd .user (p := ⟨0, 0⟩) (q := ⟨2, 1⟩) (by decide)
    (by decide) (by decide) 1
  refine ⟨d, e, hd, he, ?_, ?_, ?_⟩
  · exact hcolours.get_in ⟨1, 0⟩ (by decide) (by decide +kernel)
  · exact hcolours.get_in ⟨1, 1⟩ (by decide) (by decide +kernel)
  · refine (hcolours.get_out ⟨0, 1⟩ (by decide +kernel)).trans ?_
    decide

end Pixmap

end Raster
