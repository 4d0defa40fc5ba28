import Raster.Proofs.BlitClip

/- Where a clipped copy ends. Over a destination with pixels it always answers. For one
   without pixels clipping may leave a rectangle of no columns or rows, which starts
   before the first column or row. The loops pixel by pixel go over it without a write
   (`blitUser_of_empty`), but rows of bytes are counted by the distance of their first and
   last one, taken as a number of 64 bits, so that no rows become `2 ^ 64`. `Overruns` says
   when a copy is left such rows; just then it ends in a fault (`blitClipped_contained`). -/
namespace Raster

/-! What clipping leaves. -/

namespace BlitRect
variable {r t : BlitRect} {sw sh dw dh : UInt32}

theorem of_clip (h : r.clip sw sh dw dh = some t) :
    (r.xAxis.Left sw.toNat dw.toNat ∧ r.yAxis.Left sh.toNat dh.toNat) ∧ r.part sw sh dw dh = t := by
  rw [clip_eq] at h
  split_ifs at h with hleft
  exact ⟨hleft, Option.some.inj h⟩

theorem clip_of_left
    (h : r.xAxis.Left sw.toNat dw.toNat ∧ r.yAxis.Left sh.toNat dh.toNat) :
    r.clip sw sh dw dh = some (r.part sw sh dw dh) := by
  rw [clip_eq, if_pos h]

/-- It starts in the source. -/
theorem clip_start (h : r.clip sw sh dw dh = some t) :
    (0 ≤ t.x0 ∧ t.x0 < sw.toNat) ∧ 0 ≤ t.y0 ∧ t.y0 < sh.toNat ∧ 0 ≤ t.y2 := by
  obtain ⟨⟨hx, hy⟩, rfl⟩ := of_clip h
  obtain ⟨hx₀, -⟩ := r.xAxis.start_nonneg
  obtain ⟨hy₀, hy₂⟩ := r.yAxis.start_nonneg
  have hx₁ := hx.2
  have hy₁ := hy.2
  simp only [part]
  omega

/-- No columns of a destination without any, before its first one. -/
theorem clip_no_columns (h : r.clip sw sh dw dh = some t) (hw : dw.toNat = 0) :
    t.x1 = t.x0 - 1 ∧ t.x2 = 0 := by
  obtain ⟨⟨hx, -⟩, rfl⟩ := of_clip h
  rw [hw] at hx
  obtain ⟨hn, htarget⟩ := hx.of_zero
  simp only [part, hw, htarget, and_true]
  omega

/-- No rows of a destination without any. -/
theorem clip_no_rows (h : r.clip sw sh dw dh = some t) (hh : dh.toNat = 0) : t.y1 = t.y0 - 1 := by
  obtain ⟨⟨-, hy⟩, rfl⟩ := of_clip h
  rw [hh] at hy
  obtain ⟨hm, -⟩ := hy.of_zero
  simp only [part, hh]
  omega

/-- At least one row of a destination with rows. -/
theorem clip_rows (h : r.clip sw sh dw dh = some t) (hh : 0 < dh.toNat) :
    t.y0 ≤ t.y1 ∧ t.y1 < sh.toNat := by
  obtain ⟨⟨-, hy⟩, rfl⟩ := of_clip h
  have hm := (r.yAxis.left_iff sh.toNat dh.toNat hh).1 hy
  obtain ⟨hm₀, -⟩ := r.yAxis.count_le sh.toNat dh.toNat
  simp only [part]
  omega

/-- The last row goes to the last one that counts. -/
theorem clip_last_row (h : r.clip sw sh dw dh = some t) :
    t.y2 + (t.y1 - t.y0) = r.yAxis.target + (r.yAxis.count sh.toNat dh.toNat - 1) := by
  obtain ⟨-, rfl⟩ := of_clip h
  simp only [part]
  omega

end BlitRect

namespace Frame
variable {f : Frame} {b : Bytes} {src : Pixmap} {r t : BlitRect}

/-- Rectangles of `src` are copied to `f` by rows of bytes. -/
def ByRows (f : Frame) (src : Pixmap) : Prop :=
  (src.orientation = .identity ∧ f.orientation = .identity) ∧
    src.pixelType = f.pixelType ∧ src.isAligned = true ∧ f.isAligned = true

/-- The copied part starts in the source, and its rows are copied to where the destination has none:
it has no rows, or no columns and ends, in `size` bytes, before the last row to copy starts. -/
def Overruns (f : Frame) (src : Pixmap) (r : BlitRect) (size : Nat) : Prop :=
  f.ByRows src ∧
    (r.xAxis.Left src.userWidth.toNat f.userWidth.toNat ∧
      r.yAxis.Left src.userHeight.toNat f.userHeight.toNat) ∧
    (f.height = 0 ∨ f.width = 0 ∧
      size < f.start + (r.yAxis.target +
        (r.yAxis.count src.userHeight.toNat f.userHeight.toNat - 1)).toNat * f.stride)

instance (f : Frame) (src : Pixmap) : Decidable (f.ByRows src) := by
  unfold ByRows; infer_instance

instance (f : Frame) (src : Pixmap) (r : BlitRect) (size : Nat) :
    Decidable (f.Overruns src r size) := by
  unfold Overruns; infer_instance

/-! Pixel by pixel. -/

theorem blitPixels_of_no_rows {rows columns : Int} {get : Int32 → Int32 → Except Fault Pixel}
    {put : Int32 → Int32 → Pixel → Bytes → Except Fault Bytes} (h : rows ≤ 0) :
    blitPixels rows columns r get put b = .ok b :=
  forRange_of_le h ..

theorem blitPixels_of_no_columns {rows columns : Int} {get : Int32 → Int32 → Except Fault Pixel}
    {put : Int32 → Int32 → Pixel → Bytes → Except Fault Bytes} (h : columns ≤ 0) :
    blitPixels rows columns r get put b = .ok b := by
  have hloop : Yields (blitPixels rows columns r get put b) (fun c => c = b) := by
    apply Yields.forRange (fun _ c => c = b) rfl
    intro j c _ _ hc
    rw [forRange_of_le h]
    exact Yields.ok hc
  obtain ⟨c, hc, rfl⟩ := hloop
  exact hc

theorem loopSpan_of_empty {u v : Int} (h : v = u - 1) : loopSpan u v ≤ 0 := by
  rw [loopSpan, h, show u - 1 - u = -1 by omega]
  decide

/-- Nothing of an empty rectangle is copied. -/
theorem blitUser_of_empty (hrows : ¬ f.ByRows src) (h : r.x1 = r.x0 - 1 ∨ r.y1 = r.y0 - 1) :
    f.blitUser src r b = .ok b := by
  unfold blitUser
  by_cases hplain : src.orientation = .identity ∧ f.orientation = .identity
  · rw [if_pos hplain, blitRaw, if_neg (fun hraw => hrows ⟨hplain, hraw⟩)]
    rcases h with h | h
    · apply blitPixels_of_no_columns
      rw [h, show r.x0 - 1 - r.x0 + 1 = 0 by omega]
      decide
    · exact blitPixels_of_no_rows (loopSpan_of_empty h)
  · rw [if_neg hplain]
    rcases h with h | h
    · exact blitPixels_of_no_columns (loopSpan_of_empty h)
    · exact blitPixels_of_no_rows (loopSpan_of_empty h)

/-! Row by row. -/

theorem blitUser_of_byRows (h : f.ByRows src) (r : BlitRect) (b : Bytes) :
    f.blitUser src r b = f.blitRows src r b := by
  rw [blitUser, if_pos h.1, blitRaw, if_pos h.2]

/-- A row of no bytes is copied without effect, if it starts in both buffers. -/
theorem copyBytes_nothing {i j : Nat} (hsrc : src.start + j ≤ src.bytes.size)
    (hdst : f.start + i ≤ b.size) : f.copyBytes src i j 0 b = .ok b := by
  rw [copyBytes, if_pos ⟨hsrc, hdst⟩]
  rfl

theorem copyBytes_cases {m : Nat} (hb : b.size = m) (f : Frame) (src : Pixmap) (i j n : Nat) :
    f.copyBytes src i j n b = .error .outOfBounds ∨
      Yields (f.copyBytes src i j n b) (fun c => c.size = m) := by
  unfold copyBytes
  split_ifs
  · exact Or.inr (Yields.ok ((Bytes.size_copyRun ..).trans hb))
  · exact Or.inl rfl

section ByRows
variable (hrows : f.ByRows src)
  (hclip : r.clip src.userWidth src.userHeight f.userWidth f.userHeight = some t)
include hrows hclip

theorem ByRows.rows (hh : f.height ≠ 0) :
    0 ≤ t.y1 - t.y0 ∧ t.y1 < src.height.toNat ∧ rowCount t.y0 t.y1 = t.y1 - t.y0 + 1 := by
  have hpos : 0 < f.userHeight.toNat := by
    rw [(size_of_identity hrows.1.2).2]
    exact UInt32.pos_iff_ne_zero.2 hh
  obtain ⟨h₀, h₁⟩ := BlitRect.clip_rows hclip hpos
  obtain ⟨-, hy₀, -, -⟩ := BlitRect.clip_start hclip
  rw [(size_of_identity hrows.1.1).2] at h₁
  have hhigh := src.height.toNat_lt
  exact ⟨by omega, h₁, rowCount_eq (by omega) (by omega)⟩

theorem ByRows.columns (hw : f.width = 0) : t.x1 = t.x0 - 1 ∧ t.x2 = 0 := by
  apply BlitRect.clip_no_columns hclip
  rw [(size_of_identity hrows.1.2).1, hw]
  rfl

/-- Rows of no bytes are copied without effect, if they start in the destination. -/
theorem ByRows.blitRows_of_no_columns (hs : src.WellFormed) (hw : f.width = 0)
    (hh : f.height ≠ 0) (hfits : f.start + (t.y2 + (t.y1 - t.y0)).toNat * f.stride ≤ b.size) :
    f.blitRows src t b = .ok b := by
  obtain ⟨hrow₀, hrow₁, hcount⟩ := hrows.rows hclip hh
  obtain ⟨hx₁, hx₂⟩ := hrows.columns hclip hw
  obtain ⟨⟨hx₀, hx₀'⟩, hy₀, -, -⟩ := BlitRect.clip_start hclip
  rw [(size_of_identity hrows.1.1).1] at hx₀'
  have hnone : (t.x1 - t.x0 + 1).toNat * (src.bpp / 8) = 0 := by
    rw [show (t.x1 - t.x0 + 1).toNat = 0 by omega, Nat.zero_mul]
  have hsame : Yields (f.blitRows src t b) (fun c => c = b) := by
    unfold blitRows
    rw [hcount]
    apply Yields.forRange (fun _ c => c = b) rfl
    intro row c h₀ h₁ hc
    -- a row starts where its first pixel does, which lies in the source
    have hsrc : src.start + ((t.y0 + row).toNat * src.stride + t.x0.toNat * (src.bpp / 8)) +
        1 * (src.bpp / 8) ≤ src.bytes.size :=
      Valid.run_le hs hrows.2.2.1 (by omega) (by omega) (by decide)
    have hrow : (t.y2 + row).toNat * f.stride ≤ (t.y2 + (t.y1 - t.y0)).toNat * f.stride :=
      Nat.mul_le_mul_right _ (by omega)
    subst hc
    rw [hnone, hx₂, Int.toNat_zero, Nat.zero_mul]
    exact ⟨c, copyBytes_nothing (by omega) (by omega), rfl⟩
  obtain ⟨c, hc, rfl⟩ := hsame
  exact hc

/-- Rows end in a fault if the last one starts beyond the destination. -/
theorem ByRows.blitRows_of_beyond (hh : f.height ≠ 0)
    (hlarge : b.size < f.start + (t.y2 + (t.y1 - t.y0)).toNat * f.stride) :
    f.blitRows src t b = .error .outOfBounds := by
  obtain ⟨hrow₀, -, hcount⟩ := hrows.rows hclip hh
  unfold blitRows
  rw [hcount]
  apply forRange_error (P := fun c => c.size = b.size) (j := t.y1 - t.y0) rfl
    (fun _ _ hc => copyBytes_cases hc ..) hrow₀ (by omega)
  intro c hc
  apply if_neg
  intro hfits
  have hfits := hfits.2
  rw [hc] at hfits
  omega

/-- A destination without rows is left `2 ^ 64` rows, the last one of them beyond the source. -/
theorem ByRows.blitRows_of_no_rows (hh : f.height = 0) (hstride : 0 < src.stride)
    (hsize : src.bytes.size ≤ Pixmap.maxSize) : f.blitRows src t b = .error .outOfBounds := by
  have hnone : f.userHeight.toNat = 0 := by
    rw [(size_of_identity hrows.1.2).2, hh]
    rfl
  have hy₁ := BlitRect.clip_no_rows hclip hnone
  obtain ⟨-, hy₀, -, -⟩ := BlitRect.clip_start hclip
  have hcount : rowCount t.y0 t.y1 = 0x10000000000000000 := by
    rw [rowCount, hy₁, show t.y0 - 1 - t.y0 = -1 by omega]
    decide
  unfold blitRows
  rw [hcount]
  apply forRange_error (P := fun c => c.size = b.size) (j := 0xffffffffffffffff) rfl
    (fun _ _ hc => copyBytes_cases hc ..) (by decide) (by decide)
  intro c hc
  apply if_neg
  intro hfits
  have hfits := hfits.1
  have hlow : Pixmap.maxSize < (t.y0 + 0xffffffffffffffff).toNat * src.stride := by
    calc Pixmap.maxSize < 0xffffffffffffffff * 1 := by decide
      _ ≤ (t.y0 + 0xffffffffffffffff).toNat * src.stride := Nat.mul_le_mul (by omega) hstride
  omega

end ByRows

/-! Clipped copies. -/

theorem blitClipped_of_clip {p q dest : Point} (h : (BlitRect.ofCorners p q dest).clip
    src.userWidth src.userHeight f.userWidth f.userHeight = some t) :
    f.blitClipped src p q dest b = f.blitUser src t b := by
  rw [blitClipped, h]

/-- Over a destination without pixels nothing changes, unless rows are copied beyond it. -/
theorem blitClipped_of_empty (hs : src.WellFormed)
    (hempty : f.userWidth.toNat = 0 ∨ f.userHeight.toNat = 0) {p q dest : Point}
    (hno : ¬ f.Overruns src (BlitRect.ofCorners p q dest) b.size) :
    f.blitClipped src p q dest b = .ok b := by
  cases hclip : (BlitRect.ofCorners p q dest).clip src.userWidth src.userHeight f.userWidth
      f.userHeight with
  | none => rw [blitClipped, hclip]
  | some t =>
    rw [blitClipped_of_clip hclip]
    by_cases hrows : f.ByRows src
    · obtain ⟨hleft, -⟩ := BlitRect.of_clip hclip
      have hh : f.height ≠ 0 := fun h => hno ⟨hrows, hleft, Or.inl h⟩
      have hw : f.width = 0 := by
        rw [(size_of_identity hrows.1.2).1, (size_of_identity hrows.1.2).2] at hempty
        exact UInt32.toNat.inj (hempty.resolve_right (fun h => hh (UInt32.toNat.inj h)))
      rw [blitUser_of_byRows hrows]
      apply hrows.blitRows_of_no_columns hclip hs hw hh
      rw [BlitRect.clip_last_row hclip]
      exact Nat.le_of_not_lt (fun h => hno ⟨hrows, hleft, Or.inr ⟨hw, h⟩⟩)
    · apply blitUser_of_empty hrows
      rcases hempty with hw | hh
      · exact Or.inl (BlitRect.clip_no_columns hclip hw).1
      · exact Or.inr (BlitRect.clip_no_rows hclip hh)

/-- A clipped copy that does not overrun keeps all bits outside of the pixels. -/
theorem Addressable.blitClipped_keeps (hf : f.Addressable b.size) {p q dest : Point}
    (hs : ((BlitRect.ofCorners p q dest).part src.userWidth src.userHeight f.userWidth
      f.userHeight).Legible src) (hno : ¬ f.Overruns src (BlitRect.ofCorners p q dest) b.size) :
    Yields (f.blitClipped src p q dest b) (f.Keeps b) := by
  by_cases hempty : f.userWidth.toNat = 0 ∨ f.userHeight.toNat = 0
  · rw [blitClipped_of_empty hs.wellFormed hempty hno]
    exact Yields.ok (Keeps.refl f b)
  · have hpaints := hf.blitClipped_paints p q dest hs (by omega) (by omega)
    exact hpaints.mono (fun c hpaint => hpaint.keeps)

/-- Rows that are copied beyond the destination end in a fault. -/
theorem blitClipped_of_overruns {p q dest : Point}
    (ho : f.Overruns src (BlitRect.ofCorners p q dest) b.size) (hstride : 0 < src.stride)
    (hsize : src.bytes.size ≤ Pixmap.maxSize) :
    f.blitClipped src p q dest b = .error .outOfBounds := by
  obtain ⟨hrows, hleft, hbeyond⟩ := ho
  have hclip := BlitRect.clip_of_left hleft
  rw [blitClipped_of_clip hclip, blitUser_of_byRows hrows]
  by_cases hh : f.height = 0
  · exact hrows.blitRows_of_no_rows hclip hh hstride hsize
  · obtain ⟨-, hlarge⟩ := hbeyond.resolve_left hh
    rw [← BlitRect.clip_last_row hclip] at hlarge
    exact hrows.blitRows_of_beyond hclip hh hlarge

end Frame

/-- The rectangle of a source that is asked for. -/
inductive Selection where
  | corners (p q : Point)
  | sized (p : Point) (w h : UInt32)

namespace Selection

/-- The corners of the rectangle, if it has pixels. -/
def corners? : Selection → Option (Point × Point)
  | corners p q => some (p, q)
  | sized p w h => if w = 0 ∨ h = 0 then none else some (p, farCorner p w h)

/-- Copies the part of the rectangle that fits. -/
def blit (s : Selection) (src : Pixmap) (dest : Point) (f : Frame) (b : Bytes) :
    Except Fault Bytes :=
  match s with
  | corners p q => f.blitClipped src p q dest b
  | sized p w h => f.blitClippedOf src p w h dest b

/-- The rectangle has pixels, and the copy of it overruns the destination. -/
def Overruns (s : Selection) (src d : Pixmap) (dest : Point) : Prop :=
  ∃ p q, s.corners? = some (p, q) ∧
    d.toFrame.Overruns src (BlitRect.ofCorners p q dest) d.bytes.size

/-- Nothing is copied of a rectangle without pixels, and otherwise what lies between the corners. -/
theorem blit_cases (s : Selection) (src : Pixmap) (dest : Point) (f : Frame) (b : Bytes) :
    s.corners? = none ∧ s.blit src dest f b = .ok b ∨
      ∃ p q, s.corners? = some (p, q) ∧ s.blit src dest f b = f.blitClipped src p q dest b := by
  cases s with
  | corners p q => exact Or.inr ⟨p, q, rfl, rfl⟩
  | sized p w h =>
    by_cases hzero : w = 0 ∨ h = 0
    · exact Or.inl ⟨if_pos hzero, if_pos hzero⟩
    · exact Or.inr ⟨p, farCorner p w h, if_neg hzero, if_neg hzero⟩

end Selection

namespace Pixmap

/-- A clipped copy always answers and keeps all bits that belong to no pixel of the destination,
unless rows of bytes overrun a destination without pixels: then it ends in a fault, if the rows of
the source have bytes and its buffer can be allocated. -/
theorem blitClipped_contained {src d : Pixmap} (hs : src.Addressable) (hd : d.Addressable)
    (s : Selection) (dest : Point) :
    (¬ s.Overruns src d dest → ∃ e, d.draw .user (s.blit src dest) = .ok e ∧
      e.toFrame = d.toFrame ∧ d.Keeps d.bytes e.bytes) ∧
    (s.Overruns src d dest → 0 < src.stride → src.bytes.size ≤ maxSize →
      d.draw .user (s.blit src dest) = .error .outOfBounds) := by
  have hcases := s.blit_cases src dest d.toFrame d.bytes
  constructor
  · intro hno
    have hkeeps : Yields (s.blit src dest d.toFrame d.bytes) (d.Keeps d.bytes) := by
      rcases hcases with hnone | hsome
      · rw [hnone.2]
        exact Yields.ok (Frame.Keeps.refl ..)
      · obtain ⟨p, q, hpq, hblit⟩ := hsome
        rw [hblit]
        exact Frame.Addressable.blitClipped_keeps hd (BlitRect.Legible.of_addressable _ hs) (fun ho => hno ⟨p, q, hpq, ho⟩)
    obtain ⟨c, hc, hkeep⟩ := hkeeps
    exact ⟨{ d with bytes := c }, d.draw_ok hc, rfl, hkeep⟩
  · intro ho hstride hsize
    obtain ⟨p, q, hpq, hover⟩ := ho
    rcases hcases with hnone | hsome
    · rw [hnone.1] at hpq
      cases hpq
    · obtain ⟨p', q', hpq', hblit⟩ := hsome
      rw [hpq] at hpq'
      cases hpq'
      have herr := Frame.blitClipped_of_overruns hover hstride hsize
      rw [draw_eq]
      show s.blit src dest d.toFrame d.bytes >>= _ = _
      rw [hblit, herr]
      rfl

/-- A source of 5 by 5 pixels is copied to a destination of 5 columns and no rows. -/
theorem blitClipped_no_rows : ∃ src d : Pixmap,
    src.Addressable ∧ d.Addressable ∧ d.isEmpty = true ∧
      d.draw .user (Selection.blit (.corners ⟨0, 0⟩ ⟨4, 4⟩) src ⟨0, -1⟩) = .error .outOfBounds := by
  let src : Pixmap := ⟨⟨0, 5, 5, 5, 0, .g8, .identity, none⟩, Array.replicate 25 0⟩
  let d : Pixmap := ⟨⟨0, 5, 0, 5, 0, .g8, .identity, none⟩, #[]⟩
  have hs : src.Addressable := by
    refine ⟨⟨?_, ?_, ?_, ?_, ?_, ?_, ?_⟩, ?_, ?_⟩ <;> decide
  have hd : d.Addressable := by
    refine ⟨⟨?_, ?_, ?_, ?_, ?_, ?_, ?_⟩, ?_, ?_⟩ <;> decide
  -- row 1 of the source is left for row 0 of a destination without rows
  have hover : Selection.Overruns (.corners ⟨0, 0⟩ ⟨4, 4⟩) src d ⟨0, -1⟩ :=
    ⟨⟨0, 0⟩, ⟨4, 4⟩, rfl, by decide⟩
  exact ⟨src, d, hs, hd, by decide,
    (blitClipped_contained hs hd _ _).2 hover (by decide) (by decide)⟩

end Pixmap

end Raster
