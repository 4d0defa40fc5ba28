import Raster.Pixmap.Copy
import Raster.Proofs.Fill
import Raster.Proofs.UserSpace

/- Comparing pixmaps. Two pixmaps are alike (`Pixmap.Alike`) if they have one type and one
   size for the user, and they agree (`Pixmap.Agrees`) if every user point stands for
   pixels of one value. The comparison goes over the user points with 32-bit integers: it
   answers whether the pixmaps are alike and, if these integers reach all of their points,
   agree (`WellFormed.equal_yields`). Where a side is longer than that, one of its two
   loops makes no step, and whatever is alike passes for equal (`equal_exact_iff`). -/
namespace Raster

/-- Asking one test after the other answers whether all of them hold. -/
theorem allCount_yields {test : Int → Except Fault Bool} {P : Int → Prop} (n : Nat) (i : Int)
    (h : ∀ j, i ≤ j → j < i + n → Yields (test j) (fun r => r = true ↔ P j)) :
    Yields (allCount test n i) (fun r => r = true ↔ ∀ j, i ≤ j → j < i + n → P j) := by
  induction n generalizing i with
  | zero => exact Yields.ok (iff_of_true rfl (fun j h₀ h₁ => by omega))
  | succ n ih =>
    obtain ⟨r, hr, hfirst⟩ := h i (Int.le_refl i) (by omega)
    rw [allCount, hr]
    cases r with
    | true =>
      refine (ih (i + 1) (fun j h₀ h₁ => h j (by omega) (by omega))).mono (fun s hs => ?_)
      rw [hs]
      constructor
      · intro hrest j h₀ h₁
        by_cases hij : i = j
        · exact hij ▸ hfirst.1 rfl
        · exact hrest j (by omega) (by omega)
      · intro hall j h₀ h₁
        exact hall j (by omega) (by omega)
    | false =>
      refine Yields.ok (iff_of_false Bool.false_ne_true (fun hall => ?_))
      exact Bool.false_ne_true (hfirst.2 (hall i (Int.le_refl i) (by omega)))

theorem allCount_true {test : Int → Except Fault Bool} (htest : ∀ j, test j = .ok true) (n : Nat)
    (i : Int) : allCount test n i = .ok true := by
  induction n generalizing i with
  | zero => rfl
  | succ n ih =>
    rw [allCount, htest]
    exact ih (i + 1)

namespace Frame
variable {f : Frame} {size : Nat}

/-- A size that is no 32-bit integer turns negative, and nothing is left to loop over. -/
theorem toNat_loopEnd (n : UInt32) :
    (loopEnd n.toNat).toNat = if n.toNat ≤ 0x7fffffff then n.toNat else 0 := by
  have hn := n.toNat_lt
  by_cases h : n.toNat ≤ 0x7fffffff
  · rw [if_pos h, loopEnd_eq h, Int.toNat_natCast]
  · rw [if_neg h, loopEnd, Int32.toInt_ofNat', Int.bmod, Int32.size]
    omega

/-- Without rows to loop over there is no test, without columns none that fails. -/
theorem allCount_beyond (test : Int → Int → Except Fault Bool) {w h : UInt32}
    (hlarge : ¬ (w.toNat ≤ 0x7fffffff ∧ h.toNat ≤ 0x7fffffff)) :
    allCount (fun y => allCount (fun x => test x y) (loopEnd w.toNat).toNat 0)
      (loopEnd h.toNat).toNat 0 = .ok true := by
  by_cases hh : h.toNat ≤ 0x7fffffff
  · rw [toNat_loopEnd w, if_neg (fun hw => hlarge ⟨hw, hh⟩)]
    exact allCount_true (fun _ => rfl) _ 0
  · rw [toNat_loopEnd h, if_neg hh]
    rfl

/-- The user size tells whether 32-bit integers reach the pixels. -/
theorem Valid.addressable_iff (hf : f.Valid size) : f.Addressable size ↔
    f.userWidth.toNat ≤ 0x7fffffff ∧ f.userHeight.toNat ≤ 0x7fffffff := by
  refine ⟨fun h => h.user_le, fun h => ?_⟩
  unfold userWidth userHeight Orientation.userSize Orientation.exchange at h
  split_ifs at h
  · exact ⟨hf, h.2, h.1⟩
  · exact ⟨hf, h.1, h.2⟩

end Frame

namespace Pixmap
variable {p q : Pixmap}

/-- One pixel type and one size for the user. -/
structure Alike (p q : Pixmap) : Prop where
  type_eq : p.pixelType = q.pixelType
  width_eq : p.userWidth = q.userWidth
  height_eq : p.userHeight = q.userHeight

theorem not_alike_iff : ¬ p.Alike q ↔
    p.pixelType ≠ q.pixelType ∨ p.userWidth ≠ q.userWidth ∨ p.userHeight ≠ q.userHeight := by
  constructor
  · intro h
    by_contra hne
    simp only [not_or, not_not] at hne
    exact h ⟨hne.1, hne.2.1, hne.2.2⟩
  · rintro (h | h | h) ha
    · exact h ha.type_eq
    · exact h ha.width_eq
    · exact h ha.height_eq

/-- Every user point stands for stored pixels of one value. -/
def Agrees (p q : Pixmap) : Prop :=
  ∀ x y, p.ContainsUser x y → p.userPixel p.bytes x y = q.userPixel q.bytes x y

theorem Alike.contains_iff (h : p.Alike q) {x y : Int} :
    p.ContainsUser x y ↔ q.ContainsUser x y := by
  rw [Frame.ContainsUser, Frame.ContainsUser, h.width_eq, h.height_eq]

theorem Alike.addressable (h : p.Alike q) (hq : q.WellFormed) (hp : p.Addressable) :
    q.Addressable := by
  have hsize := Frame.Addressable.user_le hp
  rw [h.width_eq, h.height_eq] at hsize
  exact (Frame.Valid.addressable_iff hq).2 hsize

theorem Addressable.agreeAt_yields (hp : p.Addressable) (hq : q.Addressable) (h : p.Alike q)
    {x y : Int} (hxy : p.ContainsUser x y) : Yields (p.agreeAt q x y)
      (fun r => r = true ↔ p.userPixel p.bytes x y = q.userPixel q.bytes x y) := by
  have hp' : p.userPixel p.bytes x y < 2 ^ 32 := Frame.pixel_lt_uint32 ..
  have hq' : q.userPixel q.bytes x y < 2 ^ 32 := Frame.pixel_lt_uint32 ..
  rw [agreeAt, hp.get_ofInt hxy, hq.get_ofInt (h.contains_iff.1 hxy), ok_bind, ok_bind]
  apply Yields.ok
  rw [beq_iff_eq, ← UInt32.toNat_inj, UInt32.toNat_ofNat_of_lt' hp', UInt32.toNat_ofNat_of_lt' hq']

/-- Pixmaps in reach of 32-bit integers are compared point by point. -/
theorem Addressable.agrees_yields (hp : p.Addressable) (hq : q.Addressable) (h : p.Alike q) :
    Yields (allCount (fun y => allCount (fun x => p.agreeAt q x y) p.userWidth.toNat 0)
      p.userHeight.toNat 0) (fun r => r = true ↔ p.Agrees q) := by
  refine (allCount_yields _ _ (fun y hy₀ hy₁ =>
    allCount_yields _ _ (fun x hx₀ hx₁ => hp.agreeAt_yields hq h ?_))).mono (fun r hr => ?_)
  · exact ⟨hx₀, hy₀, by omega, by omega⟩
  · rw [hr]
    constructor
    · intro hall x y ⟨hx₀, hy₀, hx₁, hy₁⟩
      exact hall y hy₀ (by omega) x hx₀ (by omega)
    · intro hagrees y hy₀ hy₁ x hx₀ hx₁
      exact hagrees x y ⟨hx₀, hy₀, by omega, by omega⟩

theorem WellFormed.equal_yields (hp : p.WellFormed) (hq : q.WellFormed) :
    Yields (p.equal q) (fun r => r = true ↔ p.Alike q ∧ (p.Addressable → p.Agrees q)) := by
  unfold equal
  by_cases h : p.Alike q
  · rw [if_neg (fun hne => not_alike_iff.2 hne h)]
    by_cases ha : p.Addressable
    · obtain ⟨hw, hh⟩ := Frame.Addressable.user_le ha
      simp only [Frame.toNat_loopEnd, if_pos hw, if_pos hh]
      refine (ha.agrees_yields (h.addressable hq ha) h).mono (fun r hr => hr.trans ?_)
      exact ⟨fun hagrees => ⟨h, fun _ => hagrees⟩, fun hr => hr.2 ha⟩
    · rw [Frame.allCount_beyond _ (mt (Frame.Valid.addressable_iff hp).2 ha)]
      exact Yields.ok (iff_of_true rfl ⟨h, fun ha' => absurd ha' ha⟩)
  · rw [if_pos (not_alike_iff.1 h)]
    exact Yields.ok (iff_of_false Bool.false_ne_true (fun hr => h hr.1))

/-- The comparison always answers. It finds pixmaps equal that are alike and either agree or have
points that 32-bit integers do not reach, so its answer is exact just if these do not differ. -/
theorem equal_exact_iff (hp : p.WellFormed) (hq : q.WellFormed) :
    ∃ r, p.equal q = .ok r ∧
      (r = true ↔ p.Alike q ∧ (p.Addressable → p.Agrees q)) ∧
      ((r = true ↔ p.Alike q ∧ p.Agrees q) ↔ (p.Alike q → p.Addressable ∨ p.Agrees q)) := by
  obtain ⟨r, hr, hexact⟩ := hp.equal_yields hq
  refine ⟨r, hr, hexact, ?_⟩
  rw [hexact]
  constructor
  · intro hiff halike
    by_contra hor
    obtain ⟨hout, hne⟩ := not_or.1 hor
    exact hne (hiff.1 ⟨halike, fun ha => absurd ha hout⟩).2
  · intro hreach
    constructor
    · intro h
      exact ⟨h.1, (hreach h.1).elim h.2 id⟩
    · intro h
      exact ⟨h.1, fun _ => h.2⟩

/-- A view of 2 ^ 31 pixels of one bit, from bit `offset` of a row on. -/
def longRow (offset : Nat) : Frame :=
  ⟨0, 0x80000000, 1, 0x10000001, offset, .g1ub, .identity, none⟩

theorem longRow_valid {offset size : Nat} (h : offset < 8) (hsize : size = 0x10000001) :
    (longRow offset).Valid size := by
  subst hsize
  refine ⟨nofun, Nat.zero_le _, h, ?_, fun _ hh => absurd hh (Nat.lt_irrefl 1), fun _ _ => ?_,
    by decide⟩
  · show Nat.gcd 1 8 ∣ offset
    rw [Nat.gcd_one_left]
    exact Nat.one_dvd offset
  · show (1 - 1) * 0x10000001 + byteCount (offset + 0x80000000 * 1) ≤ 0x10000001 - 0
    unfold byteCount
    omega

/-- Two views of one row differ in their first pixel and are found equal. -/
theorem equal_exact_wide : ∃ p q : Pixmap, p.WellFormed ∧ q.WellFormed ∧ p.Alike q ∧
    p.ContainsUser 0 0 ∧ p.userPixel p.bytes 0 0 = 1 ∧ q.userPixel q.bytes 0 0 = 0 ∧
    p.equal q = .ok true := by
  -- the first pixel of the row is white, all others are black
  obtain ⟨b, hsize, hfirst⟩ : ∃ b : Bytes, b.size = 0x10000001 ∧ b[0]? = some 0x80 := by
    refine ⟨#[0x80] ++ Array.replicate 0x10000000 0, ?_, ?_⟩
    · rw [Array.size_append, Array.size_replicate]
      rfl
    · rw [Array.getElem?_append_left (by decide)]
      rfl
  have hp : Pixmap.WellFormed ⟨longRow 0, b⟩ := longRow_valid (by decide) hsize
  have hq : Pixmap.WellFormed ⟨longRow 1, b⟩ := longRow_valid (by decide) hsize
  have halike : Pixmap.Alike ⟨longRow 0, b⟩ ⟨longRow 1, b⟩ := ⟨rfl, rfl, rfl⟩
  have hwide : ¬ Pixmap.Addressable ⟨longRow 0, b⟩ := fun h =>
    absurd h.width_le (by decide : ¬ (longRow 0).width.toNat ≤ 0x7fffffff)
  obtain ⟨r, hr, hexact, -⟩ := equal_exact_iff hp hq
  obtain rfl := hexact.2 ⟨halike, fun h => absurd h hwide⟩
  have hpixel : ∀ offset, (longRow offset).userPixel b 0 0 =
      b.window ((longRow offset).position 0 0) 1 := fun _ => rfl
  have hwindow : ∀ k, k < 8 → b.window k 1 = field 0x80 k 1 := by
    intro k hk
    rw [Bytes.window, byteCount, Nat.div_eq_of_lt hk, Nat.mod_eq_of_lt hk,
      Nat.div_eq_of_lt_le (by omega : 1 * 8 ≤ k + 1 + 7) (by omega), Bytes.readLE, hfirst]
    rfl
  refine ⟨_, _, hp, hq, halike, (by decide : (longRow 0).ContainsUser 0 0), ?_, ?_, hr⟩
  · show (longRow 0).userPixel b 0 0 = 1
    rw [hpixel, (by decide : (longRow 0).position 0 0 = 7), hwindow 7 (by decide)]
    rfl
  · show (longRow 1).userPixel b 0 0 = 0
    rw [hpixel, (by decide : (longRow 1).position 0 0 = 6), hwindow 6 (by decide)]
    rfl

end Pixmap

end Raster
