import Raster.Proofs.Bits
import Raster.Proofs.NumberSize
import Raster.Scene.Encode

/- The shortest decimal of a single precision number. The search for it always ends in a
   multiple that reads back (`search_reads`): the finest power of ten that it tries is less
   than the interval is wide. The digits lie below the upper end of the interval, which
   bounds the decimal exponent, so that the numeral of a number in a scene is written as
   JSON allows and has a value (`sceneStyle_readable`, `sceneStyle_modest`). -/
namespace Raster

open Decimal

theorem tenPow_eq (k : Nat) : tenPow k = 10 ^ k := rfl

/-- The sizes of single precision numbers. -/
structure Binary.Single (b : Binary) : Prop where
  significand : b.significand < 2 ^ 24
  low : -149 ≤ b.exponent
  high : b.exponent ≤ 104

theorem Parts.single_of_ofFloat32 {x : Float32} {negative : Bool} {b : Binary}
    (h : Parts.ofFloat32 x = .finite negative b) : b.Single := by
  have hfraction : x.toBits.toNat % twoPow 23 < 2 ^ 23 := Nat.mod_lt _ (Nat.two_pow_pos 23)
  have hexponent : x.toBits.toNat / twoPow 23 % twoPow 8 < 2 ^ 8 := Nat.mod_lt _ (Nat.two_pow_pos 8)
  have hone : twoPow 23 = 2 ^ 23 := twoPow_eq 23
  unfold Parts.ofFloat32 BinaryFormat.decode at h
  dsimp only [BinaryFormat.single] at h
  generalize x.toBits.toNat % twoPow 23 = m at h hfraction
  generalize x.toBits.toNat / twoPow 23 % twoPow 8 = e at h hexponent
  unfold BinaryFormat.ofFields at h
  split at h
  · split at h <;> cases h
  · rename_i hfinite
    change ¬ e = 255 at hfinite
    split at h
    · injection h with _ hb
      subst hb
      exact ⟨Nat.lt_trans hfraction (by decide), by change (-149 : Int) ≤ -149; decide,
        by change (-149 : Int) ≤ 104; decide⟩
    · injection h with _ hb
      subst hb
      refine ⟨?_, ?_, ?_⟩
      · show twoPow 23 + m < 2 ^ 24
        omega
      · show -149 ≤ -149 + ((e : Int) - 1)
        omega
      · show -149 + ((e : Int) - 1) ≤ 104
        omega

namespace Binary
variable {b : Binary}

theorem lower_pos (hb : b.significand ≠ 0) : 0 < b.lower := by
  unfold lower middle
  split <;> omega

theorem lower_lt_middle (hb : b.significand ≠ 0) : b.lower < b.middle := by
  unfold lower middle
  split <;> omega

/-- What reads back lies between the ends of the interval. -/
theorem Reads.bounds {k : Int} {d : Nat} (h : b.Reads k d) :
    b.lower * (b.scales k).2 ≤ d * (b.scales k).1 ∧
      d * (b.scales k).1 ≤ b.upper * (b.scales k).2 := by
  unfold Reads at h
  dsimp only at h
  split at h
  · exact h
  · exact ⟨Nat.le_of_lt h.1, Nat.le_of_lt h.2⟩

theorem reads_of_between {k : Int} {d : Nat} (hlow : b.lower * (b.scales k).2 < d * (b.scales k).1)
    (hhigh : d * (b.scales k).1 < b.upper * (b.scales k).2) : b.Reads k d := by
  unfold Reads
  dsimp only
  split
  · exact ⟨Nat.le_of_lt hlow, Nat.le_of_lt hhigh⟩
  · exact ⟨hlow, hhigh⟩

theorem reads_of_nearest? {tiesUp : Bool} {k : Int} {d : Nat} (h : b.nearest? tiesUp k = some d) :
    b.Reads k d := by
  unfold nearest? at h
  dsimp only at h
  split at h
  · split at h
    · rename_i hd hup
      injection h with h
      subst h
      simp only [Bool.and_eq_true, decide_eq_true_eq] at hup
      exact hup.1
    · rename_i hd hup
      injection h with h
      subst h
      exact hd
  · split at h
    · rename_i hup
      injection h with h
      subst h
      exact hup
    · cases h

/-- If the multiples lie closer than the interval is wide above the number, one of them reads
back. -/
theorem nearest?_isSome (tiesUp : Bool) {k : Int} (hb : b.significand ≠ 0)
    (h : (b.scales k).1 < 2 * (b.scales k).2) (hpos : 0 < (b.scales k).1) :
    (b.nearest? tiesUp k).isSome = true := by
  have hmod := Nat.div_add_mod (b.middle * (b.scales k).2) (b.scales k).1
  have hrest := Nat.mod_lt (b.middle * (b.scales k).2) hpos
  have hlow := Nat.mul_le_mul_right (b.scales k).2 (Nat.le_of_lt (lower_lt_middle hb))
  have hhigh : b.upper * (b.scales k).2 = b.middle * (b.scales k).2 + 2 * (b.scales k).2 :=
    Nat.add_mul b.middle 2 _
  have hup : b.Reads k (b.middle * (b.scales k).2 / (b.scales k).1 + 1) := by
    apply reads_of_between <;>
    · rw [Nat.add_mul, Nat.one_mul, Nat.mul_comm (_ / _) (b.scales k).1]
      omega
  simp only [nearest?, hup, if_true]
  split
  · split <;> rfl
  · rfl

/-- What the search ends in reads back. -/
theorem search_reads {tiesUp : Bool} (h : (b.nearest? tiesUp (-60)).isSome = true) {n : Nat}
    (hn : 0 < n) :
    b.Reads (b.search tiesUp n).power (b.search tiesUp n).coefficient ∧
      -60 ≤ (b.search tiesUp n).power ∧ (b.search tiesUp n).power < (n : Int) - 60 := by
  induction n with
  | zero => exact absurd hn (Nat.lt_irrefl 0)
  | succ n ih =>
    unfold search
    split
    · rename_i d hd
      exact ⟨reads_of_nearest? hd, by dsimp only; omega, by dsimp only; omega⟩
    · rename_i hnone
      rcases Nat.eq_zero_or_pos n with rfl | hpos
      · rw [show ((0 : Nat) : Int) - 60 = -60 from rfl] at hnone
        rw [hnone] at h
        cases h
      · obtain ⟨hreads, hlow, hhigh⟩ := ih hpos
        exact ⟨hreads, hlow, by omega⟩

theorem scales_pos (k : Int) : 0 < (b.scales k).1 ∧ 0 < (b.scales k).2 := by
  unfold scales
  simp only [twoPow_eq, tenPow_eq]
  exact ⟨Nat.mul_pos (Nat.pow_pos (by decide)) (Nat.two_pow_pos _),
    Nat.mul_pos (Nat.pow_pos (by decide)) (Nat.two_pow_pos _)⟩

/-- The finest power of ten that is tried lies closer than the interval is wide. -/
theorem scales_finest (h : b.Single) : (b.scales (-60)).1 < 2 * (b.scales (-60)).2 := by
  have hexp : (2 - b.exponent).toNat ≤ 151 := by
    have hlow := h.low
    omega
  have hleft : (b.scales (-60)).1 ≤ 2 ^ 151 := by
    show 1 * twoPow (2 - b.exponent).toNat ≤ _
    rw [Nat.one_mul, twoPow_eq]
    exact Nat.pow_le_pow_right (by decide) hexp
  have hright : 10 ^ 60 ≤ (b.scales (-60)).2 := by
    show 10 ^ 60 ≤ 10 ^ 60 * twoPow (b.exponent - 2).toNat
    rw [twoPow_eq]
    exact Nat.le_mul_of_pos_right _ (Nat.two_pow_pos _)
  have hwide : 2 ^ 151 < 2 * 10 ^ 60 := by decide
  omega

/-- What reads back is not zero. -/
theorem Reads.ne_zero {k : Int} {d : Nat} (h : b.Reads k d) (hb : b.significand ≠ 0) : d ≠ 0 := by
  rintro rfl
  have hlow := h.bounds.1
  rw [Nat.zero_mul] at hlow
  have hpos := Nat.mul_pos (lower_pos hb) (scales_pos (b := b) k).2
  omega

/-- What reads back is less than `10 ^ 39`. -/
theorem Reads.lt_tenPow {k : Int} {d : Nat} (h : b.Reads k d) (hs : b.Single) :
    d * 10 ^ k.toNat < 10 ^ 39 * 10 ^ (-k).toNat := by
  have hupper : b.upper < 2 ^ 26 := by
    have hsig := hs.significand
    unfold upper middle
    omega
  have hexp : (b.exponent - 2).toNat ≤ 102 := by
    have hhigh := hs.high
    omega
  calc d * 10 ^ k.toNat
      ≤ d * (b.scales k).1 := by
        refine Nat.mul_le_mul_left d ?_
        show _ ≤ 10 ^ k.toNat * twoPow _
        rw [twoPow_eq]
        exact Nat.le_mul_of_pos_right _ (Nat.two_pow_pos _)
    _ ≤ b.upper * (b.scales k).2 := h.bounds.2
    _ = b.upper * twoPow (b.exponent - 2).toNat * 10 ^ (-k).toNat := by
        show b.upper * (10 ^ (-k).toNat * twoPow (b.exponent - 2).toNat) = _
        rw [Nat.mul_comm (10 ^ _), Nat.mul_assoc]
    _ < 10 ^ 39 * 10 ^ (-k).toNat := by
        refine Nat.mul_lt_mul_of_pos_right ?_ (Nat.pow_pos (by decide))
        rw [twoPow_eq]
        calc b.upper * 2 ^ (b.exponent - 2).toNat
            ≤ b.upper * 2 ^ 102 := Nat.mul_le_mul_left _ (Nat.pow_le_pow_right (by decide) hexp)
          _ < 2 ^ 26 * 2 ^ 102 := Nat.mul_lt_mul_of_pos_right hupper (by decide)
          _ ≤ 10 ^ 39 := by decide

/-- The first digit stands at `10 ^ 38` at most. -/
theorem Reads.length_digits_le {k : Int} {d : Nat} (h : b.Reads k d) (hs : b.Single)
    (hb : b.significand ≠ 0) (hk : k ≤ 39) : (digits d).length + k ≤ 39 := by
  refine Int.not_lt.1 (fun hlong => ?_)
  have hpow : 10 ^ (39 - k).toNat ≤ d := le_of_length_digits (h.ne_zero hb) (by omega)
  have hlt : 10 ^ ((39 - k).toNat + k.toNat) < 10 ^ (39 + (-k).toNat) := by
    rw [Nat.pow_add, Nat.pow_add]
    exact Nat.lt_of_le_of_lt (Nat.mul_le_mul_right _ hpow) (h.lt_tenPow hs)
  have hexp := (Nat.pow_lt_pow_iff_right (by decide)).1 hlt
  omega

/-- The coefficient of the shortest decimal is not zero, and the decimal exponent of its first
digit lies within these bounds. -/
theorem shortest_bounds (tiesUp : Bool) (hs : b.Single) (hb : b.significand ≠ 0) :
    (b.shortest tiesUp).coefficient ≠ 0 ∧ -60 ≤ (b.shortest tiesUp).power ∧
      (digits (b.shortest tiesUp).coefficient).length + (b.shortest tiesUp).power ≤ 39 := by
  have hfound := nearest?_isSome tiesUp hb (scales_finest hs) (scales_pos _).1
  obtain ⟨hreads, hlow, hhigh⟩ := search_reads hfound (show 0 < 100 by decide)
  exact ⟨hreads.ne_zero hb, hlow, hreads.length_digits_le hs hb (by omega)⟩

end Binary

/-! Numerals in a scene. -/

namespace Decimal.Style

variable {s : Style} {ds : List Digit} {e : Int}

theorem layOut_readable (negative : Bool) (hd : ∃ d r, ds = d :: r ∧ d ≠ .zero) :
    (s.layOut negative ds e).Readable := by
  obtain ⟨d, r, rfl, hd⟩ := hd
  unfold layOut
  split
  · split
    · exact ⟨Or.inl rfl, fun _ h => nomatch h⟩
    · dsimp only
      exact ⟨Or.inr ⟨d, _, by rw [List.take_succ_cons, List.cons_append], hd⟩, fun _ h => nomatch h⟩
  · refine ⟨Or.inr ⟨d, [], rfl, hd⟩, fun x hx => ?_⟩
    cases hx
    exact digits_ne_nil _

theorem layOut_modest (negative : Bool) (hs : s.highest ≤ 12) (hlow : -60 ≤ e) (hhigh : e ≤ 38) :
    (s.layOut negative ds e).Modest := by
  unfold layOut Numeral.Modest
  split
  · split
    · show 1 + 0 < 100
      decide
    · dsimp only [Option.elim_none]
      rw [List.length_append, List.length_take, List.length_replicate]
      omega
  · dsimp only [Option.elim_some]
    rw [List.length_take, value_digits]
    omega

theorem zero_readable (negative : Bool) : (zero negative).Readable :=
  ⟨Or.inl rfl, fun _ h => nomatch h⟩

theorem zero_modest (negative : Bool) : (zero negative).Modest := by
  show 1 + 0 < 100
  decide

end Decimal.Style

namespace Decimal
variable {b : Binary}

theorem sceneStyle_readable (negative : Bool) (hs : b.Single) :
    (sceneStyle.numeral negative b).Readable := by
  unfold Style.numeral
  split
  · exact Style.zero_readable negative
  · rename_i hb
    exact Style.layOut_readable negative (digits_leads (Binary.shortest_bounds _ hs hb).1)

theorem sceneStyle_modest (negative : Bool) (hs : b.Single) :
    (sceneStyle.numeral negative b).Modest := by
  unfold Style.numeral
  split
  · exact Style.zero_modest negative
  · rename_i hb
    obtain ⟨hcoefficient, hlow, hhigh⟩ := Binary.shortest_bounds sceneStyle.tiesUp hs hb
    have hlen := List.length_pos_iff.2 (digits_ne_nil (b.shortest sceneStyle.tiesUp).coefficient)
    exact Style.layOut_modest negative (by decide) (by omega) (by omega)

end Decimal

end Raster
