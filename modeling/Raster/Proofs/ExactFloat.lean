import Mathlib.Tactic.SplitIfs
import Raster.Binary
import Raster.Proofs.Bits
import Raster.Proofs.NumberSize

/- Integers and halves of integers in double precision. `scaled n e` is the unpacked form of
   `n * 2 ^ e`, with a significand of 53 bits. Rounding drops nothing of a number whose odd
   part is that short (`round_scaled`), so that conversion from an integer is exact
   (`unpack_ofInt`), and so is adding a half (`unpack_add_half`). Packing keeps such a
   number (`unpack_pack_scaled`), and taking it apart again gives its significand and its
   exponent (`ofFloat_of_finite`). -/
namespace Raster.Double

open Float.Model (Format UnpackedFloat totalExponent)
open Float.Model.UnpackedFloat
open Raster.Decimal.Numeral (Within targetExponent_eq roundWithAccuracy_eq within_roundWithAccuracy
  unpack_cases pack_finite toNat_biased biased_ne_top within_unpack_pack)

/-! Rounding. -/

/-- A shift over zeros leaves no trace behind. -/
theorem shiftRight_zeros (m k : Nat) :
    (⟨m * 2 ^ k, false, false⟩ : ExtendedMantissa) >>> k = ⟨m, false, false⟩ := by
  show k.repeat ExtendedMantissa.shiftRightOne _ = _
  induction k generalizing m with
  | zero => rw [Nat.pow_zero, Nat.mul_one]; rfl
  | succ k ih =>
    rw [show m * 2 ^ (k + 1) = m * 2 * 2 ^ k by rw [Nat.pow_succ']; ring, Nat.repeat, ih]
    simp [ExtendedMantissa.shiftRightOne]

theorem log2_mul_two_pow {m : Nat} (hm : m ≠ 0) (k : Nat) : (m * 2 ^ k).log2 = m.log2 + k := by
  rw [Nat.log2_eq_iff (Nat.mul_ne_zero hm (Nat.two_pow_pos k).ne')]
  constructor
  · rw [Nat.pow_add]
    exact Nat.mul_le_mul_right _ (Nat.log2_self_le hm)
  · rw [Nat.add_right_comm, Nat.pow_add]
    exact Nat.mul_lt_mul_of_pos_right Nat.lt_log2_self (Nat.two_pow_pos k)

section Normal
variable {m : Nat} {e : Int} (hm : m.log2 = 52) (he : -1074 ≤ e)
include hm he

/-- A significand of 53 bits with zeros behind is brought to its place exactly. -/
theorem shiftToTargetExponent_zeros (k : Nat) :
    shiftToTargetExponent Format.binary64 (m * 2 ^ k) (e - k) .exact = (⟨m, false, false⟩, e) := by
  have hpos : m ≠ 0 := by
    rintro rfl
    exact absurd hm (by decide)
  have htarget : Format.binary64.targetExponent (totalExponent (m * 2 ^ k) (e - k)) = e := by
    rw [targetExponent_eq, log2_mul_two_pow hpos]
    omega
  rw [shiftToTargetExponent, htarget]
  show ((⟨m * 2 ^ k, false, false⟩ : ExtendedMantissa) >>> (e - (e - k)).toNat,
    e - k + ((e - (e - k)).toNat : Int)) = _
  rw [show (e - (e - k)).toNat = k by omega, shiftRight_zeros, Int.sub_add_cancel]

theorem roundWithAccuracy_zeros (s : Sign) (k : Nat) (hpos : 0 < m) :
    roundWithAccuracy Format.binary64 s (m * 2 ^ k) (e - k) .exact = .finite s m e hpos := by
  have hagain : shiftToTargetExponent Format.binary64 m e .exact = (⟨m, false, false⟩, e) := by
    have hzero := shiftToTargetExponent_zeros hm he 0
    rwa [Nat.pow_zero, Nat.mul_one, Nat.cast_zero, Int.sub_zero] at hzero
  -- nothing is rounded, so that the second shift finds the number in its place
  have htwice : shiftToTargetExponent Format.binary64
      (shiftToTargetExponent Format.binary64 (m * 2 ^ k) (e - k) .exact).1.roundedMantissa
      (shiftToTargetExponent Format.binary64 (m * 2 ^ k) (e - k) .exact).2 .exact =
        (⟨m, false, false⟩, e) := by
    rw [shiftToTargetExponent_zeros hm he k]
    exact hagain
  rw [roundWithAccuracy_eq s htwice]
  exact dif_neg hpos.ne'

end Normal

/-- The significand of 53 bits that begins with the first bit of `c`. -/
def significand (c : Nat) : Nat := c * 2 ^ (52 - c.log2)

section Significand
variable {c : Nat} (hc : c ≠ 0) (hlt : c < 2 ^ 53)
include hc

theorem significand_pos : 0 < significand c :=
  Nat.mul_pos (Nat.pos_of_ne_zero hc) (Nat.two_pow_pos _)

include hlt

theorem log2_significand : (significand c).log2 = 52 := by
  have hlog := (Nat.log2_lt hc).2 hlt
  rw [significand, log2_mul_two_pow hc]
  omega

/-- A number of at most 53 bits with zeros behind is rounded to itself. -/
theorem round_zeros (s : Sign) (j : Nat) {e : Int} (he : -1000 ≤ e + j) :
    UnpackedFloat.round Format.binary64 s (c * 2 ^ j) e =
      .finite s (significand c) (e + j - (52 - c.log2 : Nat)) (significand_pos hc) := by
  have hlog := (Nat.log2_lt hc).2 hlt
  have htarget : Format.binary64.targetExponent (totalExponent (c * 2 ^ j) e) = e + j + c.log2 - 52 := by
    rw [targetExponent_eq, log2_mul_two_pow hc]
    omega
  -- whichever of the two is the longer, the zeros and the places to fill differ by a shift
  have hshift : c * 2 ^ j * 2 ^ (52 - c.log2 - j) = significand c * 2 ^ (j - (52 - c.log2)) := by
    rw [significand, Nat.mul_assoc, Nat.mul_assoc, ← Nat.pow_add, ← Nat.pow_add]
    congr 2
    omega
  have hround := roundWithAccuracy_zeros (e := e + j - (52 - c.log2 : Nat)) (log2_significand hc hlt)
    (by omega) s (j - (52 - c.log2)) (significand_pos hc)
  rw [← hround, UnpackedFloat.round, htarget]
  show roundWithAccuracy _ s ((c * 2 ^ j) <<< (e - (e + j + c.log2 - 52)).toNat)
    (e - ((e - (e + j + c.log2 - 52)).toNat : Int)) .exact = _
  rw [show (e - (e + j + c.log2 - 52)).toNat = 52 - c.log2 - j by omega, Nat.shiftLeft_eq, hshift]
  congr 1
  omega

end Significand

/-! Numbers in normal form. -/

def signOf (n : Int) : Sign := if n < 0 then .negative else .positive

/-- The unpacked form of `n * 2 ^ e`. -/
def scaled (n e : Int) : UnpackedFloat :=
  if h : n = 0 then .zero .positive
  else .finite (signOf n) (significand n.natAbs) (e - (52 - n.natAbs.log2 : Nat))
    (significand_pos (Int.natAbs_ne_zero.2 h))

theorem scaled_of_ne_zero {n : Int} (hn : n ≠ 0) (e : Int) : scaled n e =
    .finite (signOf n) (significand n.natAbs) (e - (52 - n.natAbs.log2 : Nat))
      (significand_pos (Int.natAbs_ne_zero.2 hn)) :=
  dif_neg hn

theorem normalize_zeros {n : Int} (hn : n.natAbs < 2 ^ 53) (j : Nat) {e : Int} (he : -1000 ≤ e + j) :
    UnpackedFloat.normalize Format.binary64 (n * 2 ^ j) e .positive = scaled n (e + j) := by
  have hpow : (0 : Int) < 2 ^ j := Int.pow_pos (by decide)
  have habs : (n * 2 ^ j).natAbs = n.natAbs * 2 ^ j := by
    rw [Int.natAbs_mul, Int.natAbs_pow]
    rfl
  unfold UnpackedFloat.normalize
  rcases Int.lt_trichotomy n 0 with hneg | rfl | hpos
  · have hlt : n * 2 ^ j < 0 := Int.mul_neg_of_neg_of_pos hneg hpow
    have hsize : (-(n * 2 ^ j)).toNat = n.natAbs * 2 ^ j := by omega
    rw [Int.compare_eq_lt.2 hlt, scaled_of_ne_zero (by omega), signOf, if_pos hneg]
    show UnpackedFloat.round _ _ (-(n * 2 ^ j)).toNat e = _
    rw [hsize]
    exact round_zeros (Int.natAbs_ne_zero.2 (by omega)) hn .negative j he
  · rw [Int.zero_mul]
    rfl
  · have hlt : 0 < n * 2 ^ j := Int.mul_pos hpos hpow
    have hsize : (n * 2 ^ j).toNat = n.natAbs * 2 ^ j := by omega
    rw [Int.compare_eq_gt.2 hlt, scaled_of_ne_zero (by omega), signOf, if_neg (by omega)]
    show UnpackedFloat.round _ _ (n * 2 ^ j).toNat e = _
    rw [hsize]
    exact round_zeros (Int.natAbs_ne_zero.2 (by omega)) hn .positive j he

/-! Packing. -/

theorem toNat_packComponents (s : Sign) (e : BitVec 11) (m : BitVec 52) :
    (packComponents Format.binary64 s e m).toNat =
      s.toBitVec.toNat * 2 ^ 63 + e.toNat * 2 ^ 52 + m.toNat := by
  show (s.toBitVec ++ e ++ m).toNat = _
  rw [BitVec.toNat_append, BitVec.toNat_append, ← Nat.shiftLeft_add_eq_or_of_lt m.isLt,
    ← Nat.shiftLeft_add_eq_or_of_lt e.isLt, Nat.shiftLeft_eq, Nat.shiftLeft_eq]
  ring

section Fields
variable (b : BitVec Format.binary64.numBits)

theorem toNat_unpackMantissa : (unpackMantissa b).toNat = b.toNat % 2 ^ 52 := by
  rw [unpackMantissa, BitVec.toNat_cast, BitVec.extractLsb_toNat, Nat.shiftRight_zero]
  rfl

theorem toNat_unpackExponent : (unpackExponent b).toNat = b.toNat / 2 ^ 52 % 2 ^ 11 := by
  rw [unpackExponent, BitVec.toNat_cast, BitVec.extractLsb_toNat, Nat.shiftRight_eq_div_pow]
  rfl

theorem toNat_unpackSign : (unpackSign b).toNat = b.toNat / 2 ^ 63 := by
  have hb : b.toNat < 2 ^ 64 := b.isLt
  have hbit : (unpackSign b).toNat = (b.extractLsb 63 63).toNat := rfl
  rw [hbit, BitVec.extractLsb_toNat, Nat.shiftRight_eq_div_pow]
  omega

end Fields

theorem unpackSign_packComponents (s : Sign) (e : BitVec 11) (m : BitVec 52) :
    unpackSign (packComponents Format.binary64 s e m) = s.toBitVec := by
  apply BitVec.eq_of_toNat_eq
  have he := e.isLt
  have hm := m.isLt
  rw [toNat_unpackSign, toNat_packComponents]
  omega

theorem ofBitVec_toBitVec (s : Sign) : Sign.ofBitVec s.toBitVec = s := by
  cases s <;> rfl

theorem unpack_pack_zero (s : Sign) : (Float.Model.pack (.zero s)).unpack = .zero s := by
  cases s <;> rfl

/-- A normal number below the top exponent is packed without loss. -/
theorem unpack_pack_normal (s : Sign) {m : Nat} {e : Int} (hm : m.log2 = 52) (hpos : 0 < m)
    (hlow : -1074 ≤ e) (hhigh : e ≤ 971) :
    (Float.Model.pack (.finite s m e hpos)).unpack = .finite s m e hpos := by
  obtain ⟨hm₁, hm₂⟩ := (Nat.log2_eq_iff hpos.ne').1 hm
  have hexp := toNat_biased hhigh
  have hbottom : BitVec.ofNat 11 (e + 1075).toNat ≠ 0#11 := by
    intro heq
    have h : (e + 1075).toNat = 0 := hexp.symm.trans (congrArg BitVec.toNat heq)
    omega
  have hfraction : (1#1 ++ BitVec.ofNat 52 m).toNat = m := by
    rw [BitVec.toNat_append, ← Nat.shiftLeft_add_eq_or_of_lt (BitVec.isLt _), BitVec.toNat_ofNat]
    show 2 ^ 52 + m % 2 ^ 52 = m
    omega
  have hexponent : ((e + 1075).toNat : Int) - 1075 = e := by omega
  show UnpackedFloat.unpack Format.binary64 (UnpackedFloat.pack Format.binary64 _) = _
  rw [pack_finite s hpos hhigh, if_pos (by rw [hm])]
  -- the fields are those of a normal number
  obtain ⟨h, -⟩ | ⟨h, -⟩ | ⟨h, -⟩ | ⟨-, -, _, hu⟩ := unpack_cases (packComponents Format.binary64 s
    (BitVec.ofNat 11 (e + 1075).toNat) (BitVec.ofNat 52 m))
  · rw [unpackExponent_packComponents] at h
    exact absurd h (biased_ne_top hhigh)
  · rw [unpackExponent_packComponents] at h
    exact absurd h hbottom
  · rw [unpackExponent_packComponents] at h
    exact absurd h hbottom
  · rw [hu, UnpackedFloat.finite.injEq, unpackExponent_packComponents, unpackMantissa_packComponents,
      unpackSign_packComponents]
    exact ⟨ofBitVec_toBitVec s, hfraction, by rw [hexp, hexponent]⟩

theorem unpack_pack_scaled {n e : Int} (hn : n.natAbs < 2 ^ 53) (hlow : -1000 ≤ e) (hhigh : e ≤ 971) :
    (Float.Model.pack (scaled n e)).unpack = scaled n e := by
  by_cases h : n = 0
  · subst h
    exact unpack_pack_zero .positive
  · have hc : n.natAbs ≠ 0 := Int.natAbs_ne_zero.2 h
    rw [scaled_of_ne_zero h]
    exact unpack_pack_normal _ (log2_significand hc hn) (significand_pos hc) (by omega) (by omega)

/-! Conversion. -/

theorem unpack_toFloat {n : UInt64} (hn : n.toNat < 2 ^ 53) :
    n.toFloat.toModel.unpack = scaled n.toNat 0 := by
  have hnormal := normalize_zeros (n := n.toNat) (by omega) 0 (e := 0) (by decide)
  rw [pow_zero, mul_one] at hnormal
  show (Float.Model.pack (UnpackedFloat.normalize Format.binary64 (n.toNat : Int) 0 .positive)).unpack = _
  rw [hnormal]
  exact unpack_pack_scaled (by omega) (by decide) (by decide)

theorem mul_one_scaled {n e : Int} (hn : n.natAbs < 2 ^ 53) (he : -1000 ≤ e) :
    UnpackedFloat.mul Format.binary64 (scaled n e) (.finite .positive (2 ^ 52) (-52) (by decide)) =
      scaled n e := by
  by_cases h : n = 0
  · subst h
    rfl
  · have hc : n.natAbs ≠ 0 := Int.natAbs_ne_zero.2 h
    have hsign : signOf n * Sign.positive = signOf n := by cases signOf n <;> rfl
    rw [scaled_of_ne_zero h]
    show roundWithAccuracy _ (signOf n * Sign.positive) (significand n.natAbs * 2 ^ 52) (_ - (52 : Nat))
      .exact = _
    rw [hsign]
    exact roundWithAccuracy_zeros (log2_significand hc hn) (by omega) _ 52 (significand_pos hc)

/-- Conversion multiplies by the power of ten with exponent zero. -/
theorem unpack_ofNat {n : Nat} (hn : n < 2 ^ 53) : (Float.ofNat n).toModel.unpack = scaled n 0 := by
  have hproduct : Float.ofNat n = n.toUInt64.toFloat * Float.ofBits 0x3ff0000000000000 := by
    show Float.ofScientific n false 0 = _
    rw [Float.ofScientific, dif_pos ⟨hn, by decide⟩]
    rfl
  have hone : (Float.ofBits 0x3ff0000000000000).toModel.unpack =
      .finite .positive (2 ^ 52) (-52) (by decide) := rfl
  have hword : n.toUInt64.toNat = n := UInt64.toNat_ofNat_of_lt' (by unfold UInt64.size; omega)
  have hfactor := unpack_toFloat (n := n.toUInt64) (by omega)
  rw [hword] at hfactor
  rw [hproduct]
  show (Float.Model.pack (UnpackedFloat.mul Format.binary64 n.toUInt64.toFloat.toModel.unpack
    (Float.ofBits 0x3ff0000000000000).toModel.unpack)).unpack = _
  rw [hfactor, hone, mul_one_scaled (by omega) (by decide)]
  exact unpack_pack_scaled (by omega) (by decide) (by decide)

theorem neg_scaled {n : Int} (h : n ≠ 0) (e : Int) : (scaled n e).neg = scaled (-n) e := by
  have hsign : -signOf n = signOf (-n) := by
    unfold signOf
    split_ifs
    · omega
    · rfl
    · rfl
    · omega
  rw [scaled_of_ne_zero h, scaled_of_ne_zero (Int.neg_ne_zero.2 h)]
  show UnpackedFloat.finite (-signOf n) _ _ _ = _
  rw [UnpackedFloat.finite.injEq, hsign, Int.natAbs_neg]
  exact ⟨rfl, rfl, rfl⟩

theorem unpack_ofInt {n : Int} (hn : n.natAbs < 2 ^ 53) :
    (Float.ofInt n).toModel.unpack = scaled n 0 := by
  cases n with
  | ofNat n => exact unpack_ofNat hn
  | negSucc n =>
    show (Float.Model.pack (Float.ofNat (n + 1)).toModel.unpack.neg).unpack = _
    rw [unpack_ofNat (show n + 1 < 2 ^ 53 from hn), neg_scaled (by omega),
      show -((n + 1 : Nat) : Int) = Int.negSucc n from rfl]
    exact unpack_pack_scaled hn (by decide) (by decide)

/-! Sums. -/

theorem apply_signOf (n : Int) : (signOf n).apply n.natAbs = n := by
  unfold signOf
  split_ifs with h
  · show -(n.natAbs : Int) = n
    omega
  · show (n.natAbs : Int) = n
    omega

theorem apply_mul (s : Sign) (m k : Int) : s.apply (m * k) = s.apply m * k := by
  cases s
  · exact Int.neg_mul_eq_neg_mul m k
  · rfl

/-- The significand of an integer brought to the exponent `-k`. -/
theorem apply_decreaseExponent {n : Int} (h : n ≠ 0) (hn : n.natAbs < 2 ^ 53) {k : Nat} (hk : 52 ≤ k) :
    (signOf n).apply ((decreaseExponent (significand n.natAbs) (0 - (52 - n.natAbs.log2 : Nat))
      (-k)).1 : Int) = n * 2 ^ k := by
  have hlog := (Nat.log2_lt (Int.natAbs_ne_zero.2 h)).2 hn
  have hshift : (0 - ((52 - n.natAbs.log2 : Nat) : Int) - -k).toNat = k - (52 - n.natAbs.log2) := by omega
  have hsize : significand n.natAbs <<< (k - (52 - n.natAbs.log2)) = n.natAbs * 2 ^ k := by
    rw [Nat.shiftLeft_eq, significand, Nat.mul_assoc, ← Nat.pow_add]
    congr 2
    omega
  rw [decreaseExponent, hshift, hsize, Int.natCast_mul, apply_mul, apply_signOf, Int.natCast_pow]
  rfl

/-- Finite numbers are added at the smaller exponent. -/
theorem add_finite (s t : Sign) {m k : Nat} (e f : Int) (hm : 0 < m) (hk : 0 < k) :
    UnpackedFloat.add Format.binary64 (.finite s m e hm) (.finite t k f hk) =
      UnpackedFloat.normalize Format.binary64 (s.apply (decreaseExponent m e (min e f)).1 +
        t.apply (decreaseExponent k f (min e f)).1) (min e f) .positive := rfl

/-- The sum with an integer that is not zero, by exact numerators over one power of two. -/
theorem add_scaled {n : Int} (h : n ≠ 0) (hn : n.natAbs < 2 ^ 53) (s : Sign) {m k : Nat} (hpos : 0 < m)
    (hk : 52 ≤ k) : UnpackedFloat.add Format.binary64 (scaled n 0) (.finite s m (-k) hpos) =
      UnpackedFloat.normalize Format.binary64 (n * 2 ^ k + s.apply m) (-k) .positive := by
  have hmin : min (0 - ((52 - n.natAbs.log2 : Nat) : Int)) (-k) = -k := by omega
  have hsame : (decreaseExponent m (-k) (-k)).1 = m := by
    rw [decreaseExponent, Int.sub_self]
    rfl
  rw [scaled_of_ne_zero h, add_finite, hmin, apply_decreaseExponent h hn hk, hsame]

/-- A difference is a sum with the other sign. -/
theorem sub_finite (u : UnpackedFloat) (s : Sign) {m : Nat} (e : Int) (hpos : 0 < m) :
    UnpackedFloat.sub Format.binary64 u (.finite s m e hpos) =
      UnpackedFloat.add Format.binary64 u (.finite (-s) m e hpos) := by
  cases u with
  | infinity t => rfl
  | notANumber => rfl
  | zero t => rfl
  | finite t m' e' h' =>
    have hneg : ∀ a b : Int, a - s.apply b = a + (-s).apply b := by
      intro a b
      cases s
      · show a - -b = a + b
        omega
      · rfl
    rw [add_finite, ← hneg]
    rfl

section Float
variable {x y : Float} {n : Int} (hx : x.toModel.unpack = scaled n 0)
include hx

theorem unpack_add_zero (hn : n.natAbs < 2 ^ 53) {s : Sign} (hy : y.toModel.unpack = .zero s) :
    (x + y).toModel.unpack = scaled n 0 := by
  have hsum : UnpackedFloat.add Format.binary64 (scaled n 0) (.zero s) = scaled n 0 := by
    by_cases h : n = 0
    · subst h
      cases s <;> rfl
    · rw [scaled_of_ne_zero h]
      rfl
  show (Float.Model.pack (UnpackedFloat.add Format.binary64 x.toModel.unpack y.toModel.unpack)).unpack = _
  rw [hx, hy, hsum]
  exact unpack_pack_scaled hn (by decide) (by decide)

/-- A half has its one bit in the last place but 52 of the sum. -/
theorem unpack_add_half (hn : n.natAbs < 2 ^ 51) :
    (x + 0.5).toModel.unpack = scaled (2 * n + 1) (-1) := by
  have hhalf : (0.5 : Float).toModel.unpack = .finite .positive (2 ^ 52) (-53) (by decide) := rfl
  have hsum : UnpackedFloat.add Format.binary64 (scaled n 0) (.finite .positive (2 ^ 52) (-53) (by decide)) =
      scaled (2 * n + 1) (-1) := by
    by_cases h : n = 0
    · subst h
      rfl
    · rw [show (-53 : Int) = -(53 : Nat) from rfl, add_scaled h (by omega) .positive _ (by decide),
        show n * 2 ^ 53 + Sign.positive.apply ((2 ^ 52 : Nat) : Int) = (2 * n + 1) * 2 ^ 52 by
          show n * 2 ^ 53 + ((2 ^ 52 : Nat) : Int) = _
          omega]
      exact normalize_zeros (by omega) 52 (by decide)
  show (Float.Model.pack (UnpackedFloat.add Format.binary64 x.toModel.unpack
    (0.5 : Float).toModel.unpack)).unpack = _
  rw [hx, hhalf, hsum]
  exact unpack_pack_scaled (by omega) (by decide) (by decide)

end Float

/-! Zero. -/

section Zero
variable {x y : Float} {s : Sign} (hx : x.toModel.unpack = .zero s)
include hx

theorem unpack_zero_mul {E : Int} (hy : Within E y.toModel.unpack) :
    ∃ t, (x * y).toModel.unpack = .zero t := by
  have hproduct : ∃ t, UnpackedFloat.mul Format.binary64 x.toModel.unpack y.toModel.unpack = .zero t := by
    rw [hx]
    cases hu : y.toModel.unpack with
    | infinity => rw [hu] at hy; exact hy.elim
    | notANumber => rw [hu] at hy; exact hy.elim
    | zero t => exact ⟨_, rfl⟩
    | finite t m e h => exact ⟨_, rfl⟩
  obtain ⟨t, ht⟩ := hproduct
  refine ⟨t, ?_⟩
  show (Float.Model.pack (UnpackedFloat.mul Format.binary64 x.toModel.unpack y.toModel.unpack)).unpack = _
  rw [ht, unpack_pack_zero]

theorem unpack_zero_div {n : Int} (h : n ≠ 0) (hy : y.toModel.unpack = scaled n 0) :
    ∃ t, (x / y).toModel.unpack = .zero t := by
  refine ⟨s / signOf n, ?_⟩
  show (Float.Model.pack (UnpackedFloat.div Format.binary64 x.toModel.unpack y.toModel.unpack)).unpack = _
  rw [hx, hy, scaled_of_ne_zero h]
  exact unpack_pack_zero _

end Zero

/-! Sums that are rounded. -/

/-- Places to fill move the exponent of a number by no more than their count. -/
theorem within_round (s : Sign) {m k : Nat} {e E : Int} (hm : m < 2 ^ k) (he : -1074 ≤ e)
    (hE : e + 2 * (k + 52 : Nat) + 1 ≤ E) : Within E (UnpackedFloat.round Format.binary64 s m e) := by
  have hfilled : m <<< (e - Format.binary64.targetExponent (totalExponent m e)).toNat < 2 ^ (k + 52) := by
    rw [targetExponent_eq, Nat.shiftLeft_eq, Nat.pow_add]
    exact Nat.mul_lt_mul_of_lt_of_le hm (Nat.pow_le_pow_right (by decide) (by omega))
      (Nat.two_pow_pos _)
  rw [UnpackedFloat.round, decreaseExponent]
  exact within_roundWithAccuracy s hfilled (E := e) (by omega) he (by omega)

theorem within_normalize {n : Int} {k : Nat} {e E : Int} (hn : n.natAbs < 2 ^ k) (he : -1074 ≤ e)
    (hE : e + 2 * (k + 52 : Nat) + 1 ≤ E) :
    Within E (UnpackedFloat.normalize Format.binary64 n e .positive) := by
  unfold UnpackedFloat.normalize
  split
  · exact within_round _ (by omega) he hE
  · trivial
  · exact within_round _ (by omega) he hE

/-- An integer and a number below one half give a number. -/
theorem within_add_decimal {n : Int} (hn : n.natAbs < 2 ^ 53) (s : Sign) {m : Nat} (hpos : 0 < m)
    (hm : m < 2 ^ 53) :
    Within 971 (UnpackedFloat.add Format.binary64 (scaled n 0) (.finite s m (-54) hpos)) := by
  by_cases h : n = 0
  · subst h
    show (-54 : Int) ≤ 971
    decide
  · rw [show (-54 : Int) = -(54 : Nat) from rfl, add_scaled h hn s hpos (by decide)]
    have habs : (s.apply m).natAbs = m := by
      cases s
      · exact Int.natAbs_neg m
      · rfl
    exact within_normalize (k := 108) (by omega) (by decide) (by decide)

theorem within_shifted {x : Float} {n : Int} (hx : x.toModel.unpack = scaled n 0)
    (hn : n.natAbs < 2 ^ 53) :
    Within 971 (x - 0.49).toModel.unpack ∧ Within 971 (x + 0.49).toModel.unpack := by
  have hdecimal : (0.49 : Float).toModel.unpack = .finite .positive 8827055269646172 (-54) (by decide) := rfl
  constructor
  · refine within_unpack_pack (by decide) (by decide) ?_
    show Within 971 (UnpackedFloat.sub Format.binary64 x.toModel.unpack (0.49 : Float).toModel.unpack)
    rw [hx, hdecimal, sub_finite]
    exact within_add_decimal hn _ _ (by decide)
  · refine within_unpack_pack (by decide) (by decide) ?_
    show Within 971 (UnpackedFloat.add Format.binary64 x.toModel.unpack (0.49 : Float).toModel.unpack)
    rw [hx, hdecimal]
    exact within_add_decimal hn _ _ (by decide)

/-! Numbers taken apart. -/

def isNegative : Sign → Bool
  | .negative => true
  | .positive => false

theorem isNegative_ofBitVec (b : BitVec 1) : isNegative (Sign.ofBitVec b) = (b.toNat != 0) := by
  have hb : ∀ b : BitVec 1, isNegative (Sign.ofBitVec b) = (b.toNat != 0) := by decide
  exact hb b

/-- The bits of a number. -/
def word (x : Float) : BitVec Format.binary64.numBits := x.toModel.toBits.toBitVec

theorem ofFloat_eq_ofFields (x : Float) : Parts.ofFloat x = BinaryFormat.double.ofFields
    (unpackSign (word x)).toNat (unpackExponent (word x)).toNat (unpackMantissa (word x)).toNat := by
  rw [toNat_unpackSign, toNat_unpackExponent, toNat_unpackMantissa]
  rfl

/-- The parts of a finite number are its sign, its significand and its exponent. -/
theorem ofFloat_of_finite {x : Float} {s : Sign} {m : Nat} {e : Int} {hpos : 0 < m}
    (hx : x.toModel.unpack = .finite s m e hpos) :
    ∃ narrow, Parts.ofFloat x = .finite (isNegative s) ⟨m, e, narrow⟩ := by
  have hword : UnpackedFloat.unpack Format.binary64 (word x) = .finite s m e hpos := hx
  have htop : BinaryFormat.double.top = (-1#11).toNat := rfl
  have hbottom : 0 = (0#11).toNat := rfl
  have hlowest : BinaryFormat.double.lowest = -1074 := rfl
  rw [ofFloat_eq_ofFields, BinaryFormat.ofFields, ← isNegative_ofBitVec]
  generalize word x = b at *
  obtain ⟨-, ⟨_, hu⟩ | hu⟩ | ⟨-, hu⟩ | ⟨hzero, _, hu⟩ | ⟨hnotTop, hnotZero, _, hu⟩ := unpack_cases b
  · cases hu.symm.trans hword
  · cases hu.symm.trans hword
  · cases hu.symm.trans hword
  · injection hu.symm.trans hword with hs hm he
    subst hs hm he
    rw [if_neg (by rw [hzero]; decide), if_pos (by rw [hzero]; rfl), hlowest]
    exact ⟨_, rfl⟩
  · injection hu.symm.trans hword with hs hm he
    have hfraction : (1#1 ++ unpackMantissa b).toNat =
        twoPow BinaryFormat.double.fractionBits + (unpackMantissa b).toNat := by
      rw [BitVec.toNat_append, ← Nat.shiftLeft_add_eq_or_of_lt (BitVec.isLt _)]
      rfl
    have hexponent : -1074 + (((unpackExponent b).toNat : Int) - 1) =
        (unpackExponent b).toNat - 1075 := by omega
    rw [if_neg (fun h => hnotTop (BitVec.eq_of_toNat_eq (h.trans htop))),
      if_neg (fun h => hnotZero (BitVec.eq_of_toNat_eq (h.trans hbottom))), hlowest, hexponent, ← hs,
      ← hm, ← he, hfraction]
    exact ⟨_, rfl⟩

theorem isNegative_signOf (n : Int) : isNegative (signOf n) = decide (n < 0) := by
  unfold signOf
  split_ifs with h
  · exact (decide_eq_true h).symm
  · exact (decide_eq_false h).symm

theorem floor_significand (c : Nat) (narrow : Bool) :
    Binary.floor ⟨significand c, -1 - (52 - c.log2 : Nat), narrow⟩ = c / 2 := by
  rw [Binary.floor, Binary.numerator, Binary.denominator, twoPow_eq, twoPow_eq]
  dsimp only
  rw [show (-1 - ((52 - c.log2 : Nat) : Int)).toNat = 0 by omega,
    show (-(-1 - ((52 - c.log2 : Nat) : Int))).toNat = 52 - c.log2 + 1 by omega, Nat.pow_zero, Nat.mul_one,
    significand, Nat.pow_succ', Nat.mul_div_mul_right _ _ (Nat.two_pow_pos _)]

/-- Toward zero, a half more than an integer is that integer, but for negative ones the next. -/
theorem truncate_half {x : Float} {n : Int} (hx : x.toModel.unpack = scaled (2 * n + 1) (-1))
    (hn : n.natAbs < 2 ^ 51) : (Parts.ofFloat x).truncate = if 0 ≤ n then n else n + 1 := by
  rw [scaled_of_ne_zero (by omega)] at hx
  obtain ⟨narrow, hparts⟩ := ofFloat_of_finite hx
  rw [hparts, Parts.truncate, Parts.toInteger, floor_significand, isNegative_signOf, Parts.saturate]
  simp only [Bounds.int64, decide_eq_true_eq]
  split_ifs <;> omega

end Raster.Double
