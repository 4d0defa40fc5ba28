import Raster.Json.Number
import Raster.Proofs.Numerals

/- Numerals that have a value. A numeral has none if its double precision number is infinite,
   which takes a large power of ten. `Within E u` says of an unpacked number that it is
   zero, or finite with an exponent no greater than `E`. Rounding moves the exponent by no
   more than the width of the significand, so that a product of numbers within bounds is
   within their sum and twice that width; below the top exponent nothing is packed as
   infinity. A word of double precision is read by its fields (`unpack_cases`), and such a
   number is written by them (`pack_finite`). `Numeral.Modest` bounds the digits and the exponent of a numeral:
   `number?_isSome`. -/
namespace Raster.Decimal.Numeral

open Float.Model (Format UnpackedFloat totalExponent)
open Float.Model.UnpackedFloat

/-- Zero, or finite with an exponent no greater than `E`. -/
def Within (E : Int) : UnpackedFloat → Prop
  | .zero _ => True
  | .finite _ _ e _ => e ≤ E
  | .infinity _ => False
  | .notANumber => False

instance (E : Int) (u : UnpackedFloat) : Decidable (Within E u) := by
  unfold Within; split <;> infer_instance

theorem Within.isInf {E : Int} {u : UnpackedFloat} (h : Within E u) : u.isInf = false := by
  cases u with
  | infinity => exact h.elim
  | notANumber => rfl
  | zero => rfl
  | finite => rfl

/-! Rounding. -/

theorem log2_le_of_lt {m k : Nat} (hm : m < 2 ^ k) : m.log2 ≤ k := by
  by_cases h : m = 0
  · subst h
    exact Nat.zero_le k
  · exact Nat.le_of_lt ((Nat.log2_lt h).2 hm)

theorem mantissa_shiftRight_le (m : ExtendedMantissa) (n : Nat) :
    (m >>> n).mantissa ≤ m.mantissa := by
  show (n.repeat ExtendedMantissa.shiftRightOne m).mantissa ≤ m.mantissa
  induction n with
  | zero => exact Nat.le_refl _
  | succ n ih => exact Nat.le_trans (Nat.div_le_self _ 2) ih

theorem roundedMantissa_le (m : ExtendedMantissa) : m.roundedMantissa ≤ m.mantissa + 1 := by
  unfold ExtendedMantissa.roundedMantissa Accuracy.roundToNearestEven
  split <;> omega

theorem shiftToTargetExponent_mantissa_le (m : Nat) (e : Int) :
    (shiftToTargetExponent Format.binary64 m e .exact).1.mantissa ≤ m :=
  mantissa_shiftRight_le _ _

theorem targetExponent_eq (m : Nat) (e : Int) :
    Format.binary64.targetExponent (totalExponent m e) = max (m.log2 + 1 + e - 53) (-1074) := rfl

theorem shiftToTargetExponent_exponent_le {m k : Nat} {e E : Int} (hm : m < 2 ^ k) (he : e ≤ E)
    (hE : -1074 ≤ E) : (shiftToTargetExponent Format.binary64 m e .exact).2 ≤ E + k := by
  have hlog := log2_le_of_lt hm
  show e + ((Format.binary64.targetExponent (totalExponent m e) - e).toNat : Int) ≤ E + k
  rw [targetExponent_eq]
  omega

/-- A number is shifted to its place, rounded, and shifted again if that carries. -/
theorem roundWithAccuracy_eq (s : Sign) {m : Nat} {e : Int} {r : ExtendedMantissa × Int}
    (hr : shiftToTargetExponent Format.binary64
      (shiftToTargetExponent Format.binary64 m e .exact).1.roundedMantissa
      (shiftToTargetExponent Format.binary64 m e .exact).2 .exact = r) :
    roundWithAccuracy Format.binary64 s m e .exact = if h : r.1.mantissa = 0 then .zero s
      else .finite s r.1.mantissa r.2 (Nat.pos_of_ne_zero h) := by
  subst hr
  rfl

theorem within_roundWithAccuracy (s : Sign) {m k : Nat} {e E E' : Int} (hm : m < 2 ^ k)
    (he : e ≤ E) (hE : -1074 ≤ E) (hsum : E + 2 * k + 1 ≤ E') :
    Within E' (roundWithAccuracy Format.binary64 s m e .exact) := by
  have hfirst := shiftToTargetExponent_exponent_le hm he hE
  -- the rounding may carry into one more digit
  have hrounded : (shiftToTargetExponent Format.binary64 m e .exact).1.roundedMantissa < 2 ^ (k + 1) := by
    have hle := roundedMantissa_le (shiftToTargetExponent Format.binary64 m e .exact).1
    have hmantissa := shiftToTargetExponent_mantissa_le m e
    rw [Nat.pow_succ]
    omega
  have hsecond := shiftToTargetExponent_exponent_le hrounded hfirst (by omega)
  generalize hr : shiftToTargetExponent Format.binary64
    (shiftToTargetExponent Format.binary64 m e .exact).1.roundedMantissa _ .exact = r at hsecond
  rw [roundWithAccuracy_eq s hr]
  by_cases hzero : r.1.mantissa = 0
  · rw [dif_pos hzero]
    trivial
  · rw [dif_neg hzero]
    exact Int.le_trans hsecond (by omega)

/-! Packing. -/

/-- What a word of double precision stands for, by the field of its exponent. -/
theorem unpack_cases (b : BitVec Format.binary64.numBits) :
    (unpackExponent b = -1#_ ∧ ((∃ s, UnpackedFloat.unpack Format.binary64 b = .infinity s) ∨
      UnpackedFloat.unpack Format.binary64 b = .notANumber)) ∨
    (unpackExponent b = 0#_ ∧
      UnpackedFloat.unpack Format.binary64 b = .zero (Sign.ofBitVec (unpackSign b))) ∨
    (unpackExponent b = 0#_ ∧ ∃ h, UnpackedFloat.unpack Format.binary64 b =
      .finite (Sign.ofBitVec (unpackSign b)) (unpackMantissa b).toNat (-1074) h) ∨
    (unpackExponent b ≠ -1#_ ∧ unpackExponent b ≠ 0#_ ∧
      ∃ h, UnpackedFloat.unpack Format.binary64 b = .finite (Sign.ofBitVec (unpackSign b))
        (1#1 ++ unpackMantissa b).toNat ((unpackExponent b).toNat - 1075) h) := by
  by_cases htop : unpackExponent b = -1#_
  · refine Or.inl ⟨htop, ?_⟩
    by_cases hm : unpackMantissa b = 0#_
    · exact Or.inl ⟨_, (if_pos htop).trans (if_pos hm)⟩
    · exact Or.inr ((if_pos htop).trans (if_neg hm))
  by_cases hzero : unpackExponent b = 0#_
  · by_cases hm : unpackMantissa b = 0#_
    · exact Or.inr (Or.inl ⟨hzero, (if_neg htop).trans ((if_pos hzero).trans (dif_pos hm))⟩)
    · -- the exponent is the least one
      have hlowest : ((unpackExponent b).toNat : Int) - 1075 + 1 = -1074 := by
        rw [hzero]
        rfl
      refine Or.inr (Or.inr (Or.inl ⟨hzero, ?_⟩))
      exact hlowest ▸ ⟨_, (if_neg htop).trans ((if_pos hzero).trans (dif_neg hm))⟩
  · exact Or.inr (Or.inr (Or.inr ⟨htop, hzero, _, (if_neg htop).trans (if_neg hzero)⟩))

/-- A number below the top exponent is packed by its fields, as a normal one if it has all digits. -/
theorem pack_finite (s : Sign) {m : Nat} {e : Int} (hm : 0 < m) (he : e ≤ 971) :
    UnpackedFloat.pack Format.binary64 (.finite s m e hm) = if m.log2 + 1 = 53 then
      packComponents Format.binary64 s (BitVec.ofNat 11 (e + 1075).toNat) (BitVec.ofNat 52 m)
    else packComponents Format.binary64 s 0#11 (BitVec.ofNat 52 m) := by
  have hbiased : (e + (Format.binary64.exponentBias : Int) +
      Format.binary64.mantissaBitsWithoutImplicit).toNat = (e + 1075).toNat := by
    show (e + 1023 + 52).toNat = _
    omega
  have hfits : ¬ 2 ^ Format.binary64.exponentBits ≤ (e + 1075).toNat + 1 := by
    show ¬ 2048 ≤ _
    omega
  rw [← hbiased] at hfits ⊢
  exact if_neg hfits

/-- The exponent field of a number below the top exponent holds its exponent. -/
theorem toNat_biased {e : Int} (he : e ≤ 971) :
    (BitVec.ofNat 11 (e + 1075).toNat).toNat = (e + 1075).toNat := by
  rw [BitVec.toNat_ofNat]
  exact Nat.mod_eq_of_lt (by omega)

theorem biased_ne_top {e : Int} (he : e ≤ 971) : BitVec.ofNat 11 (e + 1075).toNat ≠ -1#11 := by
  intro heq
  have htop : (e + 1075).toNat = 2047 := (toNat_biased he).symm.trans (congrArg BitVec.toNat heq)
  omega

theorem significand_lt {x : Float.Model} {s : Sign} {m : Nat} {e : Int} {h : 0 < m}
    (hx : x.unpack = .finite s m e h) : m < 2 ^ 53 := by
  rcases unpack_cases x.toBits.toBitVec with
    ⟨-, ⟨_, hu⟩ | hu⟩ | ⟨-, hu⟩ | ⟨-, _, hu⟩ | ⟨-, -, _, hu⟩
  · cases hu.symm.trans hx
  · cases hu.symm.trans hx
  · cases hu.symm.trans hx
  · injection hu.symm.trans hx with _ hm
    rw [← hm]
    exact Nat.lt_trans (BitVec.isLt _) (by decide)
  · injection hu.symm.trans hx with _ hm
    rw [← hm]
    exact BitVec.isLt _

/-- What is unpacked is finite if the exponent field is not the top one. -/
theorem within_unpack {E : Int} (hE : -1074 ≤ E) {b : BitVec Format.binary64.numBits}
    (htop : unpackExponent b ≠ -1#_) (hle : ((unpackExponent b).toNat : Int) ≤ E + 1075) :
    Within E (UnpackedFloat.unpack Format.binary64 b) := by
  rcases unpack_cases b with ⟨h, -⟩ | ⟨-, hu⟩ | ⟨-, _, hu⟩ | ⟨-, -, _, hu⟩
  · exact absurd h htop
  · rw [hu]
    trivial
  · rw [hu]
    exact hE
  · rw [hu]
    show (_ : Int) ≤ E
    omega

/-- Packing keeps a number below the top exponent. -/
theorem within_unpack_pack {E : Int} (hlow : -1074 ≤ E) (hhigh : E ≤ 971) {u : UnpackedFloat}
    (hu : Within E u) : Within E (Float.Model.pack u).unpack := by
  show Within E (UnpackedFloat.unpack Format.binary64 (UnpackedFloat.pack Format.binary64 u))
  have hbottom : ((0#11).toNat : Int) ≤ E + 1075 := by
    show (0 : Int) ≤ E + 1075
    omega
  cases u with
  | infinity => exact hu.elim
  | notANumber => exact hu.elim
  | zero s =>
    show Within E (UnpackedFloat.unpack Format.binary64 (packComponents Format.binary64 s 0#11 0#52))
    apply within_unpack hlow <;> rw [unpackExponent_packComponents]
    · decide
    · exact hbottom
  | finite s m e hm =>
    have he : e ≤ E := hu
    rw [pack_finite s hm (by omega)]
    split
    · apply within_unpack hlow <;> rw [unpackExponent_packComponents]
      · exact biased_ne_top (by omega)
      · rw [toNat_biased (by omega)]
        omega
    · apply within_unpack hlow <;> rw [unpackExponent_packComponents]
      · decide
      · exact hbottom

/-! Arithmetic. -/

theorem within_mul {A B : Int} {x y : Float} (hx : Within A x.toModel.unpack)
    (hy : Within B y.toModel.unpack) (hlow : -1074 ≤ A + B) (hhigh : A + B + 213 ≤ 971) :
    Within (A + B + 213) (x * y).toModel.unpack := by
  refine within_unpack_pack (by omega) hhigh ?_
  cases hu : x.toModel.unpack with
  | infinity => rw [hu] at hx; exact hx.elim
  | notANumber => rw [hu] at hx; exact hx.elim
  | zero s =>
    cases hv : y.toModel.unpack with
    | infinity => rw [hv] at hy; exact hy.elim
    | notANumber => rw [hv] at hy; exact hy.elim
    | zero => trivial
    | finite => trivial
  | finite s m e hm =>
    cases hv : y.toModel.unpack with
    | infinity => rw [hv] at hy; exact hy.elim
    | notANumber => rw [hv] at hy; exact hy.elim
    | zero => trivial
    | finite t n f hn =>
      rw [hu] at hx
      rw [hv] at hy
      have he : e ≤ A := hx
      have hf : f ≤ B := hy
      have hmn : m * n < 2 ^ (53 + 53) := by
        rw [Nat.pow_add]
        exact Nat.mul_lt_mul_of_lt_of_lt (significand_lt hu) (significand_lt hv)
      exact within_roundWithAccuracy (s * t) hmn (show e + f ≤ A + B by omega) hlow (by omega)

theorem within_round (s : Sign) {m : Nat} (hm : m < 2 ^ 64) :
    Within 233 (UnpackedFloat.round Format.binary64 s m 0) := by
  have hshifted : m <<< (0 - max ((m.log2 : Int) + 1 + 0 - 53) (-1074)).toNat < 2 ^ (64 + 52) := by
    rw [Nat.shiftLeft_eq, Nat.pow_add]
    exact Nat.mul_lt_mul_of_lt_of_le hm (Nat.pow_le_pow_right (by decide) (by omega))
      (Nat.two_pow_pos _)
  unfold UnpackedFloat.round decreaseExponent
  rw [targetExponent_eq]
  exact within_roundWithAccuracy s hshifted (E := 0) (by omega) (by decide) (by decide)

theorem within_toFloat (n : UInt64) : Within 233 n.toFloat.toModel.unpack := by
  refine within_unpack_pack (by decide) (by decide) ?_
  show Within 233 (UnpackedFloat.normalize Format.binary64 (n.toNat : Int) 0 .positive)
  unfold UnpackedFloat.normalize
  split
  · rename_i hneg
    rw [Int.compare_eq_lt] at hneg
    omega
  · trivial
  · exact within_round .positive n.toNat_lt

theorem within_powerOfTen : ∀ k < 100, Within 276 (powerOfTen k).toModel.unpack := by
  decide +kernel

/-! Values. -/

/-- A negative power of ten makes no number infinite. -/
theorem scale_isSome_of_neg {x : Float} {e : Int} (he : e < 0) : (scale x e).isSome = true := by
  induction x, e using scale.induct with
  | case1 x e hlow hzero => rw [scale, if_pos hlow, if_pos hzero]; rfl
  | case2 x e hlow hzero ih =>
    rw [scale, if_pos hlow, if_neg hzero]
    exact ih (by omega)
  | case3 x e hlow hneg => rw [scale, if_neg hlow, if_pos hneg]; rfl
  | case4 x e hlow hneg => exact absurd he hneg
  | case5 x e hlow hneg => exact absurd he hneg
  | case6 x e hlow hneg => exact absurd he hneg
  | case7 x e hlow hneg => exact absurd he hneg

theorem scale_isSome {x : Float} {e : Int} (hx : Within 233 x.toModel.unpack) (he : e < 100) :
    (scale x e).isSome = true := by
  rcases Int.lt_or_le e 0 with hneg | hpos
  · exact scale_isSome_of_neg hneg
  · have hproduct := within_mul hx (within_powerOfTen e.natAbs (by omega)) (by decide) (by decide)
    have hfinite : (x * powerOfTen e.natAbs).isInf = false := hproduct.isInf
    rw [scale, if_neg (by omega), if_neg (by omega), if_pos (by omega)]
    simp only [hfinite]
    rfl

/-- The number of digits before the point and the exponent are together below a hundred. -/
def Modest (m : Numeral) : Prop :=
  m.whole.length + (m.exponent.elim 0 fun e => value e.digits) < 100

theorem length_absorb_le (n : Nat) (ds : List Digit) : (absorb n ds).2.length ≤ ds.length := by
  induction ds generalizing n with
  | nil => exact Nat.le_refl _
  | cons d ds ih =>
    unfold absorb
    split
    · exact Nat.le_succ_of_le (ih _)
    · exact Nat.le_refl _

theorem scaleBy_isSome (n : Nat) {e : Int} {k : Nat} {x : Option Exponent} (he : e ≤ k)
    (hx : k + (x.elim 0 fun x => value x.digits) < 100) : (scaleBy n e x).isSome = true := by
  cases x with
  | none => exact scale_isSome (within_toFloat _) (by rw [Option.elim_none] at hx; omega)
  | some x =>
    rw [Option.elim_some] at hx
    show (if 0x7fffffff < value x.digits then _ else _ : Option Float).isSome = true
    rw [if_neg (by omega)]
    refine scale_isSome (within_toFloat _) ?_
    unfold clampExponent
    split <;> omega

theorem size?_isSome {m : Numeral} (hm : m.Modest) : m.size?.isSome = true := by
  have hextra := length_absorb_le 0 m.whole
  exact scaleBy_isSome _ (by omega) hm

/-- A numeral of modest size has a value. -/
theorem number?_isSome {m : Numeral} (hm : m.Modest) : m.number?.isSome = true := by
  unfold number?
  dsimp only
  split
  · rfl
  · rw [Option.isSome_map]
    exact size?_isSome hm

/-! Integers. -/

theorem le_foldl_value (n : Nat) (ds : List Digit) :
    n ≤ ds.foldl (fun n d => 10 * n + d.val) n := by
  induction ds generalizing n with
  | nil => exact Nat.le_refl _
  | cons d ds ih =>
    have hrest := ih (10 * n + d.val)
    rw [List.foldl_cons]
    omega

/-- Digits are all taken up if their number fits 64 bits. -/
theorem absorb_eq {n : Nat} {ds : List Digit}
    (h : ds.foldl (fun n d => 10 * n + d.val) n < 2 ^ 64) :
    absorb n ds = (ds.foldl (fun n d => 10 * n + d.val) n, []) := by
  induction ds generalizing n with
  | nil => rfl
  | cons d ds ih =>
    rw [List.foldl_cons] at h ⊢
    have hle := le_foldl_value (10 * n + d.val) ds
    rw [absorb, if_pos (by omega), ih h]

theorem absorb_digits {n : Nat} (hn : n < 2 ^ 64) : absorb 0 (digits n) = (n, []) := by
  have hvalue : (digits n).foldl (fun n d => 10 * n + d.val) 0 = n := value_digits n
  rw [absorb_eq (by rw [hvalue]; exact hn), hvalue]

theorem ofNat_eq (n : Nat) : ofNat n = ofInt n := by
  simp [ofNat, ofInt]

/-- An integer is read as the one that was written. -/
theorem int?_ofInt {v : Int} (hlow : -0x8000000000000000 ≤ v) (hhigh : v < 0x8000000000000000) :
    (ofInt v).number?.bind Number.int? = some v := by
  have hnumber : (ofInt v).number? = some (signed (decide (v < 0)) v.natAbs) := by
    unfold number?
    rw [show (ofInt v).whole = digits v.natAbs from rfl, absorb_digits (by omega)]
    rfl
  rw [hnumber, Option.bind_some]
  rcases Int.lt_or_le v 0 with hneg | hpos
  · rw [decide_eq_true hneg, signed, if_neg (by simp), if_pos (by omega)]
    show some (Int64.ofInt (-(v.natAbs : Int))).toInt = some v
    rw [Int64.toInt_ofInt_of_le (by omega) (by omega)]
    congr 1
    omega
  · rw [decide_eq_false (by omega), signed, if_pos (by simp)]
    show some ((UInt64.ofNat v.natAbs).toNat : Int) = some v
    rw [UInt64.toNat_ofNat_of_lt' (show v.natAbs < 2 ^ 64 by omega)]
    congr 1
    omega

theorem modest_ofInt {v : Int} (hlow : -0x8000000000000000 ≤ v) (hhigh : v < 0x8000000000000000) :
    (ofInt v).Modest := by
  have hlen : (digits v.natAbs).length ≤ 20 := length_digits_le (by omega)
  show (digits v.natAbs).length + 0 < 100
  omega

end Raster.Decimal.Numeral
