import Mathlib.Data.Nat.Bitwise
import Raster.Bits

/- The bits of a buffer. `Bytes.bit b i` is bit `i` of the stream that the buffer `b`
   stands for, false beyond the end. Every access of `Raster.Bits` is said bit by bit:
   what a read sees (`testBit_window`), and which bits a write, a stamp or a copy leaves
   (`bit_overwrite`, `bit_stamp`, `bit_copyRun`). Buffers of one size with the same bits
   are equal (`ext_bit`), so that these lemmas fix the buffers. -/
namespace Raster

theorem twoPow_eq (k : Nat) : twoPow k = 2 ^ k := by rw [twoPow, Nat.one_shiftLeft]

theorem testBit_field (acc pos len k : Nat) :
    (field acc pos len).testBit k = (decide (k < len) && acc.testBit (pos + k)) := by
  simp only [field, twoPow_eq, Nat.testBit_mod_two_pow, Nat.testBit_div_two_pow, Nat.add_comm pos]

/-- The spliced bits come from the value, all others stay. -/
theorem testBit_splice (acc pos len v k : Nat) :
    (splice acc pos len v).testBit k =
      if pos ≤ k ∧ k < pos + len then v.testBit (k - pos) else acc.testBit k := by
  have hlow : acc % 2 ^ pos < 2 ^ pos := Nat.mod_lt _ (Nat.two_pow_pos _)
  have hv : v % 2 ^ len < 2 ^ len := Nat.mod_lt _ (Nat.two_pow_pos _)
  have hsum : splice acc pos len v =
      2 ^ pos * (2 ^ len * (acc / 2 ^ (pos + len)) + v % 2 ^ len) + acc % 2 ^ pos := by
    simp only [splice, twoPow_eq, Nat.pow_add, Nat.mul_add, Nat.mul_assoc]
    omega
  rw [hsum, Nat.testBit_two_pow_mul_add _ hlow, Nat.testBit_two_pow_mul_add _ hv,
    Nat.testBit_mod_two_pow, Nat.testBit_mod_two_pow, Nat.testBit_div_two_pow]
  by_cases h₁ : k < pos
  · simp [h₁, show ¬ pos ≤ k by omega]
  · by_cases h₂ : k - pos < len
    · simp [h₁, h₂, show pos ≤ k by omega, show k < pos + len by omega]
    · simp only [h₁, h₂, if_false, show ¬ (pos ≤ k ∧ k < pos + len) by omega]
      congr 1
      omega

namespace Bytes

/-- Bit `i` of the stream. -/
def bit (b : Bytes) (i : Nat) : Bool := (b[i / 8]?.getD 0).toNat.testBit (i % 8)

/-- Buffers of one size with the same bits are equal. -/
theorem ext_bit {b c : Bytes} (hs : b.size = c.size) (h : ∀ i, b.bit i = c.bit i) : b = c := by
  refine Array.ext hs (fun i hb hc => UInt8.toNat.inj (Nat.eq_of_testBit_eq (fun k => ?_)))
  -- bit `k` of byte `i` is bit `8 * i + k` of the stream
  by_cases hk : k < 8
  · have hi := h (8 * i + k)
    rw [bit, bit, show (8 * i + k) / 8 = i by omega, show (8 * i + k) % 8 = k by omega] at hi
    simpa [hb, hc] using hi
  · have hpow : 2 ^ 8 ≤ 2 ^ k := Nat.pow_le_pow_right (by omega) (by omega)
    rw [Nat.testBit_lt_two_pow (Nat.lt_of_lt_of_le (UInt8.toNat_lt _) hpow),
      Nat.testBit_lt_two_pow (Nat.lt_of_lt_of_le (UInt8.toNat_lt _) hpow)]

theorem bit_setIfInBounds (b : Bytes) (i : Nat) (x : UInt8) (k : Nat) :
    bit (b.setIfInBounds i x) k =
      if k / 8 = i ∧ i < b.size then x.toNat.testBit (k % 8) else b.bit k := by
  rw [bit, bit, Array.getElem?_setIfInBounds]
  by_cases h : i = k / 8
  · subst h
    by_cases hs : k / 8 < b.size <;> simp [hs]
  · simp [h, Ne.symm h]

/-! Numbers in a buffer, lowest byte first. -/

theorem testBit_readLE (b : Bytes) (i n k : Nat) :
    (b.readLE i n).testBit k = (decide (k < 8 * n) && b.bit (8 * i + k)) := by
  induction n generalizing i k with
  | zero => simp [readLE]
  | succ n ih =>
    have hx : (b[i]?.getD 0).toNat < 2 ^ 8 := UInt8.toNat_lt _
    rw [readLE, Nat.add_comm, show (256 : Nat) = 2 ^ 8 from rfl,
      Nat.testBit_two_pow_mul_add _ hx]
    by_cases hk : k < 8
    · simp [bit, hk, show k < 8 * (n + 1) by omega, show (8 * i + k) / 8 = i by omega,
        show (8 * i + k) % 8 = k by omega]
    · rw [if_neg hk, ih, show 8 * (i + 1) + (k - 8) = 8 * i + k by omega]
      congr 1
      exact decide_eq_decide.2 (by omega)

@[simp] theorem size_writeLE (b : Bytes) (i n v : Nat) : (b.writeLE i n v).size = b.size := by
  induction n generalizing b i v with
  | zero => rfl
  | succ n ih => rw [writeLE, ih, Array.size_setIfInBounds]

theorem bit_writeLE {b : Bytes} {i n : Nat} (h : i + n ≤ b.size) (v k : Nat) :
    (b.writeLE i n v).bit k =
      if 8 * i ≤ k ∧ k < 8 * (i + n) then v.testBit (k - 8 * i) else b.bit k := by
  induction n generalizing b i v with
  | zero => rw [writeLE, if_neg (by omega)]
  | succ n ih =>
    rw [writeLE, ih (by rw [Array.size_setIfInBounds]; omega), bit_setIfInBounds]
    by_cases h₁ : 8 * (i + 1) ≤ k ∧ k < 8 * (i + 1 + n)
    · rw [if_pos h₁, if_pos (by omega), show (256 : Nat) = 2 ^ 8 from rfl,
        Nat.testBit_div_two_pow]
      congr 1
      omega
    · rw [if_neg h₁]
      by_cases h₂ : k / 8 = i
      · rw [if_pos ⟨h₂, by omega⟩, if_pos (by omega), show k - 8 * i = k % 8 by omega]
        rw [UInt8.toNat_ofNat', Nat.testBit_mod_two_pow,
          decide_eq_true (by omega), Bool.true_and]
      · rw [if_neg (by omega), if_neg (by omega)]

/-! Fields. -/

/-- The `len` bits from `pos` on as a number. -/
def window (b : Bytes) (pos len : Nat) : Nat :=
  field (b.readLE (pos / 8) (byteCount (pos % 8 + len))) (pos % 8) len

/-- The buffer with the `len` bits from `pos` on replaced by the low bits of `v`. -/
def overwrite (b : Bytes) (pos len v : Nat) : Bytes :=
  let n := byteCount (pos % 8 + len)
  b.writeLE (pos / 8) n (splice (b.readLE (pos / 8) n) (pos % 8) len v)

section Fields
variable {b : Bytes} {pos len : Nat}

theorem readBits_eq (h : pos + len ≤ 8 * b.size) : b.readBits pos len = .ok (b.window pos len) :=
  if_pos (by unfold byteCount; omega)

theorem writeBits_eq (h : pos + len ≤ 8 * b.size) (v : Nat) :
    b.writeBits pos len v = .ok (b.overwrite pos len v) :=
  if_pos (by unfold byteCount; omega)

theorem testBit_window (b : Bytes) (pos len k : Nat) :
    (b.window pos len).testBit k = (decide (k < len) && b.bit (pos + k)) := by
  rw [window, testBit_field, testBit_readLE]
  by_cases hk : k < len
  · rw [show 8 * (pos / 8) + (pos % 8 + k) = pos + k by omega,
      decide_eq_true (show pos % 8 + k < 8 * byteCount (pos % 8 + len) by unfold byteCount; omega),
      Bool.true_and]
  · simp [hk]

theorem window_lt (b : Bytes) (pos len : Nat) : b.window pos len < 2 ^ len := by
  rw [window, field, twoPow_eq, twoPow_eq]
  exact Nat.mod_lt _ (Nat.two_pow_pos _)

/-- Windows with the same bits hold the same number. -/
theorem window_congr {c : Bytes} {pos' : Nat}
    (h : ∀ k, k < len → b.bit (pos + k) = c.bit (pos' + k)) :
    b.window pos len = c.window pos' len := by
  apply Nat.eq_of_testBit_eq
  intro k
  rw [testBit_window, testBit_window]
  by_cases hk : k < len
  · rw [h k hk]
  · simp [hk]

@[simp] theorem size_overwrite (b : Bytes) (pos len v : Nat) :
    (b.overwrite pos len v).size = b.size := size_writeLE ..

theorem bit_overwrite (h : pos + len ≤ 8 * b.size) (v k : Nat) :
    (b.overwrite pos len v).bit k =
      if pos ≤ k ∧ k < pos + len then v.testBit (k - pos) else b.bit k := by
  have hn : pos / 8 + byteCount (pos % 8 + len) ≤ b.size := by unfold byteCount; omega
  have hfield : pos % 8 + len ≤ 8 * byteCount (pos % 8 + len) := by unfold byteCount; omega
  rw [overwrite, bit_writeLE hn, testBit_splice, testBit_readLE]
  by_cases h₁ : pos ≤ k ∧ k < pos + len
  · rw [if_pos (by omega), if_pos (by omega), if_pos h₁]
    congr 1
    omega
  · rw [if_neg h₁]
    by_cases h₂ : 8 * (pos / 8) ≤ k ∧ k < 8 * (pos / 8 + byteCount (pos % 8 + len))
    · rw [if_pos h₂, if_neg (by omega), show 8 * (pos / 8) + (k - 8 * (pos / 8)) = k by omega,
        decide_eq_true (by omega), Bool.true_and]
    · rw [if_neg h₂]

theorem window_overwrite_self (h : pos + len ≤ 8 * b.size) (v : Nat) :
    (b.overwrite pos len v).window pos len = v % 2 ^ len := by
  apply Nat.eq_of_testBit_eq
  intro k
  rw [testBit_window, bit_overwrite h, Nat.testBit_mod_two_pow]
  by_cases hk : k < len
  · rw [if_pos (by omega), Nat.add_sub_cancel_left]
  · simp [hk]

theorem window_overwrite_of_apart {pos' len' : Nat} (h : pos + len ≤ 8 * b.size) (v : Nat)
    (ha : pos' + len' ≤ pos ∨ pos + len ≤ pos') :
    (b.overwrite pos len v).window pos' len' = b.window pos' len' :=
  window_congr (fun k hk => by rw [bit_overwrite h, if_neg (by omega)])

end Fields

/-! Runs of bytes. -/

@[simp] theorem size_stamp (b : Bytes) (i size v count : Nat) :
    (b.stamp i size v count).size = b.size := by
  induction count generalizing b i with
  | zero => rfl
  | succ n ih => rw [stamp, ih, size_writeLE]

/-- A stamped bit comes from the place in the pattern that it has in its copy. -/
theorem bit_stamp {b : Bytes} {i size count : Nat} (h : i + count * size ≤ b.size) (v k : Nat) :
    (b.stamp i size v count).bit k =
      if 8 * i ≤ k ∧ k < 8 * (i + count * size) then v.testBit ((k - 8 * i) % (8 * size))
      else b.bit k := by
  induction count generalizing b i with
  | zero => rw [stamp, if_neg (by omega)]
  | succ n ih =>
    have hsucc : (n + 1) * size = n * size + size := Nat.succ_mul n size
    rw [hsucc] at h ⊢
    rw [stamp, ih (by rw [size_writeLE]; omega), bit_writeLE (by omega)]
    -- the bit lies in a later copy, in this one or in none
    by_cases h₁ : 8 * (i + size) ≤ k ∧ k < 8 * (i + size + n * size)
    · rw [if_pos h₁, if_pos (by omega),
        show k - 8 * i = k - 8 * (i + size) + 8 * size by omega, Nat.add_mod_right]
    · rw [if_neg h₁]
      by_cases h₂ : 8 * i ≤ k ∧ k < 8 * (i + size)
      · rw [if_pos h₂, if_pos (by omega), Nat.mod_eq_of_lt (by omega)]
      · rw [if_neg h₂, if_neg (by omega)]

@[simp] theorem size_copyRun (b src : Bytes) (i j count : Nat) :
    (b.copyRun src i j count).size = b.size := by
  induction count generalizing b i j with
  | zero => rfl
  | succ n ih => rw [copyRun, ih, Array.size_setIfInBounds]

theorem bit_copyRun {b : Bytes} {i count : Nat} (h : i + count ≤ b.size) (src : Bytes) (j k : Nat) :
    (b.copyRun src i j count).bit k =
      if 8 * i ≤ k ∧ k < 8 * (i + count) then src.bit (8 * j + (k - 8 * i)) else b.bit k := by
  induction count generalizing b i j with
  | zero => rw [copyRun, if_neg (by omega)]
  | succ n ih =>
    rw [copyRun, ih (by rw [Array.size_setIfInBounds]; omega), bit_setIfInBounds]
    by_cases h₁ : 8 * (i + 1) ≤ k ∧ k < 8 * (i + 1 + n)
    · rw [if_pos h₁, if_pos (by omega)]
      congr 1
      omega
    · rw [if_neg h₁]
      by_cases h₂ : k / 8 = i
      · rw [if_pos ⟨h₂, by omega⟩, if_pos (by omega), bit,
          show (8 * j + (k - 8 * i)) / 8 = j by omega,
          show (8 * j + (k - 8 * i)) % 8 = k % 8 by omega]
      · rw [if_neg (by omega), if_neg (by omega)]

end Bytes

end Raster
