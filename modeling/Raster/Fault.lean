/- Faults, bounded integers and counted loops.

   A computation of this library answers or stops with a `Fault`. Numbers are
   mathematical integers; where a result has to fit a machine word, `Bounds.check`
   lets it through or stops with `Fault.overflow`. `forRange` runs a step for each
   integer of a half-open range in order and stops at the first fault. -/
namespace Raster

/-- Why a computation stopped without an answer. -/
inductive Fault where
  /-- A number does not fit the width it must have. -/
  | overflow
  /-- An index lies outside of its buffer, table or pixmap. -/
  | outOfBounds
  /-- A quotient has divisor zero. -/
  | divisionByZero
  /-- A buffer is larger than an address space can hold. -/
  | outOfMemory
  deriving DecidableEq, Repr

/-- A closed range of integers. -/
structure Bounds where
  low : Int
  high : Int
  deriving DecidableEq, Repr

namespace Bounds

def int32 : Bounds := ⟨-0x80000000, 0x7fffffff⟩
def uint32 : Bounds := ⟨0, 0xffffffff⟩
def int64 : Bounds := ⟨-0x8000000000000000, 0x7fffffffffffffff⟩
def uint64 : Bounds := ⟨0, 0xffffffffffffffff⟩
def int128 : Bounds := ⟨-0x80000000000000000000000000000000, 0x7fffffffffffffffffffffffffffffff⟩

/-- `v` lies in the range. -/
def Holds (b : Bounds) (v : Int) : Prop := b.low ≤ v ∧ v ≤ b.high

instance (b : Bounds) (v : Int) : Decidable (b.Holds v) :=
  inferInstanceAs (Decidable (_ ∧ _))

/-- Passes `v` on if it lies in the range. -/
@[inline] def check (b : Bounds) (v : Int) : Except Fault Int :=
  if b.Holds v then .ok v else .error .overflow

theorem check_of_holds {b : Bounds} {v : Int} (h : b.Holds v) : b.check v = .ok v := if_pos h

theorem check_eq_ok_iff {b : Bounds} {v w : Int} : b.check v = .ok w ↔ b.Holds v ∧ v = w := by
  unfold check; split <;> simp [*]

end Bounds

/-- Passes a byte count or byte index on if it fits 64 bits. -/
@[inline] def size64 (n : Nat) : Except Fault Nat :=
  if n ≤ 0xffffffffffffffff then .ok n else .error .overflow

theorem size64_of_le {n : Nat} (h : n ≤ 0xffffffffffffffff) : size64 n = .ok n := if_pos h

/-- Runs `step` for `count` integers from `i` on, in order. -/
@[specialize] def forCount {σ : Type} (step : Int → σ → Except Fault σ) :
    Nat → Int → σ → Except Fault σ
  | 0, _, s => .ok s
  | n + 1, i, s =>
    match step i s with
    | .ok s => forCount step n (i + 1) s
    | .error e => .error e

/-- Runs `step` for every integer `i` with `lo ≤ i < hi`, in order. -/
@[inline] def forRange {σ : Type} (lo hi : Int) (s : σ) (step : Int → σ → Except Fault σ) :
    Except Fault σ :=
  forCount step (hi - lo).toNat lo s

theorem forCount_succ {σ : Type} (step : Int → σ → Except Fault σ) (n : Nat) (i : Int) (s : σ) :
    forCount step (n + 1) i s = (step i s >>= forCount step n (i + 1)) := by
  rw [forCount]; cases step i s <;> rfl

theorem forRange_of_le {σ : Type} {lo hi : Int} (h : hi ≤ lo) (s : σ)
    (step : Int → σ → Except Fault σ) : forRange lo hi s step = .ok s := by
  unfold forRange; rw [Int.toNat_of_nonpos (by omega)]; rfl

end Raster
