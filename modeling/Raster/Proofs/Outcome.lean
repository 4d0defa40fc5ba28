import Raster.Error

/- What a computation answers. Two judgements on a computation `x` and a property `P`
   of answers: `Ensures x P` says that `x` answers nothing without `P`, `Yields x P` that
   it answers and its answer has `P`; a third one, `Stops x`, says that it does not answer.
   Each has one rule for every way in which the library builds computations: a bind, a
   branch, a fold and a counted loop. A loop rule takes the invariant at the index of the
   step; a loop stops if one of its steps does after whatever the others ensure. -/
namespace Raster

theorem bind_eq_ok {ε α β : Type} {x : Except ε α} {f : α → Except ε β} {b : β} :
    (x >>= f) = .ok b ↔ ∃ a, x = .ok a ∧ f a = .ok b := by
  cases x <;> simp [bind, Except.bind]

@[simp] theorem ok_bind {ε α β : Type} (a : α) (f : α → Except ε β) :
    ((Except.ok a : Except ε α) >>= f) = f a := rfl

@[simp] theorem pure_eq_ok {ε α : Type} (a : α) : (pure a : Except ε α) = .ok a := rfl

/-- `x` answers nothing without `P`. -/
structure Ensures {ε α : Type} (x : Except ε α) (P : α → Prop) : Prop where
  answer : ∀ a, x = .ok a → P a

namespace Ensures
variable {ε α β : Type} {x : Except ε α} {P Q : α → Prop} {R : β → Prop}

theorem ok {a : α} (h : P a) : Ensures (.ok a : Except ε α) P := by
  refine ⟨fun b hb => ?_⟩
  cases hb
  exact h

theorem error (e : ε) (P : α → Prop) : Ensures (.error e) P := ⟨fun _ h => nomatch h⟩

theorem mono (hx : Ensures x P) (h : ∀ a, P a → Q a) : Ensures x Q :=
  ⟨fun a ha => h a (hx.answer a ha)⟩

theorem bind {f : α → Except ε β} (hx : Ensures x P) (hf : ∀ a, P a → Ensures (f a) R) :
    Ensures (x >>= f) R := by
  refine ⟨fun b hb => ?_⟩
  obtain ⟨a, ha, hab⟩ := bind_eq_ok.1 hb
  exact (hf a (hx.answer a ha)).answer b hab

/-- Bind where nothing needs to be known of the first answer. -/
theorem bind_any {f : α → Except ε β} (hf : ∀ a, Ensures (f a) R) : Ensures (x >>= f) R :=
  bind (P := fun _ => True) ⟨fun _ _ => trivial⟩ (fun a _ => hf a)

theorem ite {c : Prop} [Decidable c] {y : Except ε α} (hx : c → Ensures x P)
    (hy : ¬c → Ensures y P) : Ensures (if c then x else y) P := by
  by_cases h : c
  · rw [if_pos h]; exact hx h
  · rw [if_neg h]; exact hy h

/-- Faults become failures, answers stay. -/
theorem lift {x : Except Fault α} (hx : Ensures x P) :
    Ensures (liftM x : Except Failure α) P := by
  refine ⟨fun a ha => ?_⟩
  cases x with
  | ok _ => cases ha; exact hx.answer _ rfl
  | error e => cases ha

theorem foldlM {ι : Type} {f : α → ι → Except ε α} (hf : ∀ a i, P a → Ensures (f a i) P)
    (l : List ι) (a : α) (ha : P a) : Ensures (l.foldlM f a) P := by
  induction l generalizing a with
  | nil => exact ok ha
  | cons i l ih =>
    rw [List.foldlM_cons]
    apply bind (hf a i ha)
    intro b hb
    exact ih b hb

theorem forCount {step : Int → α → Except Fault α} (hstep : ∀ i a, P a → Ensures (step i a) P)
    (n : Nat) (i : Int) (a : α) (ha : P a) : Ensures (Raster.forCount step n i a) P := by
  induction n generalizing i a with
  | zero => exact ok ha
  | succ n ih =>
    rw [forCount_succ]
    apply bind (hstep i a ha)
    intro b hb
    exact ih (i + 1) b hb

theorem forRange {step : Int → α → Except Fault α} {lo hi : Int} {a : α}
    (hstep : ∀ i a, P a → Ensures (step i a) P) (ha : P a) :
    Ensures (Raster.forRange lo hi a step) P :=
  forCount hstep _ _ _ ha

end Ensures

/-- `x` answers, and its answer has `P`. -/
def Yields {ε α : Type} (x : Except ε α) (P : α → Prop) : Prop := ∃ a, x = .ok a ∧ P a

namespace Yields
variable {ε α β : Type} {x : Except ε α} {P Q : α → Prop} {R : β → Prop}

theorem ok {a : α} (h : P a) : Yields (.ok a : Except ε α) P := ⟨a, rfl, h⟩

theorem mono (hx : Yields x P) (h : ∀ a, P a → Q a) : Yields x Q := by
  obtain ⟨a, ha, hp⟩ := hx
  exact ⟨a, ha, h a hp⟩

theorem bind {f : α → Except ε β} (hx : Yields x P) (hf : ∀ a, P a → Yields (f a) R) :
    Yields (x >>= f) R := by
  obtain ⟨a, rfl, hp⟩ := hx
  exact hf a hp

/-- Computations of which the answer is determined agree. -/
theorem agree {y : Except ε α} (hx : Yields x P) (hy : Yields y P)
    (hP : ∀ a b, P a → P b → a = b) : ∃ a, x = .ok a ∧ y = .ok a := by
  obtain ⟨a, ha, hpa⟩ := hx
  obtain ⟨b, hb, hpb⟩ := hy
  exact ⟨a, ha, hP a b hpa hpb ▸ hb⟩

theorem foldlM {ι : Type} {f : α → ι → Except ε α} (l : List ι)
    (hf : ∀ i ∈ l, ∀ a, P a → Yields (f a i) P) {a : α} (ha : P a) : Yields (l.foldlM f a) P := by
  induction l generalizing a with
  | nil => exact ok ha
  | cons i l ih =>
    rw [List.foldlM_cons]
    apply bind (hf i (List.mem_cons_self ..) a ha)
    intro b hb
    exact ih (fun j hj => hf j (List.mem_cons_of_mem _ hj)) hb

theorem forCount {step : Int → α → Except Fault α} (I : Int → α → Prop) (n : Nat) (i : Int) (a : α)
    (hstep : ∀ j a, i ≤ j → j < i + n → I j a → Yields (step j a) (I (j + 1))) (ha : I i a) :
    Yields (Raster.forCount step n i a) (I (i + n)) := by
  induction n generalizing i a with
  | zero =>
    apply ok
    simpa using ha
  | succ n ih =>
    rw [forCount_succ]
    apply bind (hstep i a (Int.le_refl i) (by omega) ha)
    intro b hb
    have h := ih (i + 1) b (fun j c h₁ h₂ => hstep j c (by omega) (by omega)) hb
    rwa [show i + 1 + (n : Int) = i + ((n + 1 : Nat) : Int) by omega] at h

/-- The invariant holds at the first index and every step carries it to the next one. -/
theorem forRange {step : Int → α → Except Fault α} {lo hi : Int} {a : α} (I : Int → α → Prop)
    (ha : I lo a)
    (hstep : ∀ i a, lo ≤ i → i < hi → I i a → Yields (step i a) (I (i + 1))) :
    Yields (Raster.forRange lo hi a step) (I (max lo hi)) := by
  have h := forCount I (hi - lo).toNat lo a (fun i a h₁ h₂ => hstep i a h₁ (by omega)) ha
  rwa [show lo + ((hi - lo).toNat : Int) = max lo hi by omega] at h

end Yields

/-- `x` has no answer. -/
def Stops {ε α : Type} (x : Except ε α) : Prop := ∃ e, x = .error e

namespace Stops
variable {ε α β : Type} {x : Except ε α} {f : α → Except ε β} {P : α → Prop}

theorem error (e : ε) : Stops (.error e : Except ε α) := ⟨e, rfl⟩

theorem check {b : Bounds} {v : Int} (h : ¬ b.Holds v) : Stops (b.check v) := ⟨.overflow, if_neg h⟩

theorem bind_first (hx : Stops x) (f : α → Except ε β) : Stops (x >>= f) := by
  obtain ⟨e, rfl⟩ := hx
  exact ⟨e, rfl⟩

theorem bind (hx : Ensures x P) (hf : ∀ a, P a → Stops (f a)) : Stops (x >>= f) := by
  cases x with
  | error e => exact ⟨e, rfl⟩
  | ok a => exact hf a (hx.answer a rfl)

theorem foldlM {ι : Type} {f : α → ι → Except ε α} (hf : ∀ a i, P a → Ensures (f a i) P)
    {l : List ι} {a : α} (ha : P a) {i : ι} (hi : i ∈ l) (hstop : ∀ a, P a → Stops (f a i)) :
    Stops (l.foldlM f a) := by
  induction l generalizing a with
  | nil => cases hi
  | cons j l ih =>
    rw [List.foldlM_cons]
    rcases List.mem_cons.1 hi with rfl | hi
    · exact bind_first (hstop a ha) _
    · exact bind (hf a j ha) (fun b hb => ih hb hi)

theorem forCount {step : Int → α → Except Fault α} (hstep : ∀ i a, P a → Ensures (step i a) P)
    {n : Nat} {i j : Int} {a : α} (ha : P a) (h₀ : i ≤ j) (h₁ : j < i + n)
    (hstop : ∀ a, P a → Stops (step j a)) : Stops (Raster.forCount step n i a) := by
  induction n generalizing i a with
  | zero => omega
  | succ n ih =>
    rw [forCount_succ]
    by_cases hij : i = j
    · subst hij
      exact bind_first (hstop a ha) _
    · exact bind (hstep i a ha) (fun b hb => ih hb (by omega) (by omega))

theorem forRange {step : Int → α → Except Fault α} (hstep : ∀ i a, P a → Ensures (step i a) P)
    {lo hi j : Int} {a : α} (ha : P a) (h₀ : lo ≤ j) (h₁ : j < hi)
    (hstop : ∀ a, P a → Stops (step j a)) : Stops (Raster.forRange lo hi a step) :=
  forCount hstep ha h₀ (by omega) hstop

end Stops

section Failure
variable {α : Type} {P : α → Prop} {e : Fault} {step : Int → α → Except Fault α}

/-- A loop stops with `e` if every step answers or stops with it, and one step always stops. -/
theorem forCount_error (n : Nat) (i : Int) (a : α) (ha : P a)
    (hstep : ∀ i a, P a → step i a = .error e ∨ Yields (step i a) P)
    (hstop : ∃ j, i ≤ j ∧ j < i + n ∧ ∀ a, P a → step j a = .error e) :
    Raster.forCount step n i a = .error e := by
  induction n generalizing i a with
  | zero =>
    obtain ⟨j, h₀, h₁, _⟩ := hstop
    omega
  | succ n ih =>
    obtain ⟨j, h₀, h₁, hj⟩ := hstop
    rw [forCount_succ]
    rcases hstep i a ha with herr | hok
    · rw [herr]
      rfl
    · obtain ⟨c, hc, hP⟩ := hok
      -- this step answers, so the one that stops is still to come
      have hne : j ≠ i := by
        intro hji
        rw [hji] at hj
        rw [hj a ha] at hc
        cases hc
      rw [hc, ok_bind]
      exact ih (i + 1) c hP ⟨j, by omega, by omega, hj⟩

theorem forRange_error {lo hi j : Int} {a : α} (ha : P a)
    (hstep : ∀ i a, P a → step i a = .error e ∨ Yields (step i a) P) (h₀ : lo ≤ j) (h₁ : j < hi)
    (hj : ∀ a, P a → step j a = .error e) : Raster.forRange lo hi a step = .error e :=
  forCount_error _ _ _ ha hstep ⟨j, h₀, by omega, hj⟩

end Failure

end Raster
