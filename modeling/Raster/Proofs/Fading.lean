import Raster.Proofs.Channels
import Raster.Proofs.Mixing

/- Mixtures channel by channel. The mean of two values, rounded down, starts at the lower
   one and moves by a share of their difference (`weigh_of_le`); seen from the other value
   it is the mean of the opposite weight (`weigh_comm`). So it stays between the two and goes
   from one to the other with the weight, in numbers of 32 bits if the values have 16
   (`Fades.of_weigh`). The channels of a mixture are set one after another, each in its
   own bits (`get_setEach`), and without a gamma of the type each holds the mean of what
   it holds in both pixels (`get_mix`). So every channel fades from the background to the
   foreground, and nothing comes in beside the channels (`mix_fades`). -/
namespace Raster

/-! Weighted means. -/

section Weigh
variable {f b m n : Nat}

theorem weigh_comm (hm : m ≤ 255) : weigh f b m = weigh b f (255 - m) := by
  unfold weigh
  rw [Nat.sub_sub_self hm, Nat.add_comm]

/-- A mean lies above the lower value by a share of the difference. -/
theorem weigh_of_le (h : b ≤ f) (hm : m ≤ 255) : weigh f b m = b + (f - b) * m / 255 := by
  obtain ⟨d, rfl⟩ := Nat.exists_eq_add_of_le h
  have hsum : (b + d) * m + b * (255 - m) = 255 * b + d * m := by
    calc (b + d) * m + b * (255 - m)
        = b * (m + (255 - m)) + d * m := by rw [Nat.add_mul, Nat.mul_add]; omega
      _ = 255 * b + d * m := by rw [Nat.add_sub_cancel' hm, Nat.mul_comm b]
  unfold weigh
  rw [hsum, Nat.mul_add_div (by decide), Nat.add_sub_cancel_left]

theorem weigh_between_of_le (h : b ≤ f) (hm : m ≤ 255) : b ≤ weigh f b m ∧ weigh f b m ≤ f := by
  have hshare : (f - b) * m / 255 ≤ f - b := by
    apply Nat.div_le_of_le_mul
    calc (f - b) * m ≤ (f - b) * 255 := Nat.mul_le_mul_left _ hm
      _ = 255 * (f - b) := Nat.mul_comm ..
  rw [weigh_of_le h hm]
  omega

/-- A mean lies between both values. -/
theorem weigh_between (f b : Nat) (hm : m ≤ 255) :
    min f b ≤ weigh f b m ∧ weigh f b m ≤ max f b := by
  rcases Nat.le_total b f with h | h
  · rw [Nat.min_eq_right h, Nat.max_eq_left h]
    exact weigh_between_of_le h hm
  · rw [Nat.min_eq_left h, Nat.max_eq_right h, weigh_comm hm]
    exact weigh_between_of_le h (Nat.sub_le ..)

theorem weigh_mono (h : b ≤ f) (hmn : m ≤ n) (hn : n ≤ 255) : weigh f b m ≤ weigh f b n := by
  rw [weigh_of_le h (Nat.le_trans hmn hn), weigh_of_le h hn]
  exact Nat.add_le_add_left (Nat.div_le_div_right (Nat.mul_le_mul_left _ hmn)) b

theorem weigh_anti (h : f ≤ b) (hmn : m ≤ n) (hn : n ≤ 255) : weigh f b n ≤ weigh f b m := by
  rw [weigh_comm (Nat.le_trans hmn hn), weigh_comm hn]
  exact weigh_mono h (Nat.sub_le_sub_left hmn 255) (Nat.sub_le ..)

theorem weigh_zero (f b : Nat) : weigh f b 0 = b := by
  simp only [weigh, Nat.mul_zero, Nat.zero_add, Nat.sub_zero, Nat.mul_div_cancel b (show 0 < 255 by decide)]

theorem weigh_full (f b : Nat) : weigh f b 255 = f := by
  rw [weigh_comm (Nat.le_refl 255), Nat.sub_self, weigh_zero]

end Weigh

/-- The values `v` at the weights from 0 to 255 are the means of `f` in front of `b`, rounded down, and
go from `b` to `f`. -/
structure Fades (f b : Nat) (v : UInt8 → Nat) : Prop where
  mean : ∀ m, v m = (f * m.toNat + b * (255 - m.toNat)) / 255
  /-- Products and sum have 32 bits. -/
  fits : ∀ m : UInt8, f * m.toNat < 2 ^ 32 ∧ b * (255 - m.toNat) < 2 ^ 32 ∧
    f * m.toNat + b * (255 - m.toNat) < 2 ^ 32
  between : ∀ m, min f b ≤ v m ∧ v m ≤ max f b
  first : v 0 = b
  last : v 255 = f
  rises : b ≤ f → ∀ m n, m ≤ n → v m ≤ v n
  falls : f ≤ b → ∀ m n, m ≤ n → v n ≤ v m

/-- The means of values of 16 bits. -/
theorem Fades.of_weigh {f b : Nat} {v : UInt8 → Nat} (hf : f < 2 ^ 16) (hb : b < 2 ^ 16)
    (hv : ∀ m, v m = weigh f b m.toNat) : Fades f b v := by
  have hle : ∀ m : UInt8, m.toNat ≤ 255 := fun m => Nat.le_of_lt_succ m.toNat_lt
  refine ⟨hv, fun m => ?_, fun m => ?_, ?_, ?_, fun h m n hmn => ?_, fun h m n hmn => ?_⟩
  · have hfront : f * m.toNat ≤ 2 ^ 16 * 255 := Nat.mul_le_mul hf.le (hle m)
    have hback : b * (255 - m.toNat) ≤ 2 ^ 16 * 255 := Nat.mul_le_mul hb.le (Nat.sub_le ..)
    omega
  · rw [hv]
    exact weigh_between f b (hle m)
  · rw [hv]
    exact weigh_zero f b
  · rw [hv]
    exact weigh_full f b
  · rw [hv, hv]
    exact weigh_mono h (UInt8.le_iff_toNat_le.1 hmn) (hle n)
  · rw [hv, hv]
    exact weigh_anti h (UInt8.le_iff_toNat_le.1 hmn) (hle n)

namespace PixelType
variable {t : PixelType} {c : Channel} {p fg bg : Pixel} {g : Option Gamma}

/-! Channels that are set one after another. -/

theorem size_le (t : PixelType) : ∀ c ∈ t.channels, c.size ≤ 16 := by
  cases t <;> decide

/-- A value of a channel has 16 bits. -/
theorem get_lt_of_mem (hc : c ∈ t.channels) (p : Pixel) : c.get p < 2 ^ 16 :=
  Nat.lt_of_lt_of_le (c.get_lt p) (Nat.pow_le_pow_right (by decide) (size_le t c hc))

/-- Sets the channels `l`, one after another. -/
def setEach (v : Channel → Nat) (l : List Channel) (p : Pixel) : Pixel :=
  l.foldl (fun p d => d.set p (v d)) p

theorem get_setEach (hc : c ∈ t.channels) (v : Channel → Nat) {l : List Channel}
    (hl : ∀ d ∈ l, d ∈ t.channels) (p : Pixel) :
    c.get (setEach v l p) = if c ∈ l then v c % 2 ^ c.size else c.get p := by
  refine read_foldl (fun p => ?_) (fun d hd hdc p => ?_) p
  · rw [get_set hc hc, if_pos rfl]
  · rw [get_set hc (hl d hd), if_neg hdc.symm]

theorem Masked.setEach (hp : t.Masked p) (v : Channel → Nat) {l : List Channel}
    (hl : ∀ d ∈ l, d ∈ t.channels) : t.Masked (setEach v l p) := by
  induction l generalizing p with
  | nil => exact hp
  | cons d l ih =>
    obtain ⟨hd, hrest⟩ := List.forall_mem_cons.1 hl
    exact ih (hp.set hd _) hrest

/-! Mixtures. -/

section Mix
variable (ht : t.model ≠ some .palette) (hg : ∀ x ∈ g, x.pixelType ≠ t)
include ht hg

/-- Between the ends of the weights the channels are set to the means. -/
theorem mix_eq_setEach {m : UInt8} (h₀ : m ≠ 0) (h₁ : m ≠ 255) : mix t g fg bg m =
    setEach (fun c => weigh (c.get fg) (c.get bg) m.toNat) t.channels 0 := by
  have hnone : g.filter (·.pixelType == t) = none := by
    rw [Option.filter_eq_none_iff]
    intro x hx
    simpa using hg x hx
  simp only [mix, if_neg h₀, if_neg h₁, if_neg ht, hnone]
  rfl

theorem get_mix (hc : c ∈ t.channels) (m : UInt8) :
    c.get (mix t g fg bg m) = weigh (c.get fg) (c.get bg) m.toNat := by
  by_cases h₀ : m = 0
  · rw [h₀, mix_zero]
    exact (weigh_zero ..).symm
  by_cases h₁ : m = 255
  · rw [h₁, mix_full]
    exact (weigh_full ..).symm
  -- a mean of values of the channel fits it
  have hmean : weigh (c.get fg) (c.get bg) m.toNat < 2 ^ c.size := by
    have hle := (weigh_between (c.get fg) (c.get bg) (Nat.le_of_lt_succ m.toNat_lt)).2
    exact Nat.lt_of_le_of_lt hle (Nat.max_lt.2 ⟨c.get_lt fg, c.get_lt bg⟩)
  rw [mix_eq_setEach ht hg h₀ h₁, get_setEach hc _ (fun _ hd => hd), if_pos hc]
  exact Nat.mod_eq_of_lt hmean

/-- Without a gamma of its type every channel of a mixture fades from the background to the
foreground, and a proper mixture has no bits outside of the channels. -/
theorem mix_fades (fg bg : Pixel) :
    (∀ c ∈ t.channels, Fades (c.get fg) (c.get bg) fun m => c.get (mix t g fg bg m)) ∧
      ∀ m, m ≠ 0 → m ≠ 255 → t.Masked (mix t g fg bg m) := by
  refine ⟨fun c hc => ?_, fun m h₀ h₁ => ?_⟩
  · exact Fades.of_weigh (get_lt_of_mem hc fg) (get_lt_of_mem hc bg) (get_mix ht hg hc)
  · rw [mix_eq_setEach ht hg h₀ h₁]
    exact (masked_zero t).setEach _ (fun _ hd => hd)

end Mix

/-- With a gamma of another type: at weight 100 green has come from 63 to 38, and red from 0 to 12. -/
theorem mix_fades_rgb565 : rgb565.model ≠ some .palette ∧
    (∀ x ∈ some (⟨2.2, .g8⟩ : Gamma), x.pixelType ≠ rgb565) ∧
      (⟨.green, 5, 6⟩ : Channel).get (mix .rgb565 (some ⟨2.2, .g8⟩) 0xF81F 0x07E0 100) = 38 ∧
      (⟨.red, 11, 5⟩ : Channel).get (mix .rgb565 (some ⟨2.2, .g8⟩) 0xF81F 0x07E0 100) = 12 ∧
      rgb565.Masked (mix .rgb565 (some ⟨2.2, .g8⟩) 0xF81F 0x07E0 100) := by
  have hpalette : rgb565.model ≠ some .palette := by decide
  have hother : ∀ x ∈ some (⟨2.2, .g8⟩ : Gamma), x.pixelType ≠ rgb565 := by
    intro x hx
    obtain rfl := Option.mem_some.1 hx
    exact nofun
  obtain ⟨hfades, hmasked⟩ := mix_fades hpalette hother 0xF81F 0x07E0
  refine ⟨hpalette, hother, ?_, ?_, hmasked 100 (by decide) (by decide)⟩
  · exact ((hfades _ (by decide)).mean 100).trans (by decide)
  · exact ((hfades _ (by decide)).mean 100).trans (by decide)

end PixelType

end Raster
