import Raster.Proofs.Channels

/- Colours and pixels there and back. A value that goes to at least as many bits and back is
   what it was: the rounding to the finer depth moves it by less than half a step of the
   coarser one, and the rounding back undoes that (`rescale_rescale`). Channel by channel
   that is all there is to say for RGB, gray and palette types (`amount_decode`,
   `load?_encode`); gray values are their own luma, and inks bring back the part of the
   colour that they were separated from (`Rgb.ink_separate`). So a type with deep channels
   keeps every colour (`Wide.keeps_colours`), and a pixel with shallow ones survives a detour
   through RGBA8888 (`convert_rgba8888_convert`). -/
namespace Raster

/-- Rounding to a finer scale and back to the coarser one changes nothing. -/
theorem div_rounded_back {v n m : Nat} (hn : 0 < n) (h : n < m) :
    ((v * m + n / 2) / n * n + m / 2) / m = v := by
  have hdiv := Nat.div_add_mod (v * m + n / 2) n
  have hmod := Nat.mod_lt (v * m + n / 2) hn
  rw [Nat.mul_comm] at hdiv
  -- the inner quotient times `n` is within `n / 2` of `v * m`, hence within `m / 2`
  apply Nat.div_eq_of_lt_le
  · omega
  · rw [Nat.succ_mul]
    omega

theorem rescale_rescale {v n m : Nat} (hn : 1 ≤ n) (hnm : n ≤ m) (hv : v < 2 ^ n) :
    rescale (rescale v n m) m n = v := by
  by_cases h : n = m
  · rw [h, rescale_self, rescale_self]
  · have hpow : 2 ^ n < 2 ^ m := Nat.pow_lt_pow_right (by decide) (by omega)
    have htop := two_pow_sub_one_pos hn
    rw [rescale_of_ne (Ne.symm h) (rescale_lt hn hv), rescale_of_ne h hv]
    exact div_rounded_back htop (by omega)

namespace Rgb

/-- A gray colour is as bright as each of its parts. -/
theorem luma_gray (v : UInt8) : luma ⟨v, v, v⟩ = v.toNat := by
  show (299 * v.toNat + 587 * v.toNat + 114 * v.toNat + 500) / 1000 = v.toNat
  omega

/-- What an ink leaves of the light that the key lets through is the part it was separated
from. -/
theorem ink_separate {top v : Nat} (hv : v ≤ top) (htop : top ≤ 255) :
    (255 - separate top v) * (255 - (255 - top)) / 255 = v := by
  rw [Nat.sub_sub_self htop]
  unfold separate
  by_cases h : top = 0
  · rw [if_pos h]
    omega
  · rw [if_neg h]
    have hdiv := Nat.div_add_mod ((top - v) * 255) top
    have hmod := Nat.mod_lt ((top - v) * 255) (Nat.pos_of_ne_zero h)
    rw [Nat.mul_comm] at hdiv
    -- the ink is rounded down by less than a unit, which adds less than `top` to `v * 255`
    apply Nat.div_eq_of_lt_le
    · rw [Nat.sub_mul]
      omega
    · rw [Nat.sub_mul]
      omega

theorem le_brightest (c : Rgb) :
    c.red.toNat ≤ c.brightest ∧ c.green.toNat ≤ c.brightest ∧ c.blue.toNat ≤ c.brightest := by
  unfold brightest
  omega

theorem brightest_le (c : Rgb) : c.brightest ≤ 255 := by
  have hred := c.red.toNat_lt
  have hgreen := c.green.toNat_lt
  have hblue := c.blue.toNat_lt
  unfold brightest
  omega

end Rgb

namespace PixelType
variable {t : PixelType} {c : Channel} {p : Pixel}

theorem load?_of_mem (hc : c ∈ t.channels) (p : Pixel) :
    t.load? c.component p = some (rescale (c.get p) c.size 8) := by
  rw [load?, channel?_of_mem t c hc, Option.map_some]

theorem decode_alpha (t : PixelType) (p : Pixel) :
    (t.decode p).alpha = UInt8.ofNat ((t.load? .alpha p).getD 255) := by
  unfold decode
  split
  · rfl
  · rfl
  · split <;> rfl

/-! From pixels to colours and back. -/

/-- Without inks, what a channel holds is a component of the colour, with 8 bits. -/
theorem amount_decode (hmodel : t.model ≠ some .cmyk) (hc : c ∈ t.channels) (p : Pixel) :
    (t.decode p).amount c.component = rescale (c.get p) c.size 8 := by
  have hload := load?_of_mem hc p
  have hlt : rescale (c.get p) c.size 8 < 2 ^ 8 := rescale_lt (size_pos t c hc) (c.get_lt p)
  have hkept := UInt8.toNat_ofNat_of_lt' hlt
  by_cases halpha : c.component = .alpha
  · rw [halpha] at hload ⊢
    show (t.decode p).alpha.toNat = _
    rw [decode_alpha, hload, Option.getD_some, hkept]
  by_cases hrgb : t.model = some .rgb
  · rcases component_of_rgb hrgb c hc with hk | hk | hk | hk
    case inr.inr.inr => exact absurd hk halpha
    all_goals
      rw [hk] at hload ⊢
      simp only [decode, hrgb, hload, Rgba.amount, Option.getD_some, hkept]
  · have hplain := component_of_plain hrgb hmodel c hc
    split at hplain
    · next hhead =>
      have hluma : (t.decode p).luma = rescale (c.get p) c.size 8 := by
        simp only [decode, hhead, Rgb.luma_gray, hkept]
      rcases hplain with hk | hk <;> rw [hk] <;> exact hluma
    · exact absurd hplain halpha

/-- A pixel of shallow channels is the pixel for its colour. -/
theorem encode_decode (hmodel : t.model ≠ some .cmyk) (hnarrow : ∀ c ∈ t.channels, c.size ≤ 8)
    (hp : t.Masked p) : t.encode (t.decode p) = p := by
  apply (masked_encode t _).eq_of_get hp
  intro c hc
  rw [get_encode hc, amount_decode hmodel hc]
  exact rescale_rescale (size_pos t c hc) (hnarrow c hc) (c.get_lt p)

/-! From colours to pixels and back. -/

/-- A deep channel holds its component of a colour exactly. -/
theorem load?_encode (hc : c ∈ t.channels) (hsize : 8 ≤ c.size) (x : Rgba) :
    t.load? c.component (t.encode x) = some (x.amount c.component) := by
  rw [load?_of_mem hc, get_encode hc, rescale_rescale (by decide) hsize (x.amount_lt _)]

/-- The type makes colours of red, green and blue or of inks, in channels of 8 bits or more. -/
def Wide (t : PixelType) : Prop :=
  (t.model = some .rgb ∨ t.model = some .cmyk) ∧
    ∀ c ∈ t.channels, c.component ≠ .alpha → 8 ≤ c.size

instance (t : PixelType) : Decidable t.Wide := inferInstanceAs (Decidable (_ ∧ _))

example : PixelType.all.filter (Wide ·) =
    [rgb101010, xrgb8888, rgba8888, rgb888, bgr888, cmyk8888] := by decide

/-- What the channels of an RGB or CMYK type hold, the alpha apart. -/
def parts (t : PixelType) : List Component :=
  match t.model with
  | some .rgb => [.red, .green, .blue]
  | some .cmyk => [.cyan, .magenta, .yellow, .key]
  | _ => []

theorem Wide.load?_part (ht : t.Wide) (x : Rgba) :
    ∀ k ∈ t.parts, t.load? k (t.encode x) = some (x.amount k) := by
  have hdeep : ∀ k ∈ t.parts, ∃ c ∈ t.channels, c.component = k ∧ 8 ≤ c.size := by
    revert ht
    cases t <;> decide
  intro k hk
  obtain ⟨c, hc, rfl, hsize⟩ := hdeep k hk
  exact load?_encode hc hsize x

/-- Of the wide types only one keeps the alpha. -/
theorem Wide.alpha_decode_encode (ht : t.Wide) (x : Rgba) :
    (t.decode (t.encode x)).alpha = if t = .rgba8888 then x.alpha else 255 := by
  rw [decode_alpha]
  by_cases h : t = .rgba8888
  · have hmem : (⟨.alpha, 0, 8⟩ : Channel) ∈ t.channels := by
      rw [h]
      decide
    rw [if_pos h, load?_encode hmem (by decide)]
    exact UInt8.ofNat_toNat
  · have hnone : t.channel? .alpha = none := by
      revert ht h
      cases t <;> decide
    rw [if_neg h, load?, hnone]
    rfl

theorem Wide.decode_encode (ht : t.Wide) (x : Rgba) :
    t.decode (t.encode x) = ⟨x.toRgb, if t = .rgba8888 then x.alpha else 255⟩ := by
  have hload := ht.load?_part x
  have hrgb : (t.decode (t.encode x)).toRgb = x.toRgb := by
    rcases ht.1 with hmodel | hmodel
    · simp only [parts, hmodel, List.forall_mem_cons, Rgba.amount] at hload
      obtain ⟨hred, hgreen, hblue, -⟩ := hload
      simp only [decode, hmodel, hred, hgreen, hblue, Option.getD_some, UInt8.ofNat_toNat]
    · simp only [parts, hmodel, List.forall_mem_cons, Rgba.amount] at hload
      obtain ⟨hcyan, hmagenta, hyellow, hkey, -⟩ := hload
      obtain ⟨hred, hgreen, hblue⟩ := x.le_brightest
      have htop := x.brightest_le
      simp only [decode, hmodel, hcyan, hmagenta, hyellow, hkey, Option.getD_some,
        Rgb.ink_separate hred htop, Rgb.ink_separate hgreen htop, Rgb.ink_separate hblue htop,
        UInt8.ofNat_toNat]
  rw [← hrgb, ← ht.alpha_decode_encode x]

/-- The colours of RGB888 survive in a wide type. -/
theorem Wide.convert_rgb888 (ht : t.Wide) (hp : p.toNat < 2 ^ 24) :
    t.convert (rgb888.convert p t) .rgb888 = p := by
  by_cases h : t = .rgb888
  · rw [h]
    rfl
  · have hsolid : (rgb888.decode p).alpha = 255 := decode_alpha rgb888 p
    have hcolour : t.decode (t.encode (rgb888.decode p)) = rgb888.decode p := by
      rw [ht.decode_encode, ← hsolid, ite_self]
    have hmasked : rgb888.Masked p := by
      show p.toNat &&& (2 ^ 24 - 1) = p.toNat
      rw [Nat.and_two_pow_sub_one_eq_mod, Nat.mod_eq_of_lt hp]
    rw [convert, convert, if_neg h, if_neg (Ne.symm h), hcolour]
    exact encode_decode (by decide) (by decide) hmasked

/-- A wide type keeps every colour, and the alpha if it is RGBA8888. Hence a pixel of RGB888 is
the same after it was converted to the type and back. -/
theorem Wide.keeps_colours (ht : t.Wide) :
    (∀ x : Rgba, t.decode (t.encode x) = ⟨x.toRgb, if t = .rgba8888 then x.alpha else 255⟩) ∧
      ∀ p : Pixel, p.toNat < 2 ^ 24 → t.convert (rgb888.convert p t) .rgb888 = p :=
  ⟨ht.decode_encode, fun _ hp => ht.convert_rgb888 hp⟩

/-- The inks of a colour whose parts do not divide each other give the colour back. -/
theorem keeps_colours_cmyk8888 :
    cmyk8888.Wide ∧ (0xC90764 : Pixel).toNat < 2 ^ 24 ∧
      cmyk8888.decode (cmyk8888.encode ⟨⟨201, 7, 100⟩, 3⟩) = ⟨⟨201, 7, 100⟩, 255⟩ ∧
      cmyk8888.convert (rgb888.convert 0xC90764 cmyk8888) .rgb888 = 0xC90764 := by
  have hwide : cmyk8888.Wide := by decide
  have hp : (0xC90764 : Pixel).toNat < 2 ^ 24 := by decide
  exact ⟨hwide, hp, hwide.keeps_colours.1 _, hwide.keeps_colours.2 _ hp⟩

/-- A pixel of shallow channels survives a detour through RGBA8888. -/
theorem convert_rgba8888_convert (ht : t ≠ .cmyk8888) (hnarrow : ∀ c ∈ t.channels, c.size ≤ 8)
    (hp : t.Masked p) : rgba8888.convert (t.convert p .rgba8888) t = p := by
  by_cases h : t = .rgba8888
  · rw [h]
    rfl
  · have hmodel : t.model ≠ some .cmyk := by
      revert ht
      cases t <;> decide
    have hwide : rgba8888.Wide := by decide
    have hcolour : rgba8888.decode (rgba8888.encode (t.decode p)) = t.decode p :=
      hwide.decode_encode _
    rw [convert, convert, if_neg h, if_neg (Ne.symm h), hcolour]
    exact encode_decode hmodel hnarrow hp

theorem convert_rgba8888_convert_rgb565 :
    rgb565 ≠ .cmyk8888 ∧ (∀ c ∈ rgb565.channels, c.size ≤ 8) ∧ rgb565.Masked 0xA3F1 ∧
      rgba8888.convert (rgb565.convert 0xA3F1 .rgba8888) rgb565 = 0xA3F1 := by
  have hp : rgb565.Masked 0xA3F1 := by decide
  exact ⟨by decide, by decide, hp, convert_rgba8888_convert (by decide) (by decide) hp⟩

end PixelType

end Raster
