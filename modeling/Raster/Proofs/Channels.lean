import Raster.Proofs.Encode
import Raster.Proofs.Layout

/- Pixels channel by channel. A channel that is set reads as it was set, and the channels
   beside it as before (`Channel.get_set_self`, `Channel.get_set_of_apart`). The channels of
   a type lie apart and hold different components, so that storing a component shows in
   its own channel only (`PixelType.get_store`). Two results are built on that: a pixel
   without bits outside of the channels is fixed by what they hold (`Masked.eq_of_get`), and
   each channel of the pixel for a colour holds its component of the colour at the depth of
   the channel, whatever model the type follows (`get_encode`). -/
namespace Raster

/-! Depths. -/

theorem rescale_self (v n : Nat) : rescale v n n = v := if_pos rfl

theorem rescale_of_ne {v n m : Nat} (h : n ≠ m) (hv : v < 2 ^ n) :
    rescale v n m = (v * (2 ^ m - 1) + (2 ^ n - 1) / 2) / (2 ^ n - 1) := by
  simp only [rescale, if_neg h, twoPow_eq, Nat.min_eq_left (Nat.le_sub_one_of_lt hv)]

theorem two_pow_sub_one_pos {n : Nat} (hn : 1 ≤ n) : 0 < 2 ^ n - 1 := by
  have hpow : 2 ^ 1 ≤ 2 ^ n := Nat.pow_le_pow_right (by decide) hn
  omega

/-- A value that fits its depth fits the new depth after the change. -/
theorem rescale_lt {v n m : Nat} (hn : 1 ≤ n) (hv : v < 2 ^ n) : rescale v n m < 2 ^ m := by
  by_cases h : n = m
  · rw [← h, rescale_self]
    exact hv
  · have hle : v * (2 ^ m - 1) ≤ (2 ^ n - 1) * (2 ^ m - 1) :=
      Nat.mul_le_mul_right _ (Nat.le_sub_one_of_lt hv)
    have hpow : 2 ^ m = (2 ^ m - 1) + 1 := (Nat.sub_add_cancel (Nat.two_pow_pos m)).symm
    have htop := two_pow_sub_one_pos hn
    rw [rescale_of_ne h hv, Nat.div_lt_iff_lt_mul htop, hpow, Nat.succ_mul,
      Nat.mul_comm (2 ^ m - 1), Nat.add_sub_cancel]
    omega

namespace Channel
variable {c d : Channel} {p : Pixel}

theorem testBit_mask (c : Channel) (k : Nat) :
    c.mask.testBit k = decide (c.offset ≤ k ∧ k < c.offset + c.size) := by
  rw [mask, max, twoPow_eq, twoPow_eq, Nat.testBit_mul_two_pow, Nat.testBit_two_pow_sub_one,
    ← Bool.decide_and]
  apply decide_eq_decide.2
  omega

theorem get_lt (c : Channel) (p : Pixel) : c.get p < 2 ^ c.size := by
  rw [get, field, twoPow_eq c.size]
  exact Nat.mod_lt _ (Nat.two_pow_pos _)

theorem testBit_get (c : Channel) (p : Pixel) (k : Nat) :
    (c.get p).testBit k = (decide (k < c.size) && p.toNat.testBit (c.offset + k)) :=
  testBit_field ..

/-- A channel inside of a pixel replaces its own bits only. -/
theorem testBit_set (hc : c.offset + c.size ≤ 32) (p : Pixel) (v k : Nat) :
    (c.set p v).toNat.testBit k =
      if c.offset ≤ k ∧ k < c.offset + c.size then v.testBit (k - c.offset)
      else p.toNat.testBit k := by
  have hlt : splice p.toNat c.offset c.size v < 2 ^ 32 := splice_lt p.toNat_lt hc
  rw [set, UInt32.toNat_ofNat_of_lt' hlt, testBit_splice]

theorem get_set_self (hc : c.offset + c.size ≤ 32) (p : Pixel) (v : Nat) :
    c.get (c.set p v) = v % 2 ^ c.size := by
  apply Nat.eq_of_testBit_eq
  intro k
  rw [testBit_get, testBit_set hc, Nat.testBit_mod_two_pow, Nat.add_sub_cancel_left]
  by_cases hk : k < c.size
  · rw [if_pos (by omega)]
  · rw [decide_eq_false hk, Bool.false_and, Bool.false_and]

theorem get_set_of_apart (hc : c.offset + c.size ≤ 32)
    (h : c.offset + c.size ≤ d.offset ∨ d.offset + d.size ≤ c.offset) (p : Pixel) (v : Nat) :
    d.get (c.set p v) = d.get p := by
  apply Nat.eq_of_testBit_eq
  intro k
  rw [testBit_get, testBit_get, testBit_set hc]
  by_cases hk : k < d.size
  · rw [if_neg (by omega)]
  · rw [decide_eq_false hk, Bool.false_and, Bool.false_and]

end Channel

namespace PixelType
variable {t : PixelType} {c d : Channel} {p q : Pixel} {k : Component}

/-! The channels of a type. -/

theorem channel_fits (hc : c ∈ t.channels) : c.offset + c.size ≤ 32 :=
  Nat.le_trans (channel_le t c hc) (bpp_le t)

theorem size_pos (t : PixelType) : ∀ c ∈ t.channels, 1 ≤ c.size := by
  cases t <;> decide

theorem apart (t : PixelType) : ∀ c ∈ t.channels, ∀ d ∈ t.channels, c.component ≠ d.component →
    c.offset + c.size ≤ d.offset ∨ d.offset + d.size ≤ c.offset := by
  cases t <;> decide

/-- Each component has one channel. -/
theorem channel?_of_mem (t : PixelType) : ∀ c ∈ t.channels, t.channel? c.component = some c := by
  cases t <;> decide

theorem component_of_channel? (h : t.channel? k = some c) : c.component = k := by
  simpa using List.find?_some h

theorem component_of_rgb (ht : t.model = some .rgb) : ∀ c ∈ t.channels,
    c.component = .red ∨ c.component = .green ∨ c.component = .blue ∨ c.component = .alpha := by
  revert ht
  cases t <;> decide

theorem component_of_cmyk (ht : t.model = some .cmyk) : ∀ c ∈ t.channels,
    c.component = .cyan ∨ c.component = .magenta ∨ c.component = .yellow ∨ c.component = .key := by
  revert ht
  cases t <;> decide

/-- The other models have one value, in their first channel. -/
theorem component_of_plain (hrgb : t.model ≠ some .rgb) (hcmyk : t.model ≠ some .cmyk) :
    ∀ c ∈ t.channels, if t.channels.head? = some c then c.component = .value ∨ c.component = .index
      else c.component = .alpha := by
  revert hrgb hcmyk
  cases t <;> decide

/-! Setting channels and storing components. -/

theorem eq_of_component (hc : c ∈ t.channels) (hd : d ∈ t.channels)
    (h : c.component = d.component) : c = d := by
  have hboth := channel?_of_mem t c hc
  rw [h, channel?_of_mem t d hd] at hboth
  exact (Option.some.inj hboth).symm

/-- A channel that is set has no part in the others. -/
theorem get_set (hc : c ∈ t.channels) (hd : d ∈ t.channels) (p : Pixel) (v : Nat) :
    c.get (d.set p v) = if c = d then v % 2 ^ c.size else c.get p := by
  by_cases h : c = d
  · rw [if_pos h, ← h]
    exact Channel.get_set_self (channel_fits hc) p v
  · rw [if_neg h]
    apply Channel.get_set_of_apart (channel_fits hd)
    exact apart t d hd c hc (fun he => h (eq_of_component hc hd he.symm))

theorem get_store (hc : c ∈ t.channels) {v : Nat} (hv : v < 2 ^ 8) (k : Component) (p : Pixel) :
    c.get (t.store k v p) = if c.component = k then rescale v 8 c.size else c.get p := by
  unfold store
  cases h : t.channel? k with
  | none =>
    rw [if_neg]
    rintro rfl
    rw [channel?_of_mem t c hc] at h
    cases h
  | some d =>
    have hd := channel?_mem h
    have hk := component_of_channel? h
    show c.get (d.set p (rescale v 8 d.size)) = _
    rw [get_set hc hd]
    by_cases hcd : c = d
    · rw [if_pos hcd, if_pos (hcd ▸ hk), hcd]
      exact Nat.mod_eq_of_lt (rescale_lt (by decide) hv)
    · rw [if_neg hcd, if_neg (fun hck => hcd (eq_of_component hc hd (hck.trans hk.symm)))]

/-! Pixels without other bits. -/

/-- The bits of a pixel that belong to a channel. -/
def mask (t : PixelType) : Nat := t.channels.foldr (fun c m => c.mask ||| m) 0

/-- The pixel has no bits outside of its channels. -/
def Masked (t : PixelType) (p : Pixel) : Prop := p.toNat &&& t.mask = p.toNat

instance (t : PixelType) (p : Pixel) : Decidable (t.Masked p) :=
  inferInstanceAs (Decidable (_ = _))

theorem testBit_mask (t : PixelType) (k : Nat) :
    t.mask.testBit k = t.channels.any (fun c => c.mask.testBit k) := by
  unfold mask
  induction t.channels with
  | nil => exact Nat.zero_testBit k
  | cons c l ih => rw [List.foldr_cons, List.any_cons, Nat.testBit_or, ih]

theorem masked_iff : t.Masked p ↔ ∀ k, p.toNat.testBit k = true →
    ∃ c ∈ t.channels, c.offset ≤ k ∧ k < c.offset + c.size := by
  have hmask : ∀ k, t.mask.testBit k = true ↔
      ∃ c ∈ t.channels, c.offset ≤ k ∧ k < c.offset + c.size := by
    intro k
    simp only [testBit_mask, List.any_eq_true, Channel.testBit_mask, decide_eq_true_eq]
  constructor
  · intro hp k hk
    have hbit := congrArg (·.testBit k) hp
    simp only [Nat.testBit_and, hk, Bool.true_and] at hbit
    exact (hmask k).1 hbit
  · intro h
    apply Nat.eq_of_testBit_eq
    intro k
    rw [Nat.testBit_and]
    cases hk : p.toNat.testBit k with
    | false => rfl
    | true => rw [(hmask k).2 (h k hk)]; rfl

/-- The channels fix a pixel without other bits. -/
theorem Masked.eq_of_get (hp : t.Masked p) (hq : t.Masked q)
    (h : ∀ c ∈ t.channels, c.get p = c.get q) : p = q := by
  apply UInt32.toNat_inj.1
  apply Nat.eq_of_testBit_eq
  intro k
  by_cases hk : ∃ c ∈ t.channels, c.offset ≤ k ∧ k < c.offset + c.size
  · obtain ⟨c, hc, hle, hlt⟩ := hk
    have hbit := congrArg (·.testBit (k - c.offset)) (h c hc)
    have hin : k - c.offset < c.size := by omega
    simpa [Channel.testBit_get, hin, Nat.add_sub_cancel' hle] using hbit
  · -- no channel has the bit, so neither pixel has
    have hclear : ∀ r : Pixel, t.Masked r → r.toNat.testBit k = false := by
      intro r hr
      by_contra hset
      exact hk (masked_iff.1 hr k (Bool.eq_true_of_not_eq_false hset))
    rw [hclear p hp, hclear q hq]

theorem masked_zero (t : PixelType) : t.Masked 0 := Nat.zero_and _

theorem Masked.set (hp : t.Masked p) (hc : c ∈ t.channels) (v : Nat) : t.Masked (c.set p v) := by
  apply masked_iff.2
  intro k hk
  rw [Channel.testBit_set (channel_fits hc)] at hk
  split at hk
  · next hin => exact ⟨c, hc, hin⟩
  · exact masked_iff.1 hp k hk

theorem Masked.store (hp : t.Masked p) (k : Component) (v : Nat) : t.Masked (t.store k v p) := by
  unfold PixelType.store
  cases h : t.channel? k with
  | none => exact hp
  | some c => exact hp.set (channel?_mem h) _

end PixelType

/-! Steps in turn. -/

/-- What only the step `k` sets is as that step sets it if `k` is among the steps, and as before if it
is not. -/
theorem read_foldl {α β κ : Type} [DecidableEq κ] {step : α → κ → α} {read : α → β} {k : κ} {v : β}
    {l : List κ} (hself : ∀ a, read (step a k) = v)
    (hother : ∀ j ∈ l, j ≠ k → ∀ a, read (step a j) = read a) (a : α) :
    read (l.foldl step a) = if k ∈ l then v else read a := by
  induction l generalizing a with
  | nil => rfl
  | cons j l ih =>
    obtain ⟨hj, hrest⟩ := List.forall_mem_cons.1 hother
    rw [List.foldl_cons, ih hrest]
    by_cases hkl : k ∈ l
    · rw [if_pos hkl, if_pos (List.mem_cons_of_mem j hkl)]
    · by_cases hjk : j = k
      · rw [if_neg hkl, if_pos (hjk ▸ List.mem_cons_self), hjk, hself]
      · rw [if_neg hkl, if_neg (by simp [hkl, Ne.symm hjk]), hj hjk]

/-! The components of a colour. -/

/-- What the channel of a component keeps of a colour, with 8 bits. -/
def Rgba.amount (c : Rgba) : Component → Nat
  | .red => c.red.toNat
  | .green => c.green.toNat
  | .blue => c.blue.toNat
  | .alpha => c.alpha.toNat
  | .value | .index => c.luma
  | .cyan => Rgb.separate c.brightest c.red.toNat
  | .magenta => Rgb.separate c.brightest c.green.toNat
  | .yellow => Rgb.separate c.brightest c.blue.toNat
  | .key => 255 - c.brightest

theorem Rgb.luma_lt (c : Rgb) : c.luma < 2 ^ 8 := by
  have hred := c.red.toNat_lt
  have hgreen := c.green.toNat_lt
  have hblue := c.blue.toNat_lt
  unfold luma
  omega

theorem Rgb.separate_lt (top v : Nat) : Rgb.separate top v < 2 ^ 8 := by
  unfold separate
  split
  · decide
  · next htop =>
    rw [Nat.div_lt_iff_lt_mul (by omega)]
    omega

theorem Rgba.amount_lt (c : Rgba) (k : Component) : c.amount k < 2 ^ 8 := by
  cases k with
  | red => exact c.red.toNat_lt
  | green => exact c.green.toNat_lt
  | blue => exact c.blue.toNat_lt
  | alpha => exact c.alpha.toNat_lt
  | value | index => exact c.luma_lt
  | cyan | magenta | yellow => exact Rgb.separate_lt ..
  | key => exact Nat.lt_of_le_of_lt (Nat.sub_le ..) (by decide)

namespace PixelType
variable {t : PixelType} {c : Channel} {p : Pixel}

/-- Stores the components `ks` of a colour, one after another. -/
def storeEach (t : PixelType) (x : Rgba) (ks : List Component) (p : Pixel) : Pixel :=
  ks.foldl (fun p k => t.store k (x.amount k) p) p

theorem Masked.storeEach (hp : t.Masked p) (x : Rgba) (ks : List Component) :
    t.Masked (t.storeEach x ks p) := by
  induction ks generalizing p with
  | nil => exact hp
  | cons k ks ih => exact ih (hp.store k _)

theorem get_storeEach (hc : c ∈ t.channels) (x : Rgba) (ks : List Component) (p : Pixel) :
    c.get (t.storeEach x ks p) =
      if c.component ∈ ks then rescale (x.amount c.component) 8 c.size else c.get p := by
  refine read_foldl (fun p => ?_) (fun k _ hk p => ?_) p
  · rw [get_store hc (x.amount_lt _), if_pos rfl]
  · rw [get_store hc (x.amount_lt k), if_neg hk.symm]

/-- In every model a colour is encoded by storing components, those of all channels among them. -/
theorem encode_eq_storeEach (t : PixelType) (x : Rgba) :
    ∃ ks, t.encode x = t.storeEach x ks 0 ∧ ∀ c ∈ t.channels, c.component ∈ ks := by
  by_cases hrgb : t.model = some .rgb
  · refine ⟨[.red, .green, .blue, .alpha], ?_, ?_⟩
    · simp only [encode, hrgb]
      rfl
    · intro c hc
      simpa using component_of_rgb hrgb c hc
  by_cases hcmyk : t.model = some .cmyk
  · refine ⟨[.cyan, .magenta, .yellow, .key, .alpha], ?_, ?_⟩
    · simp only [encode, hcmyk]
      rfl
    · intro c hc
      have hk := component_of_cmyk hcmyk c hc
      rcases hk with hk | hk | hk | hk <;> simp [hk]
  -- the value is in the first channel
  have hplain := component_of_plain hrgb hcmyk
  cases hhead : t.channels.head? with
  | none =>
    refine ⟨[.alpha], ?_, ?_⟩
    · simp only [encode, hhead]
      rfl
    · intro c hc
      rw [List.head?_eq_none_iff.1 hhead] at hc
      cases hc
  | some d =>
    have hd := List.mem_of_mem_head? hhead
    refine ⟨[d.component, .alpha], ?_, ?_⟩
    · have hvalue : x.amount d.component = x.luma := by
        have hk := hplain d hd
        rw [if_pos hhead] at hk
        rcases hk with hk | hk <;> rw [hk] <;> rfl
      have hfirst : t.store d.component x.luma 0 = d.set 0 (rescale x.luma 8 d.size) := by
        rw [store, channel?_of_mem t d hd]
      show _ = t.store .alpha _ (t.store d.component (x.amount d.component) 0)
      rw [hvalue, hfirst]
      simp only [encode, hhead]
      rfl
    · intro c hc
      have hk := hplain c hc
      split at hk
      · next hcd =>
        obtain rfl : d = c := Option.some.inj (hhead.symm.trans hcd)
        exact List.mem_cons_self
      · rw [hk]
        exact List.mem_cons_of_mem _ List.mem_cons_self

/-- The pixel for a colour has bits in its channels only. -/
theorem masked_encode (t : PixelType) (x : Rgba) : t.Masked (t.encode x) := by
  obtain ⟨ks, hks, -⟩ := encode_eq_storeEach t x
  rw [hks]
  exact (masked_zero t).storeEach x ks

/-- Each channel of the pixel for a colour holds its component of the colour. -/
theorem get_encode (hc : c ∈ t.channels) (x : Rgba) :
    c.get (t.encode x) = rescale (x.amount c.component) 8 c.size := by
  obtain ⟨ks, hks, hall⟩ := encode_eq_storeEach t x
  rw [hks, get_storeEach hc, if_pos (hall c hc)]

end PixelType

end Raster
