import Raster.PixelType.Color
import Raster.Proofs.Bits

/- Pixels fit their type. Every channel lies inside the bits of a pixel, so that what is
   stored channel by channel has no other bits; an encoded or converted pixel therefore
   is below `2 ^ bpp` (`encode_lt`, `convert_lt`) and survives being written and read
   back. -/
namespace Raster

theorem splice_lt {acc pos len v n : Nat} (ha : acc < 2 ^ n) (hp : pos + len ≤ n) :
    splice acc pos len v < 2 ^ n := by
  apply Nat.lt_pow_two_of_testBit _
  intro k hk
  rw [testBit_splice, if_neg (by omega)]
  exact Nat.testBit_lt_two_pow (Nat.lt_of_lt_of_le ha (Nat.pow_le_pow_right (by decide) hk))

namespace PixelType
variable {t : PixelType} {p : Pixel}

theorem channel_le (t : PixelType) : ∀ c ∈ t.channels, c.offset + c.size ≤ t.bpp := by
  cases t <;> decide

/-- A channel inside of the type keeps a pixel inside of it. -/
theorem set_lt {c : Channel} (hc : c ∈ t.channels) (hp : p.toNat < 2 ^ t.bpp) (v : Nat) :
    (c.set p v).toNat < 2 ^ t.bpp := by
  have hsplice : splice p.toNat c.offset c.size v < 2 ^ t.bpp := splice_lt hp (channel_le t c hc)
  rw [Channel.set, UInt32.toNat_ofNat']
  exact Nat.lt_of_le_of_lt (Nat.mod_le ..) hsplice

theorem channel?_mem {k : Component} {c : Channel} (h : t.channel? k = some c) : c ∈ t.channels :=
  List.mem_of_find?_eq_some h

theorem store_lt (hp : p.toNat < 2 ^ t.bpp) (k : Component) (v : Nat) :
    (t.store k v p).toNat < 2 ^ t.bpp := by
  unfold store
  cases h : t.channel? k with
  | none => exact hp
  | some c => exact set_lt (channel?_mem h) hp _

theorem zero_lt (t : PixelType) : (0 : Pixel).toNat < 2 ^ t.bpp := Nat.two_pow_pos _

/-- The pixel for a colour has no bits beyond its type. -/
theorem encode_lt (t : PixelType) (c : Rgba) : (t.encode c).toNat < 2 ^ t.bpp := by
  unfold encode
  apply store_lt
  split
  · exact store_lt (store_lt (store_lt (zero_lt t) ..) ..) ..
  · exact store_lt (store_lt (store_lt (store_lt (zero_lt t) ..) ..) ..) ..
  · -- other models have their value in the first channel
    split
    · next ch hhead => exact set_lt (List.mem_of_mem_head? hhead) (zero_lt t) _
    · exact zero_lt t

/-- A converted pixel has no bits beyond its new type, if it had none beyond the old one. -/
theorem convert_lt (hp : p.toNat < 2 ^ t.bpp) (u : PixelType) :
    (t.convert p u).toNat < 2 ^ u.bpp := by
  unfold convert
  by_cases h : t = u
  · rw [if_pos h, ← h]
    exact hp
  · rw [if_neg h]
    exact encode_lt u _

end PixelType

end Raster
