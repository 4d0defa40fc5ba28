import Raster.Fault
import Raster.Power

/- Bit fields of a byte buffer.

   A buffer of bytes is read as one little-endian stream of bits: bit `8 * i + k` is
   bit `k` of byte `i`. `Bytes.readBits` and `Bytes.writeBits` access a field of the
   stream by position and length; they touch only the bytes that the field meets, and
   fault if one of them lies outside of the buffer. `stamp` and `copyRun` move whole
   bytes. -/
namespace Raster

/-- The `len` bits of `acc` from bit `pos` on. -/
def field (acc pos len : Nat) : Nat := acc / twoPow pos % twoPow len

/-- `acc` with the `len` bits from `pos` on replaced by the low bits of `v`. -/
def splice (acc pos len v : Nat) : Nat :=
  acc % twoPow pos + twoPow pos * (v % twoPow len) +
    twoPow (pos + len) * (acc / twoPow (pos + len))

/-- Bytes needed for `bits` bits. -/
def byteCount (bits : Nat) : Nat := (bits + 7) / 8

abbrev Bytes := Array UInt8

namespace Bytes

/-- The little-endian number in the `n` bytes from `i` on, bytes beyond the end read as zero. -/
def readLE (b : Bytes) (i : Nat) : Nat → Nat
  | 0 => 0
  | n + 1 => (b[i]?.getD 0).toNat + 256 * readLE b (i + 1) n

/-- Writes the low `n` bytes of `v` from `i` on, lowest byte first. -/
def writeLE (b : Bytes) (i : Nat) : Nat → Nat → Bytes
  | 0, _ => b
  | n + 1, v => writeLE (b.setIfInBounds i (UInt8.ofNat v)) (i + 1) n (v / 256)

/-- The `len` bits of the stream from `pos` on. -/
def readBits (b : Bytes) (pos len : Nat) : Except Fault Nat :=
  let n := byteCount (pos % 8 + len)
  if pos / 8 + n ≤ b.size then .ok (field (b.readLE (pos / 8) n) (pos % 8) len)
  else .error .outOfBounds

/-- Replaces the `len` bits of the stream from `pos` on by the low bits of `v`. -/
def writeBits (b : Bytes) (pos len v : Nat) : Except Fault Bytes :=
  let n := byteCount (pos % 8 + len)
  if pos / 8 + n ≤ b.size then
    let acc := b.readLE (pos / 8) n
    .ok (b.writeLE (pos / 8) n (splice acc (pos % 8) len v))
  else .error .outOfBounds

/-- Repeats the low `size` bytes of `v`, lowest byte first, `count` times from `i` on. -/
def stamp (b : Bytes) (i size v : Nat) : Nat → Bytes
  | 0 => b
  | count + 1 => stamp (b.writeLE i size v) (i + size) size v count

/-- Copies `count` bytes of `src` from `j` on to `i` on. -/
def copyRun (b src : Bytes) (i j : Nat) : Nat → Bytes
  | 0 => b
  | count + 1 => copyRun (b.setIfInBounds i (src[j]?.getD 0)) src (i + 1) (j + 1) count

end Bytes

end Raster
