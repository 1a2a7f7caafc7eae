import XcfFlatten.Tile

/-!
# Packing bytes and bits

What the image formats share: numbers in either byte order, checksums, and codes of a few bits put
together into bytes.
-/

namespace XcfFlatten.Packing

/-- The low `width` bytes of a number, the least significant first. -/
def littleEndian : (width : Nat) → Nat → Bytes
  | 0, _ => #[]
  | width + 1, n => #[UInt8.ofNat n] ++ littleEndian width (n / 256)

/-- The low `width` bytes of a number, the most significant first. -/
def bigEndian (width n : Nat) : Bytes := (littleEndian width n).reverse

/-- The bytes of an ASCII text. -/
def ascii (text : String) : Bytes := (text.toList.map fun c => UInt8.ofNat c.toNat).toArray

/-- One step of the division of a bit sequence by the CRC-32 polynomial. -/
def crcShift (remainder : UInt32) : UInt32 :=
  if remainder &&& 1 = 1 then (remainder >>> 1) ^^^ 0xEDB88320 else remainder >>> 1

/-- What eight steps make of each byte. -/
def crcTable : Array UInt32 := Array.ofFn fun b : Fin 256 => Nat.repeat crcShift 8 (UInt32.ofNat b)

/-- The CRC-32 checksum. -/
def crc32 (bytes : Bytes) : UInt32 :=
  let step (remainder : UInt32) (b : UInt8) : UInt32 :=
    (remainder >>> 8) ^^^ crcTable.getD ((remainder ^^^ b.toUInt32) &&& 0xFF).toNat 0
  bytes.foldl step 0xFFFFFFFF ^^^ 0xFFFFFFFF

/-- The Adler-32 checksum: the sum of the bytes, and the sum of those sums, modulo a prime. -/
def adler32 (bytes : Bytes) : Nat :=
  let step (sums : Nat × Nat) (b : UInt8) : Nat × Nat :=
    let low := (sums.1 + b.toNat) % 65521
    (low, (sums.2 + low) % 65521)
  let (low, high) := bytes.foldl step (1, 0)
  high * 65536 + low

/-- A number that takes up a few bits. -/
structure Code where
  bits : Nat
  value : Nat

/-- Bytes that are complete, and the bits waiting for the next one. -/
structure Packed where
  bytes : Bytes
  pending : Code

/-- Takes the complete bytes off the waiting bits, the lowest bits first. -/
def Packed.flushLow (bytes : Bytes) : (bits value : Nat) → Packed
  | bits + 8, value => flushLow (bytes.push (UInt8.ofNat value)) bits (value / 256)
  | bits, value => ⟨bytes, ⟨bits, value⟩⟩

/-- Adds a code behind the waiting bits, whose first bit is the lowest. -/
def Packed.addLow (packed : Packed) (code : Code) : Packed :=
  flushLow packed.bytes (packed.pending.bits + code.bits)
    (packed.pending.value + code.value * Nat.pow 2 packed.pending.bits)

/-- Codes packed from the lowest bit of each byte up. The last byte is filled up with zeros. -/
def packLow (codes : Array Code) : Bytes :=
  let packed := codes.foldl Packed.addLow ⟨#[], ⟨0, 0⟩⟩
  if packed.pending.bits = 0 then packed.bytes
  else packed.bytes.push (UInt8.ofNat packed.pending.value)

/-- Takes the complete bytes off the waiting bits, the highest bits first. -/
def Packed.flushHigh (bytes : Bytes) : (bits value : Nat) → Packed
  | bits + 8, value =>
    flushHigh (bytes.push (UInt8.ofNat (value / Nat.pow 2 bits))) bits (value % Nat.pow 2 bits)
  | bits, value => ⟨bytes, ⟨bits, value⟩⟩

/-- Adds a code behind the waiting bits, whose first bit is the highest. -/
def Packed.addHigh (packed : Packed) (code : Code) : Packed :=
  flushHigh packed.bytes (packed.pending.bits + code.bits)
    (packed.pending.value * Nat.pow 2 code.bits + code.value)

/-- Codes packed from the highest bit of each byte down. The last byte is filled up with ones. -/
def packHigh (codes : Array Code) : Bytes :=
  let packed := codes.foldl Packed.addHigh ⟨#[], ⟨0, 0⟩⟩
  if packed.pending.bits = 0 then packed.bytes
  else
    let missing := 8 - packed.pending.bits
    packed.bytes.push (UInt8.ofNat ((packed.pending.value + 1) * Nat.pow 2 missing - 1))

end XcfFlatten.Packing
