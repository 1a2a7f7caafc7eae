/-!
# Lenient UTF-8

`Utf8.decodeLossy` reads any bytes as text. Where they are not UTF-8, each longest part that begins
a character without completing it, and each byte that begins none, becomes one replacement
character.
-/

namespace XcfFlatten.Utf8

/-- Stands for bytes that are not UTF-8. -/
def replacement : Char := '\uFFFD'

/-- What the first byte of a character of more than one byte asks for: the number of bytes that
follow it, and the range of the first of them. The ranges leave out overlong forms, surrogates and
values past the last code point. -/
def lead? (b : UInt8) : Option (Nat × UInt8 × UInt8) :=
  if b < 0xC2 then none
  else if b ≤ 0xDF then some (1, 0x80, 0xBF)
  else if b = 0xE0 then some (2, 0xA0, 0xBF)
  else if b = 0xED then some (2, 0x80, 0x9F)
  else if b ≤ 0xEF then some (2, 0x80, 0xBF)
  else if b = 0xF0 then some (3, 0x90, 0xBF)
  else if b ≤ 0xF3 then some (3, 0x80, 0xBF)
  else if b = 0xF4 then some (3, 0x80, 0x8F)
  else none

/-- The bytes, at most `n`, that continue a character: the first in the given range, further ones in
the full range of continuation bytes. -/
def continuation : Nat → UInt8 → UInt8 → List UInt8 → List UInt8
  | 0, _, _, _ => []
  | _, _, _, [] => []
  | n + 1, low, high, b :: rest =>
    if low ≤ b ∧ b ≤ high then b :: continuation n 0x80 0xBF rest else []

/-- The code point of a character: what the first byte leaves beside its `n` length bits, and six
bits of each byte that follows. -/
def codePoint (first : UInt8) (following : List UInt8) : Nat :=
  following.foldl (fun value b => value * 64 + b.toNat % 64)
    (first.toNat % Nat.pow 2 (6 - following.length))

/-- Reads one character off the bytes after `first`, together with the number of those bytes that
belong to it. -/
def next (first : UInt8) (rest : List UInt8) : Char × Nat :=
  if first < 0x80 then (Char.ofNat first.toNat, 0)
  else
    match lead? first with
    | none => (replacement, 0)
    | some (n, low, high) =>
      let following := continuation n low high rest
      if following.length = n then (Char.ofNat (codePoint first following), n)
      else (replacement, following.length)

/-- Reads characters until the bytes end, in front of which come those already read, last first. -/
def decodeOnto (done : List Char) : List UInt8 → List Char
  | [] => done.reverse
  | b :: rest =>
    let (c, used) := next b rest
    decodeOnto (c :: done) (rest.drop used)
termination_by bytes => bytes.length
decreasing_by simp only [List.length_drop, List.length_cons]; omega

/-- The text of the given bytes. -/
def decodeLossy (bytes : List UInt8) : String := String.ofList (decodeOnto [] bytes)

end XcfFlatten.Utf8
