import XcfFlatten.Text.Utf8
import XcfFlatten.Tile

/-!
# Parasites

Named blobs attached to an image. The payload of a parasite property is a sequence of records, each
a name with its length, flags, and data with its length; all numbers have 32 bits. `Parasite.parse`
reads the records up to the first that is not complete.
-/

namespace XcfFlatten

/-- A named blob. -/
structure Parasite where
  name : String
  flags : Nat
  data : List UInt8
  deriving DecidableEq

namespace Parasite

/-- Takes the given number of bytes off a sequence. -/
def takeBytes? (count : Nat) (source : List UInt8) : Option (List UInt8 × List UInt8) :=
  let bytes := source.take count
  if bytes.length = count then some (bytes, source.drop count) else none

/-- Takes a number of 32 bits off a sequence. -/
def takeWord? : List UInt8 → Option (Nat × List UInt8)
  | a :: b :: c :: d :: rest =>
    some (((a.toNat * 256 + b.toNat) * 256 + c.toNat) * 256 + d.toNat, rest)
  | _ => none

/-- Takes a number of 32 bits and as many bytes as it says off a sequence. -/
def takeBlob? (source : List UInt8) : Option (List UInt8 × List UInt8) :=
  (takeWord? source).bind fun (count, rest) => takeBytes? count rest

/-- Takes a record off a sequence. Its name ends at the first NUL. -/
def take? (source : List UInt8) : Option (Parasite × List UInt8) :=
  (takeBlob? source).bind fun (name, rest) =>
  (takeWord? rest).bind fun (flags, rest) =>
  (takeBlob? rest).map fun (data, rest) =>
    (⟨Utf8.decodeLossy (name.takeWhile (· != 0)), flags, data⟩, rest)

/-- What is left after a word is shorter. -/
theorem length_of_takeWord? {source rest : List UInt8} {n : Nat}
    (h : takeWord? source = some (n, rest)) :
    rest.length < source.length := by
  unfold takeWord? at h
  split at h
  · simp only [Option.some.injEq, Prod.mk.injEq] at h
    rw [← h.2]
    simp only [List.length_cons]
    omega
  · cases h

/-- What is left after a blob is shorter. -/
theorem length_of_takeBlob? {source rest blob : List UInt8}
    (h : takeBlob? source = some (blob, rest)) :
    rest.length < source.length := by
  rw [takeBlob?, Option.bind_eq_some_iff] at h
  obtain ⟨⟨n, tail⟩, hw, hb⟩ := h
  have := length_of_takeWord? hw
  simp only [takeBytes?] at hb
  split at hb
  · simp only [Option.some.injEq, Prod.mk.injEq] at hb
    rw [← hb.2, List.length_drop]
    omega
  · cases hb

/-- What is left after a record is shorter. -/
theorem length_of_take? {source rest : List UInt8} {p : Parasite}
    (h : take? source = some (p, rest)) :
    rest.length < source.length := by
  rw [take?, Option.bind_eq_some_iff] at h
  obtain ⟨⟨name, r₁⟩, h₁, h⟩ := h
  rw [Option.bind_eq_some_iff] at h
  obtain ⟨⟨flags, r₂⟩, h₂, h⟩ := h
  rw [Option.map_eq_some_iff] at h
  obtain ⟨⟨data, r₃⟩, h₃, h⟩ := h
  have := length_of_takeBlob? h₁
  have := length_of_takeWord? h₂
  have := length_of_takeBlob? h₃
  simp only [Prod.mk.injEq] at h
  rw [← h.2]
  omega

/-- The records up to the first that is not complete, in front of which come those already read,
last first. -/
def parseOnto (done : List Parasite) (source : List UInt8) : List Parasite :=
  match _h : take? source with
  | some (p, rest) => parseOnto (p :: done) rest
  | none => done.reverse
termination_by source.length
decreasing_by exact length_of_take? _h

/-- The records of a payload up to the first that is not complete. -/
def parse (payload : Bytes) : List Parasite := parseOnto [] payload.toList

end Parasite

end XcfFlatten
