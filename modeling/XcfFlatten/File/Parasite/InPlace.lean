import XcfFlatten.File.Parasite
import XcfFlatten.File.Reader

/-!
# Reading parasites in place

`Parasite.parse` takes records off a list of bytes. The operations of this module read the same
records where they stand in the payload. A length is first held against the whole payload, and only
then against what is left of it. Records are read in rounds (`InPlace.parseFrom`), of which no more
than a given number are allowed.
-/

namespace XcfFlatten.Parasite.InPlace

/-- The next `length` bytes. More than the whole payload has are refused at once. -/
def bytes (length : Nat) : Reader Bytes := do
  if (← read).size < length then throw .truncated
  Reader.bytes length

/-- A length, and as many bytes. -/
def blob : Reader (List UInt8) := do pure (← bytes (← Reader.word)).toList

/-- Reads a record. Its name ends at the first NUL. -/
def record : Reader Parasite := do
  let name ← blob
  let flags ← Reader.word
  let data ← blob
  pure ⟨Utf8.decodeLossy (name.takeWhile (· != 0)), flags, data⟩

/-- The records from a position on, up to the first that cannot be read, in front of which come
those already read, last first. There are none if the rounds do not suffice. -/
def parseFrom (payload : Bytes) :
    (rounds : Nat) → Cursor → List Parasite → Option (List Parasite)
  | 0, _, _ => none
  | rounds + 1, cursor, done =>
    if payload.size ≤ cursor.position then some done.reverse
    else
      match record payload cursor with
      | .ok (parasite, cursor) => parseFrom payload rounds cursor (parasite :: done)
      | .error _ => some done.reverse

/-- The records of a payload, read in so many rounds at the most. -/
def parse (rounds : Nat) (payload : Bytes) : Option (List Parasite) :=
  parseFrom payload rounds {} []

end XcfFlatten.Parasite.InPlace
