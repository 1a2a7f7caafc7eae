import XcfFlatten.File.Error
import XcfFlatten.Text.Utf8
import XcfFlatten.Tile

/-!
# Reading bytes

A `Reader` runs over a byte sequence from a position, which it may move anywhere: a position past
the end is no error until something is read there. Numbers are big endian, and the file's version
decides how wide offsets are.

* `Reader.bytes` takes exactly as many bytes as it is asked for, and `Reader.bytesPadded` fills up
  with zeros;
* `Reader.word`, `Reader.int32`, `Reader.offset` and `Reader.string` are the scalars of the format.
-/

namespace XcfFlatten

/-- Where a reader stands. -/
structure Cursor where
  position : Nat := 0
  /-- The file's version. -/
  version : Nat := 0
  deriving DecidableEq, Inhabited

/-- A computation that reads bytes. -/
abbrev Reader := ReaderT Bytes (StateT Cursor (Except ReadError))

/-- The number that a sequence of bytes stands for, the most significant first. -/
def Bytes.toNat (bytes : Bytes) : Nat := bytes.foldl (fun n b => n * 256 + b.toNat) 0

/-- The number in `[-half, half)` that a number below `2 * half` stands for in two's complement. -/
def signed (half n : Nat) : Int := if n < half then n else (n : Int) - 2 * half

/-- The number that 32 bits stand for. -/
def signed32 (n : Nat) : Int := signed 0x80000000 n

/-- The number that 64 bits stand for. -/
def signed64 (n : Nat) : Int := signed 0x8000000000000000 n

namespace Reader

/-- Runs a reader over a byte sequence from its beginning, where offsets are 32 bits wide. -/
def parse {α : Type} (reader : Reader α) (data : Bytes) : Except ReadError α := do
  let (a, _) ← reader data {}
  pure a

/-- The position. -/
def position : Reader Nat := do pure (← get).position

/-- Moves to a position. -/
def seek (position : Nat) : Reader Unit := modify fun c => { c with position }

/-- Moves by a number of 64 bits, read as signed. -/
def skip (length : Nat) : Reader Unit := do
  let target : Int := (← position) + signed64 length
  if 0 ≤ target ∧ target < 0x10000000000000000 then seek target.toNat else throw .badPosition

/-- Sets the file's version. -/
def setVersion (version : Nat) : Reader Unit := modify fun c => { c with version }

/-- Whether everything has been read. -/
def atEnd : Reader Bool := do pure ((← read).size ≤ (← position))

/-- The next `length` bytes. -/
def bytes (length : Nat) : Reader Bytes := do
  let data ← read
  let start ← position
  if length ≤ data.size - start then
    seek (start + length)
    pure (data.extract start (start + length))
  else throw .truncated

/-- The next `length` bytes, with zeros for those past the end of the data, and how many there
were. -/
def bytesPadded (length : Nat) : Reader (Bytes × Nat) := do
  let data ← read
  let start ← position
  let found := data.extract start (start + length)
  seek (start + found.size)
  pure (found ++ Array.replicate (length - found.size) 0, found.size)

/-- The next byte. -/
def byte : Reader UInt8 := do pure ((← bytes 1).getD 0 0)

/-- The next 32 bits as an unsigned number. -/
def word : Reader Nat := do pure (← bytes 4).toNat

/-- The next 32 bits as a signed number. -/
def int32 : Reader Int := do pure (signed32 (← word))

/-- The next 32 bits as the bit pattern of a binary32 number. -/
def float32 : Reader UInt32 := do pure (UInt32.ofNat (← word))

/-- A truth value stored in 32 bits. -/
def flag : Reader Bool := do pure ((← word) != 0)

/-- A file offset. From version 11 on offsets have 64 bits, and a negative one is refused. -/
def offset : Reader Nat := do
  if 11 ≤ (← get).version then
    let n := signed64 (← bytes 8).toNat
    if n < 0 then throw (.negativeOffset n) else pure n.toNat
  else word

/-- A string: its length in 32 bits, and that many bytes, of which those from the first NUL on do
not count. -/
def string : Reader String := do
  let stored ← bytes (← word)
  pure (Utf8.decodeLossy (stored.toList.takeWhile (· != 0)))

end Reader

end XcfFlatten
