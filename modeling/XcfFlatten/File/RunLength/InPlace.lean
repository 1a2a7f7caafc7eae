import XcfFlatten.File.RunLength

/-!
# Decoding in place

`RunLength.decodeInto` takes the runs off a list of bytes and writes what they come to at the end, and
`RunLength.decodeTile` puts whole channels together. The operations of this module do the same work
where the bytes are: they look up the source at a position, write each byte of a run to its place in
the buffer when they have it, and count both. They stop at whatever ought not to happen (`Halt`):

* `InPlace.decodeInto` decodes a channel, in rounds of one run each (`InPlace.round`);
* `InPlace.decodeTile` decodes the channels of a tile into one buffer, each behind the source bytes of
  the one before it, and each from a place of its own on.

Each operation here is named like the one that it carries out.
-/

namespace XcfFlatten.RunLength

namespace InPlace

/-- Why decoding stops. -/
inductive Halt where
  /-- The data is wrong, or the bytes do not fit where they are to be written. -/
  | data (error : RunError)
  -- None of the others ought to happen.
  /-- A place outside of the buffer, or a part of the source or of the buffer that is not there. -/
  | outside
  /-- A place that does not fit 64 bits. -/
  | place
  /-- More rounds than were allowed. -/
  | rounds
  deriving DecidableEq, Repr

/-- How far decoding has come: the next byte of the source, and how many bytes of the channel have
been written to the buffer. -/
structure Progress where
  position : Nat
  written : Nat
  buffer : Bytes

/-- A step of decoding. What it has done stays done, also where it stops. -/
abbrev Step (α : Type) : Type := EStateM Halt Progress α

/-- The next byte of the source. -/
def next (source : Bytes) : Step UInt8 := fun progress =>
  match source[progress.position]? with
  | some byte => .ok byte { progress with position := progress.position + 1 }
  | none => .error (.data .ended) progress

/-- Goes on if the condition holds. -/
def require (halt : Halt) (condition : Prop) [Decidable condition] : Step Unit := fun progress =>
  if condition then .ok () progress else .error halt progress

/-- Writes the next byte of the channel. -/
def put (stride : Nat) (byte : UInt8) : Step Unit := fun progress =>
  if progress.written * stride < progress.buffer.size then
    .ok () { progress with
      written := progress.written + 1
      buffer := progress.buffer.setIfInBounds (progress.written * stride) byte }
  else .error .outside progress

/-- Writes the next bytes of the channel, one after another. -/
def putAll (stride : Nat) : List UInt8 → Step Unit
  | [] => pure ()
  | byte :: bytes => do
    put stride byte
    putAll stride bytes

/-- The length that a control byte says, or that it announces and the next two bytes say. -/
def runLength (source : Bytes) (control : UInt8) : Step Nat :=
  let length := if 128 ≤ control then 256 - control.toNat else control.toNat + 1
  if length = 128 then do
    let high ← next source
    let low ← next source
    pure (high.toNat * 256 + low.toNat)
  else pure length

/-- Takes as many bytes off the source as they are, and writes them. -/
def literal (source : Bytes) (stride length : Nat) : Step Unit := do
  let position := (← get).position
  require (.data .literalCut) (position + length ≤ source.size)
  putAll stride (source.extract position (position + length)).toList
  modify fun progress => { progress with position := position + length }

/-- Takes one byte off the source, and writes it as often as `length` says. -/
def repeated (source : Bytes) (stride length : Nat) : Step Unit := do
  let byte ← next source
  putAll stride (List.replicate length byte)

/-- Reads a run and writes its bytes. -/
def round (source : Bytes) (count stride : Nat) : Step Unit := do
  let control ← next source
  let length ← runLength source control
  require (.data .overflow) (length ≤ count - (← get).written)
  -- Nothing has been written yet, so a run that is wrong so far leaves the buffer as it was.
  if 128 ≤ control then literal source stride length else repeated source stride length

/-- Rounds until `count` bytes are written, but no more than are allowed. -/
def loop (source : Bytes) (count stride : Nat) : (rounds : Nat) → Step Unit
  | 0 => do require .rounds (count ≤ (← get).written)
  | rounds + 1 => do
    if (← get).written < count then
      round source count stride
      loop source count stride rounds

/-- Decodes a channel of `count` bytes into a buffer, `stride` bytes apart, in so many rounds at the
most. Next to the buffer, as it is then, stands how many bytes of the source were used, or why
decoding stopped. -/
def decodeInto (rounds : Nat) (source buffer : Bytes) (count stride : Nat) :
    Bytes × Except Halt Nat :=
  if 0 < count ∧ UInt64.size ≤ (count - 1) * stride then (buffer, .error .place)
  else if 0 < count ∧ buffer.size ≤ (count - 1) * stride then (buffer, .error (.data .noRoom))
  else
    match (loop source count stride rounds).run ⟨0, 0, buffer⟩ with
    | .ok _ progress => (progress.buffer, .ok progress.position)
    | .error halt progress => (progress.buffer, .error halt)

/-- Decodes a channel of a tile from a position of the source on. Its first byte in the tile stands at
its number, the others as many bytes apart as there are channels. -/
def decodeChannel (rounds : Nat) (source : Bytes) (count channels : Nat) (tile : Bytes)
    (position channel : Nat) : Except Halt (Bytes × Nat) :=
  if position ≤ source.size ∧ channel ≤ tile.size then
    match decodeInto rounds (source.extract position source.size) (tile.extract channel tile.size)
        count channels with
    | (bytes, .ok used) => .ok (tile.extract 0 channel ++ bytes, position + used)
    | (_, .error halt) => .error halt
  else .error .outside

/-- Decodes the channels of a tile from the one with the number `channel` on, as many as are left. -/
def decodeChannels (rounds : Nat) (source : Bytes) (count channels : Nat) :
    (left channel : Nat) → (tile : Bytes) → (position : Nat) → Except Halt Bytes
  | 0, _, tile, _ => .ok tile
  | left + 1, channel, tile, position =>
    match decodeChannel rounds source count channels tile position channel with
    | .ok (tile, position) =>
      decodeChannels rounds source count channels left (channel + 1) tile position
    | .error halt => .error halt

/-- Decodes a tile of `count` pixels into one buffer, with so many rounds for each channel at the
most. -/
def decodeTile (rounds : Nat) (source : Bytes) (count channels : Nat) : Except Halt Bytes :=
  if UInt64.size ≤ count * channels then .error .place
  else if count = 0 then .ok (Array.replicate (count * channels) 0)
  else
    decodeChannels rounds source count channels channels 0 (Array.replicate (count * channels) 0) 0

end InPlace

end XcfFlatten.RunLength
