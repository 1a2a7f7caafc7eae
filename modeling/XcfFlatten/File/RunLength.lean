import XcfFlatten.File.Error
import XcfFlatten.Tile

/-!
# Run lengths

A channel of a tile is stored as a sequence of runs. A run begins with a control byte: below 128 it
repeats one byte, once more than the control byte says, and from 128 on it holds bytes as they are,
256 less the control byte of them. A length of 128 announces that the length follows in 16 bits.

* `RunLength.decode` reads runs until they fill a channel;
* `RunLength.write` spreads a channel's bytes over a buffer;
* `RunLength.decodeTile` reads the channels of a tile, one after another, and interleaves them.
-/

namespace XcfFlatten

/-- A run of bytes. -/
inductive Run where
  | repeated (count : Nat) (byte : UInt8)
  | literal (bytes : List UInt8)
  deriving DecidableEq

/-- The bytes of a run. -/
def Run.bytes : Run → List UInt8
  | repeated count byte => List.replicate count byte
  | literal bytes => bytes

namespace RunLength

/-- A run length with the bytes after it, read off the bytes after a control byte that says
`length`. -/
def runLength (length : Nat) (source : List UInt8) : Except RunError (Nat × List UInt8) :=
  if length = 128 then
    match source with
    | high :: low :: rest => .ok (high.toNat * 256 + low.toNat, rest)
    | _ => .error .ended
  else .ok (length, source)

/-- The first run of a source, of at most `room` bytes, and what comes after it. -/
def nextRun (room : Nat) : List UInt8 → Except RunError (Run × List UInt8)
  | [] => .error .ended
  | control :: source =>
    match runLength (if 128 ≤ control then 256 - control.toNat else control.toNat + 1) source with
    | .error error => .error error
    | .ok (length, rest) =>
      if room < length then .error .overflow
      else if 128 ≤ control then
        if (rest.take length).length < length then .error .literalCut
        else .ok (.literal (rest.take length), rest.drop length)
      else
        match rest with
        | [] => .error .ended
        | byte :: rest => .ok (.repeated length byte, rest)

/-- What comes after a length is no longer than the source. -/
theorem length_of_runLength {length n : Nat} {source rest : List UInt8}
    (h : runLength length source = .ok (n, rest)) : rest.length ≤ source.length := by
  unfold runLength at h
  split at h
  · split at h
    · simp only [Except.ok.injEq, Prod.mk.injEq] at h
      rw [← h.2]
      simp only [List.length_cons]
      omega
    · cases h
  · simp only [Except.ok.injEq, Prod.mk.injEq] at h
    exact h.2 ▸ Nat.le_refl _

/-- Reading a run makes the source shorter, even where the run is empty. -/
theorem length_of_nextRun {room : Nat} {source rest : List UInt8} {run : Run}
    (h : nextRun room source = .ok (run, rest)) : rest.length < source.length := by
  cases source with
  | nil => cases h
  | cons control source =>
    rw [nextRun] at h
    split at h
    · cases h
    · rename_i length tail hl
      have hle := length_of_runLength hl
      simp only [List.length_cons]
      split at h
      · cases h
      split at h
      · split at h
        · cases h
        · simp only [Except.ok.injEq, Prod.mk.injEq] at h
          rw [← h.2, List.length_drop]
          omega
      · split at h
        · cases h
        · simp only [Except.ok.injEq, Prod.mk.injEq] at h
          rw [← h.2]
          simp only [List.length_cons] at hle
          omega

/-- Reads runs until `room` bytes are there. The bytes of the runs read so far come first, then
either the rest of the source or what is wrong with the next run. -/
def decodeOnto (done : Array UInt8) (room : Nat) (source : List UInt8) :
    Array UInt8 × Except RunError (List UInt8) :=
  if room = 0 then (done, .ok source)
  else
    match _h : nextRun room source with
    | .error error => (done, .error error)
    | .ok (run, rest) => decodeOnto (done ++ run.bytes) (room - run.bytes.length) rest
termination_by source.length
decreasing_by exact length_of_nextRun _h

/-- Reads runs until they make up `count` bytes. -/
def decode (count : Nat) (source : List UInt8) : Array UInt8 × Except RunError (List UInt8) :=
  decodeOnto #[] count source

/-- Writes bytes into a buffer from its beginning on, `stride` apart. -/
def write (buffer : Bytes) (stride : Nat) (bytes : Array UInt8) : Bytes :=
  bytes.toList.zipIdx.foldl (fun buffer (b, k) => buffer.setIfInBounds (k * stride) b) buffer

/-- Decodes a channel of `count` bytes into a buffer, `stride` bytes apart. Next to the buffer
stands how many bytes of the source were used, or what is wrong with it; of wrong data the runs
before the wrong one are written. -/
def decodeInto (source : Bytes) (buffer : Bytes) (count stride : Nat) :
    Bytes × Except RunError Nat :=
  if 0 < count ∧ buffer.size ≤ (count - 1) * stride then (buffer, .error .noRoom)
  else
    let (bytes, rest) := decode count source.toList
    (write buffer stride bytes, rest.map fun rest => source.size - rest.length)

/-- Reads the given number of channels of `count` bytes, one after another. -/
def decodeChannels (count : Nat) : Nat → List UInt8 → Except RunError (List Bytes)
  | 0, _ => .ok []
  | channels + 1, source => do
    let (bytes, rest) := decode count source
    pure (bytes :: (← decodeChannels count channels (← rest)))

/-- Puts the bytes of channels of `count` bytes next to one another pixel by pixel. -/
def interleave (count : Nat) (channels : List Bytes) : Bytes :=
  Array.ofFn fun j : Fin (count * channels.length) =>
    (channels.getD (j % channels.length) #[]).getD (j / channels.length) 0

/-- Reads a tile of `count` pixels: its channels one after another, without regard to what comes
after them. -/
def decodeTile (source : Bytes) (count channels : Nat) : Except RunError Bytes :=
  (decodeChannels count channels source.toList).map (interleave count)

end RunLength

end XcfFlatten
