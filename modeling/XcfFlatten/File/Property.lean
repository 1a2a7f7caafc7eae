import XcfFlatten.File.Limits
import XcfFlatten.File.Reader

/-!
# Property lists

A property record is a tag, a size and a payload of that size, with two exceptions whose size cannot
be relied on. A list of records ends with a terminator.

* `Property.read?` reads one record;
* `Property.readAll` reads a list and lets each known record change a state.

A record whose payload ends too early for what is read from it is passed over, but what it had
changed by then stays: what applying a record gives (`Applied`) is a state, whether or not it
failed.
-/

namespace XcfFlatten

/-- A property record. -/
structure Property where
  tag : PropertyTag
  payload : Bytes
  deriving DecidableEq

/-- What applying a record to a state gives: the new state, and why the rest of the record could not
be applied. -/
structure Applied (σ : Type) where
  state : σ
  failure : Option ReadError := none

/-- Sets a part of a state to what is read from the beginning of a payload. If that fails the state
stays. -/
def Applied.set {α σ : Type} (payload : Bytes) (reader : Reader α) (update : α → σ) (state : σ) :
    Applied σ :=
  match reader.parse payload with
  | .ok a => { state := update a }
  | .error error => { state, failure := some error }

namespace Property

/-- The largest colour map record, in bytes. -/
def maxColormapSize : Nat := 65535

/-- Reads a record, or nothing where a record with an unknown tag is skipped. A colour map is as
long as its number of colours says, whatever its size says. A unit's size leaves out the strings at
its end; its payload is of no interest. -/
def read? (limits : Limits) : Reader (Option Property) := do
  match PropertyTag.ofCode? (← Reader.word) with
  | none =>
    Reader.skip (← Reader.word)
    pure none
  | some .colormap =>
    let _ ← Reader.word
    let count ← Reader.bytes 4
    let colors := count.toNat
    if maxColormapSize < colors * 3 + 4 then throw (.colormapTooLarge colors)
    let (entries, _) ← Reader.bytesPadded (colors * 3)
    pure (some ⟨.colormap, count ++ entries⟩)
  | some .userUnit =>
    let _ ← Reader.word
    let _ ← Reader.float32
    let _ ← Reader.int32
    for _ in [1, 2, 3, 4, 5] do
      let _ ← Reader.string
    pure (some ⟨.userUnit, #[]⟩)
  | some tag =>
    let size ← Reader.word
    if limits.maxPropertySize < size then throw (.propertyTooLarge tag size)
    let (payload, _) ← Reader.bytesPadded size
    pure (some ⟨tag, payload⟩)

/-- Reads at most `remaining` records up to the terminator and applies each known one to the state.
Next to the state stands where the list ended, or what went wrong. -/
def foldRecords {σ : Type} (limits : Limits) (apply : Property → σ → Applied σ) (data : Bytes) :
    (remaining : Nat) → Cursor → σ → σ × Except ReadError Cursor
  | 0, _, state => (state, .error (.tooManyProperties limits.maxProperties))
  | remaining + 1, cursor, state =>
    match read? limits data cursor with
    | .error error => (state, .error error)
    | .ok (none, cursor) => foldRecords limits apply data remaining cursor state
    | .ok (some property, cursor) =>
      if property.tag = .terminator then (state, .ok cursor)
      else
        match apply property state with
        | { state, failure := some error } =>
          if error = .truncated then foldRecords limits apply data remaining cursor state
          else (state, .error error)
        | { state, failure := none } => foldRecords limits apply data remaining cursor state

/-- Reads a property list and applies its records to a state, which is kept beside the result even
if reading fails. -/
def run {σ : Type} (limits : Limits) (apply : Property → σ → Applied σ) (state : σ) (data : Bytes)
    (cursor : Cursor) : σ × Except ReadError Cursor :=
  foldRecords limits apply data limits.maxProperties cursor state

/-- Reads a property list and applies its records to a state. -/
def readAll {σ : Type} (limits : Limits) (apply : Property → σ → Applied σ) (state : σ) :
    Reader σ := fun data cursor =>
  match run limits apply state data cursor with
  | (state, .ok cursor) => .ok (state, cursor)
  | (_, .error error) => .error error

end Property

end XcfFlatten
