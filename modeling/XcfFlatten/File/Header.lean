import XcfFlatten.File.Parasite
import XcfFlatten.File.Property
import XcfFlatten.Text.Unsigned

/-!
# The beginning of a file

A file begins with its header: a tag that names the version, the size of the image, its colour model
and, from version 4 on, its precision. The properties of the image and the table of layers follow.

* `Header.read`, `ImageProperties.read` and `readLayerTable` read them;
* `isXcf` and `peekSize` look at the header and go back to where they began.
-/

namespace XcfFlatten

/-- A document's colour model. -/
inductive BaseType where
  | rgb
  | gray
  | indexed
  deriving DecidableEq, Inhabited, Repr

namespace BaseType

/-- Every colour model, each at the place of its id. -/
def all : List BaseType := [rgb, gray, indexed]

/-- The colour model with the given id. -/
def ofId? (id : Nat) : Option BaseType := all[id]?

/-- The name shown to users. -/
def name : BaseType → String
  | rgb => "Rgb"
  | gray => "Gray"
  | indexed => "Indexed"

end BaseType

/-- The header of a file. -/
structure Header where
  version : Nat
  width : Nat
  height : Nat
  baseType : BaseType
  precision : Option Nat
  deriving DecidableEq

namespace Header

/-- The bytes of an ASCII text. -/
def ascii (text : String) : List UInt8 := text.toList.map fun c => UInt8.ofNat c.toNat

/-- What every file begins with. -/
def magic : List UInt8 := ascii "gimp xcf"

/-- The newest version of the format that is understood. -/
def newestVersion : Nat := 11

/-- The version that the four bytes of a tag name: `file` is the first, others are a `v` and a
number. -/
def version? (tag : List UInt8) : Option Nat :=
  if tag = ascii "file" then some 0
  else
    match tag with
    | 0x76 :: digits => (Unsigned.parse (digits.map fun b => Char.ofNat b.toNat)).toOption
    | _ => none

/-- Reads a header, and sets the reader's version. -/
def read : Reader Header := do
  let tag := (← Reader.bytes 14).toList
  if tag.take 8 ≠ magic ∨ tag[13]? ≠ some 0 then throw .notXcf
  let versionTag := (tag.drop 9).take 4
  match version? versionTag with
  | none => throw (.badVersionTag (Utf8.decodeLossy versionTag))
  | some version =>
    if newestVersion < version then throw (.fileVersion version)
    Reader.setVersion version
    let width ← Reader.word
    let height ← Reader.word
    let id ← Reader.word
    match BaseType.ofId? id with
    | none => throw (.unknownImageType id)
    | some baseType =>
      let precision ← if 4 ≤ version then some <$> Reader.word else pure none
      pure { version, width, height, baseType, precision }

end Header

/-- Runs a reader with a cursor of its own, and goes on where that one stops. Where it stops is not
known if the reader fails: it may have gone astray to anywhere. -/
def Reader.attempt {α : Type} (reader : Reader α) (astray : Nat) : Reader (Except ReadError α) :=
  fun data cursor =>
    match reader data { position := cursor.position } with
    | .ok (a, after) => .ok (.ok a, { cursor with position := after.position })
    | .error error => .ok (.error error, { cursor with position := astray })

/-- Whether the bytes that follow are those that every file begins with. The reader goes back to
where it began. -/
def isXcf : Reader Bool := do
  let start ← Reader.position
  let (bytes, found) ← Reader.bytesPadded Header.magic.length
  Reader.seek start
  pure (bytes.toList.take found == Header.magic)

/-- The size of the image, from the header that follows. The reader goes back to where it began,
wherever it is by then. -/
def peekSize (data : Bytes) (cursor : Cursor) (astray : Nat := 0) :
    Except ReadError (Except ReadError (Nat × Nat) × Cursor) :=
  let look : Reader (Except ReadError (Nat × Nat)) := do
    let start ← Reader.position
    let header ← Header.read.attempt astray
    Reader.seek start
    pure (header.map fun header => (header.width, header.height))
  look data cursor

/-- The properties of an image. -/
structure ImageProperties where
  compression : Compression := .rle
  /-- Dots per inch, horizontally and vertically, as binary32 bit patterns. -/
  resolution : Option (UInt32 × UInt32) := none
  tattoo : Nat := 0
  unit : Nat := 0
  palette : Palette := #[]
  comment : Option String := none
  metadata : Option String := none
  iccProfile : Option Bytes := none
  deriving DecidableEq

namespace ImageProperties

/-- The text in a parasite: its bytes apart from NULs. -/
def parasiteText (data : List UInt8) : String := Utf8.decodeLossy (data.filter (· != 0))

/-- What a parasite says about an image. One without data says nothing. -/
def attach (props : ImageProperties) (parasite : Parasite) : ImageProperties :=
  if parasite.data.isEmpty then props
  else if parasite.name = "gimp-comment" then
    { props with comment := some (parasiteText parasite.data) }
  else if parasite.name = "gimp-image-metadata" then
    { props with metadata := some (parasiteText parasite.data) }
  else if parasite.name = "icc-profile" then { props with iccProfile := some parasite.data.toArray }
  else props

/-- The most colours of a colour map. -/
def maxColors : Nat := 65535

/-- The colours of a colour map: their number, and a byte each for red, green and blue. -/
def readPalette : Reader Palette := do
  let colors ← Reader.word
  if maxColors < colors then throw (.colormapEntries colors)
  let entries ← Reader.bytes (colors * 3)
  pure (Array.ofFn fun i : Fin colors =>
    ⟨entries.getD (i * 3) 0, entries.getD (i * 3 + 1) 0, entries.getD (i * 3 + 2) 0⟩)

/-- What one property record changes about an image. -/
def apply (property : Property) (props : ImageProperties) : Applied ImageProperties :=
  let payload := property.payload
  match property.tag with
  | .compression =>
    match Reader.byte.parse payload with
    | .error error => { state := props, failure := some error }
    | .ok id =>
      match Compression.ofId? id.toNat with
      | some compression => { state := { props with compression } }
      | none => { state := props, failure := some (.compressionMethod id.toNat) }
  | .resolution =>
    .set payload (do pure (← Reader.float32, ← Reader.float32))
      (fun dpi => { props with resolution := some dpi }) props
  | .tattoo => .set payload Reader.word (fun n => { props with tattoo := n }) props
  | .unit => .set payload Reader.word (fun n => { props with unit := n }) props
  | .parasites => { state := (Parasite.parse payload).foldl attach props }
  | .colormap => .set payload readPalette (fun palette => { props with palette }) props
  | _ => { state := props }

/-- Reads the properties of an image. -/
def read (limits : Limits) : Reader ImageProperties := Property.readAll limits apply {}

end ImageProperties

/-- Reads a table of layer offsets up to the zero that ends it, with at most `room` entries before
it. A file lists its layers from the top down; they come from the bottom up, and after them those
already read. -/
def readLayerTable (limits : Limits) : (room : Nat) → (done : List Nat) → Reader (List Nat)
  | 0, done => do
    if (← Reader.offset) = 0 then pure done else throw (.tooManyLayers limits.maxLayers)
  | room + 1, done => do
    let offset ← Reader.offset
    if offset = 0 then pure done else readLayerTable limits room (offset :: done)

end XcfFlatten
