import XcfFlatten.File.Document
import XcfFlatten.Picture.Format

/-!
# Loading, saving and rendering

Loading reads a document from a file, saving writes a canvas as a picture in the format that the
file's name asks for, and rendering does one after the other. How files are reached is up to the
caller (`FileAccess`).
-/

namespace XcfFlatten

/-- Why a file cannot be reached. -/
inductive FileError where
  | notFound
  /-- Something in the middle of a path is no folder. -/
  | notDirectory
  | isDirectory
  | nameTooLong
  | nulInName
  | other (message : String)
  deriving DecidableEq

/-- The wording of an error. -/
def FileError.message : FileError → String
  | notFound => "No such file or directory (os error 2)"
  | notDirectory => "Not a directory (os error 20)"
  | isDirectory => "Is a directory (os error 21)"
  | nameTooLong => "File name too long (os error 36)"
  | nulInName => "file name contained an unexpected NUL byte"
  | other message => message

/-- How to reach files. -/
structure FileAccess (m : Type → Type) where
  /-- The bytes of a file. -/
  load : String → m (Except FileError Bytes)
  /-- Makes an empty file. -/
  create : String → m (Except FileError Unit)
  /-- Writes a picture into a file of a format. -/
  save : String → ImageFormat → Picture → m (Except FileError Unit)

/-- Why a document cannot be loaded or saved. -/
inductive TransferError where
  /-- The document's file cannot be reached. -/
  | load (error : FileError)
  /-- The document cannot be read. -/
  | read (error : ReadError)
  /-- The picture's file cannot be reached. -/
  | save (error : FileError)
  /-- The picture cannot be written. -/
  | format (error : FormatError)
  /-- The picture's file has no extension. -/
  | noExtension
  deriving DecidableEq

namespace TransferError

/-- The wording of an error. -/
def message : TransferError → String
  | load error => error.message
  | read error => error.message
  | save error => error.message
  | format error => error.message
  | noExtension => "unsupported format"

/-- The error and what lies behind it. Errors of files, documents and formats are wrapped once. -/
def causes : TransferError → List String
  | noExtension => [noExtension.message]
  | error => [error.message, error.message]

/-- A read error as a transfer error: bad positions are errors of the file. -/
def ofRead (error : ReadError) : TransferError :=
  if error = .badPosition then load (.other error.message) else read error

end TransferError

/-- The default limits, with other caps on the layers and the dimensions if given. -/
def Limits.withCaps (maxLayers maxDimension : Option Nat) : Limits :=
  let defaults : Limits := {}
  { defaults with
    maxLayers := maxLayers.getD defaults.maxLayers
    maxDimension := maxDimension.getD defaults.maxDimension }

/-- Why a document cannot be rendered, and which file stands in the way. -/
structure RenderError where
  context : String
  cause : TransferError
  deriving DecidableEq

namespace FileAccess

variable {m : Type → Type} [Monad m]

/-- Loads a document. -/
def loadDocument (files : FileAccess m) (name : String) (limits : Limits) :
    m (Except TransferError Document) := do
  match ← files.load name with
  | .error error => pure (.error (.load error))
  | .ok data => pure ((Document.decode data limits).mapError TransferError.ofRead)

/-- Leaves an empty file where a picture cannot be written. -/
def refuse (files : FileAccess m) (name : String) (error : FormatError) :
    m (Except TransferError Unit) := do
  match ← files.create name with
  | .ok () => pure (.error (.format error))
  | .error error => pure (.error (.save error))

/-- Saves a canvas. The name needs an extension, and the extension has to stand for a format that
takes the picture. -/
def saveCanvas (files : FileAccess m) (name : String) (canvas : Canvas) :
    m (Except TransferError Unit) := do
  match FileName.extension? name with
  | none => pure (.error .noExtension)
  | some extension =>
    match ImageFormat.ofExtension extension with
    | .error error => pure (.error (.format error))
    | .ok (.inr other) => files.refuse name (.unsupported other)
    | .ok (.inl format) =>
      let picture := format.prepare canvas.picture
      match format.check picture with
      | .error error => files.refuse name error
      | .ok () => do pure ((← files.save name format picture).mapError .save)

/-- Loads a document and saves its canvas. -/
def render (files : FileAccess m) (input output : String) (limits : Limits) :
    m (Except RenderError Unit) := do
  match ← files.loadDocument input limits with
  | .error cause => pure (.error ⟨s!"could not read {input}", cause⟩)
  | .ok document =>
    match ← files.saveCanvas output document.canvas with
    | .error cause => pure (.error ⟨s!"could not write {output}", cause⟩)
    | .ok () => pure (.ok ())

end FileAccess

end XcfFlatten
