import XcfFlatten.Picture
import XcfFlatten.Picture.ColorTable
import XcfFlatten.Text.FileName
import XcfFlatten.Text.Quoted

/-!
# Image formats

The formats in which pictures can be saved, told by a file's extension (`ImageFormat.ofExtension`).
A format does not take every picture (`ImageFormat.check`), and does not show every picture as it
was: `ImageFormat.view?` is what there is to see in a file.
-/

namespace XcfFlatten

/-- A format in which pictures can be saved. -/
inductive ImageFormat where
  | png
  | jpeg
  | bmp
  | gif
  deriving DecidableEq, Repr

/-- Why a picture cannot be saved in a format. -/
inductive FormatError where
  | unknownExtension (extension : String)
  /-- The extension stands for a format in which nothing is saved. -/
  | unsupported (format : String)
  | noWidth
  | noHeight
  /-- A side is too long. -/
  | size
  /-- The format knows colours only. -/
  | grayLevels
  deriving DecidableEq

/-- The wording of an error. -/
def FormatError.message : FormatError → String
  | unknownExtension extension =>
    s!"The file extension `.{Quoted.quote extension}` was not recognized as an image format"
  | unsupported format => s!"The image format `{format}` is not supported"
  | noWidth => "Zero width not allowed"
  | noHeight => "Zero height not allowed"
  | size => "The Image's dimensions are either too small or too large"
  | grayLevels => "The decoder for Gif does not support the color type `L8`"

namespace ImageFormat

/-- The format that an extension in small letters stands for: one to save in, or the name of
another. -/
def ofLowerCase? : String → Option (ImageFormat ⊕ String)
  | "png" => some (.inl png)
  | "jpg" | "jpeg" => some (.inl jpeg)
  | "bmp" => some (.inl bmp)
  | "gif" => some (.inl gif)
  | "avif" => some (.inr "Avif")
  | "dds" => some (.inr "Dds")
  | "exr" => some (.inr "OpenExr")
  | "ff" | "farbfeld" => some (.inr "Farbfeld")
  | "hdr" => some (.inr "Hdr")
  | "ico" => some (.inr "Ico")
  | "pam" | "pbm" | "pgm" | "ppm" => some (.inr "Pnm")
  | "qoi" => some (.inr "Qoi")
  | "tga" => some (.inr "Tga")
  | "tif" | "tiff" => some (.inr "Tiff")
  | "webp" => some (.inr "WebP")
  | _ => none

/-- The format that an extension stands for, in capitals or not. -/
def ofExtension (extension : String) : Except FormatError (ImageFormat ⊕ String) :=
  match ofLowerCase? (extension.map Char.toLower) with
  | some format => .ok format
  | none => .error (.unknownExtension extension)

/-- The format that a file's name asks for, if pictures can be saved in it. -/
def ofFileName? (name : String) : Option ImageFormat :=
  match (FileName.extension? name).map ofExtension with
  | some (.ok (.inl format)) => some format
  | _ => none

/-- What of a picture is handed to the format: JPEG knows no alpha, and takes colours only. -/
def prepare (format : ImageFormat) (picture : Picture) : Picture :=
  match format with
  | jpeg => .rgb picture.colors
  | png | bmp | gif => picture

/-- The longest side that a picture has in formats that set a limit. -/
def longestSide : Nat := 65535

/-- Whether no side of a picture is longer than formats allow. -/
def sidesFit (picture : Picture) : Bool :=
  picture.width ≤ longestSide && picture.height ≤ longestSide

/-- Whether a picture can be saved in the format. A PNG is not without pixels, and a GIF has no gray
levels. -/
def check (format : ImageFormat) (picture : Picture) : Except FormatError Unit :=
  match format, picture with
  | png, picture =>
    if picture.width = 0 then .error .noWidth
    else if picture.height = 0 then .error .noHeight
    else .ok ()
  | jpeg, picture => if sidesFit picture then .ok () else .error .size
  | bmp, _ => .ok ()
  | gif, picture =>
    if sidesFit picture then
      match picture with
      | .gray _ => .error .grayLevels
      | .rgb _ | .rgba _ => .ok ()
    else .error .size

/-- A picture as a GIF shows it. -/
def inTable (cells : Raster Pixel) : Picture :=
  .rgba (cells.map (ColorTable.ofCells cells.cells).shown)

/-- What there is to see in a file of the format that has been handed a picture. A BMP shows gray
levels as colours, and readers take none whose sides are too long. A GIF shows colours with alpha,
as many as its table holds. Without pixels there is nothing to see, except that a BMP can be without
height. -/
def view? (format : ImageFormat) (picture : Picture) : Option Picture :=
  if picture.width = 0 then none
  else if picture.height = 0 ∧ format ≠ bmp then none
  else
    match format, picture with
    | png, picture => some picture
    | jpeg, picture => some picture
    | bmp, .gray cells => if sidesFit (.gray cells) then some (.rgb (cells.map Rgb.gray)) else none
    | bmp, picture => if sidesFit picture then some picture else none
    | gif, picture => some (inTable picture.pixels)

end ImageFormat

end XcfFlatten
