import XcfFlatten.Picture.Bitmap
import XcfFlatten.Picture.Format
import XcfFlatten.Picture.Gif
import XcfFlatten.Picture.Jpeg
import XcfFlatten.Picture.Png

/-!
# Encoding pictures

`ImageFormat.encode` gives the bytes of a file that shows a picture.
-/

namespace XcfFlatten.ImageFormat

/-- The bytes of a file of the format. -/
def encode (format : ImageFormat) (picture : Picture) : Bytes :=
  match format with
  | png => Png.encode picture
  | bmp => Bitmap.encode picture
  | jpeg => Jpeg.encode picture.colors
  | gif => Gif.encode picture.pixels

end XcfFlatten.ImageFormat
