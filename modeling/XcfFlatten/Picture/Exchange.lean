import XcfFlatten.Picture
import XcfFlatten.Tile

/-!
# Handing canvases to an image library

The images of a library have a number of channels, of one byte each, in every pixel. They are made
from the bytes of all pixels or from what a function gives for each of them; what else the library
does is left open (`ImageLibrary`, `ImageLibrary.Lawful`). A canvas stores the blue channel of a
pixel first, and the library asks for the red one, so the two are exchanged in the bytes
(`swapRedBlue`):

* `ImageLibrary.rgbaImage` is the image of a canvas with all four channels;
* `ImageLibrary.closestImage?` is the one that a canvas needs: without alpha it has three channels,
  and a gray canvas has one.
-/

namespace XcfFlatten

/-- What an image library does. -/
structure ImageLibrary where
  /-- The images with so many channels. -/
  Image : (channels : Nat) → Type
  /-- The image with the given bytes, row by row and pixel by pixel, if they suffice. -/
  ofBytes? : {n : Nat} → (width height : Nat) → Bytes → Option (Image n)
  /-- The image with what a function gives for each position, unless it fails. -/
  ofFn? : {n : Nat} → (width height : Nat) → (Nat → Nat → Option (Vector UInt8 n)) →
    Option (Image n)
  /-- The image whose bytes are all zero. -/
  blank : {n : Nat} → (width height : Nat) → Image n
  /-- The bytes of a pixel. -/
  pixel? : {n : Nat} → Image n → (x y : Nat) → Option (Vector UInt8 n)

namespace ImageLibrary

/-- As many bytes as the size asks for are kept as they are, and what a function gives for a
position is stored there. -/
structure Lawful (lib : ImageLibrary) : Prop where
  ofBytes? : ∀ {n width height : Nat} {bytes : Bytes}, bytes.size = width * height * n →
    ∃ image, lib.ofBytes? width height bytes = some image ∧
      ∀ x < width, ∀ y < height, (lib.pixel? (n := n) image x y).map Vector.toArray =
        some (bytes.extract ((y * width + x) * n) ((y * width + x) * n + n))
  ofFn? : ∀ {n width height : Nat} {f : Nat → Nat → Option (Vector UInt8 n)},
    (∀ x < width, ∀ y < height, (f x y).isSome) →
      ∃ image, lib.ofFn? width height f = some image ∧
        ∀ x < width, ∀ y < height, lib.pixel? image x y = f x y

end ImageLibrary

namespace Pixel

/-- The bytes of a pixel as a canvas stores it. -/
def stored (p : Pixel) : Vector UInt8 4 := #v[p.color.blue, p.color.green, p.color.red, p.alpha]

/-- The bytes of a pixel with its red channel first. -/
def rgba (p : Pixel) : Vector UInt8 4 := #v[p.color.red, p.color.green, p.color.blue, p.alpha]

end Pixel

/-- The bytes of a colour. -/
def Rgb.bytes (c : Rgb) : Vector UInt8 3 := #v[c.red, c.green, c.blue]

/-- The bytes of a raster of stored pixels. -/
def Raster.storedBytes (cells : Raster Pixel) : Bytes :=
  cells.cells.flatMap fun p => p.stored.toArray

/-- Exchanges the blue and the red byte of the `i`-th pixel. -/
def swapPixel (bytes : Bytes) (i : Nat) : Bytes := bytes.swapIfInBounds (i * 4) (i * 4 + 2)

/-- Exchanges the blue and the red bytes of all whole pixels. -/
def swapRedBlue (bytes : Bytes) : Bytes := (List.range (bytes.size / 4)).foldl swapPixel bytes

namespace ImageLibrary

variable (lib : ImageLibrary)

/-- The canvas as an image with red, green, blue and alpha. -/
def rgbaImage (canvas : Canvas) : lib.Image 4 :=
  (lib.ofBytes? canvas.width canvas.height (swapRedBlue canvas.pixels.storedBytes)).getD
    (lib.blank canvas.width canvas.height)

/-- An image in one of the forms that canvases are converted to. -/
inductive Converted where
  | luma (image : lib.Image 1)
  | rgb (image : lib.Image 3)
  | rgba (image : lib.Image 4)

variable {lib}

/-- The pixel that an image shows. Without an alpha channel it is opaque. -/
def Converted.pixel? : lib.Converted → (x y : Nat) → Option Pixel
  | luma image, x, y => (lib.pixel? image x y).map fun v => (Rgb.gray v[0]).solid
  | rgb image, x, y => (lib.pixel? image x y).map fun v => (Rgb.mk v[0] v[1] v[2]).solid
  | rgba image, x, y => (lib.pixel? image x y).map fun v => ⟨⟨v[0], v[1], v[2]⟩, v[3]⟩

variable (lib)

/-- The canvas in the closest form. There is no image if a colour is asked for where the canvas has
none. -/
def closestImage? (canvas : Canvas) : Option lib.Converted :=
  match canvas.format with
  | .color false =>
    (lib.ofFn? canvas.width canvas.height fun x y =>
      (canvas.colorAt? x y).map fun p => p.color.bytes).map .rgb
  | .palette .gray8 =>
    (lib.ofFn? canvas.width canvas.height fun x y =>
      (canvas.indexAt? x y).map fun index => #v[index]).map .luma
  | _ => some (.rgba (lib.rgbaImage canvas))

end ImageLibrary

end XcfFlatten
