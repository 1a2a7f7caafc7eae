import XcfFlatten.Canvas

/-!
# Pictures

A flattened canvas in the forms in which images are exchanged: levels, colours, or colours with
alpha.
-/

namespace XcfFlatten

/-- An image without a palette. -/
inductive Picture where
  | gray (cells : Raster UInt8)
  | rgb (cells : Raster Rgb)
  | rgba (cells : Raster Pixel)

namespace Picture

/-- The picture's width. -/
def width : Picture → Nat
  | gray cells => cells.width
  | rgb cells => cells.width
  | rgba cells => cells.width

/-- The picture's height. -/
def height : Picture → Nat
  | gray cells => cells.height
  | rgb cells => cells.height
  | rgba cells => cells.height

/-- The picture's colours, without their alpha. -/
def colors : Picture → Raster Rgb
  | gray cells => cells.map Rgb.gray
  | rgb cells => cells
  | rgba cells => cells.map Pixel.color

/-- The picture's colours with alpha. -/
def pixels : Picture → Raster Pixel
  | gray cells => cells.map fun level => (Rgb.gray level).solid
  | rgb cells => cells.map Rgb.solid
  | rgba cells => cells

/-- The channel bytes of one pixel, red first. -/
def pixelBytes (p : Pixel) : List UInt8 := [p.color.red, p.color.green, p.color.blue, p.alpha]

/-- The channel bytes of the picture's rows, from the top. -/
def rowBytes : Picture → List (List UInt8)
  | gray cells => cells.rows
  | rgb cells => cells.rows.map fun row => row.flatMap fun c => [c.red, c.green, c.blue]
  | rgba cells => cells.rows.map fun row => row.flatMap pixelBytes

end Picture

namespace Canvas

/-- The canvas in the smallest form of picture that loses nothing: a canvas without alpha needs
none, and a gray canvas needs its levels only. -/
def picture : Canvas → Picture
  | indexed .gray8 _ cells => .gray cells
  | indexed _ palette cells => .rgba (cells.map (entry palette))
  | color false cells => .rgb (cells.map Pixel.color)
  | color true cells => .rgba cells

end Canvas

end XcfFlatten
