/-!
# Layer kinds

The six ways in which a layer's pixels are stored.
-/

namespace XcfFlatten

/-- What a layer stores for each pixel: a colour, a gray level or a palette index, with or without
alpha. -/
inductive LayerKind where
  | rgb
  | rgba
  | gray
  | grayAlpha
  | indexed
  | indexedAlpha
  deriving DecidableEq, Inhabited, Repr

namespace LayerKind

/-- Every kind, each at the place of its id. -/
def all : List LayerKind := [rgb, rgba, gray, grayAlpha, indexed, indexedAlpha]

/-- The kind with the given id. -/
def ofId? (id : Nat) : Option LayerKind := all[id]?

/-- The name shown to users. -/
def name : LayerKind → String
  | rgb => "Rgb"
  | rgba => "Rgba"
  | gray => "Gray"
  | grayAlpha => "GrayA"
  | indexed => "Indexed"
  | indexedAlpha => "IndexedA"

/-- How many channels each pixel has, a byte each. -/
def channels : LayerKind → Nat
  | rgb => 3
  | rgba => 4
  | gray | indexed => 1
  | grayAlpha | indexedAlpha => 2

/-- Whether pixels are gray levels. -/
def isGray : LayerKind → Bool
  | gray | grayAlpha => true
  | _ => false

/-- Whether pixels are palette indices. -/
def isIndexed : LayerKind → Bool
  | indexed | indexedAlpha => true
  | _ => false

end LayerKind

end XcfFlatten
