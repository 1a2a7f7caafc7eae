/-!
# Tile compression
-/

namespace XcfFlatten

/-- How the tiles of a file are stored. -/
inductive Compression where
  | none
  /-- Run lengths. -/
  | rle
  | zlib
  | fractal
  deriving DecidableEq, Inhabited, Repr

namespace Compression

/-- Every method, each at the place of its id. -/
def all : List Compression := [none, rle, zlib, fractal]

/-- The method with the given id. -/
def ofId? (id : Nat) : Option Compression := all[id]?

/-- The name shown to users. -/
def name : Compression → String
  | none => "None"
  | rle => "Rle"
  | zlib => "Zlib"
  | fractal => "Fractal"

end Compression

end XcfFlatten
