import XcfFlatten.Picture.Network
import XcfFlatten.Raster

/-!
# Colour tables

What a picture looks like in at most 256 colours, one of which can be clear. Pixels of up to 256
different colours are kept as they are (`ColorTable.exact`). For more, a network learns which
colours to use, and each pixel takes one close to it (`ColorTable.learned`).
-/

namespace XcfFlatten

/-- A pixel that is clear or opaque: without alpha it stays, and otherwise it becomes opaque. -/
def Pixel.hardAlpha (p : Pixel) : Pixel := if p.alpha = 0 then p else p.color.solid

/-- The colours in which a picture is shown. -/
structure ColorTable where
  colors : Array Rgb
  /-- The entry for a pixel. -/
  index : Pixel → Nat
  /-- The entry that is clear. -/
  clear? : Option Nat

namespace ColorTable

/-- How many colours a table has at most. -/
def limit : Nat := 256

/-- The different pixels of a picture, unless there are more than a table can have. -/
def distinct? (cells : Array Pixel) : Option (List Pixel) :=
  let add (found : List Pixel) (p : Pixel) : Option (List Pixel) :=
    if found.contains p then some found
    else if found.length < limit then some (p :: found)
    else none
  cells.foldlM add []

/-- The table of the given pixels. -/
def exact (pixels : List Pixel) : ColorTable where
  colors := (pixels.map Pixel.color).toArray
  index p := pixels.idxOf p
  clear? := none

/-- The green level of an entry. -/
def green (entries : Array Pixel) (index : Nat) : UInt8 := (entries.getD index default).color.green

/-- The first entry of the least green, from the given one on. -/
def leastGreen (entries : Array Pixel) (first : Nat) : Nat :=
  (List.range' first (entries.size - first)).foldl
    (fun least i => if green entries i < green entries least then i else least) first

/-- The entries in the order of their green. The least of those that are left changes places with
the first of them. -/
def byGreen (entries : Array Pixel) : Array Pixel :=
  (List.range entries.size).foldl
    (fun entries i => entries.swapIfInBounds i (leastGreen entries i)) entries

/-- The elements of two lists by turns. -/
def byTurns {α : Type} : List α → List α → List α
  | [], second => second
  | x :: first, second => x :: byTurns second first
termination_by first second => first.length + second.length

/-- The order in which entries are tried for a green level: from the middle of the entries of this
green up and down by turns. The very first entry is left out on the way down. -/
def candidates (entries : Array Pixel) (level : UInt8) : List Nat :=
  let below := entries.countP fun entry => entry.color.green < level
  let upTo := entries.countP fun entry => entry.color.green ≤ level
  let middle := (below + min upTo (entries.size - 1)) / 2
  byTurns (List.range' middle (entries.size - middle)) (List.range' 1 (middle - 1)).reverse

/-- The square of the distance between two levels. -/
def squareGap (a b : UInt8) : Nat := (max a b - min a b).toNat * (max a b - min a b).toNat

/-- The square of the distance between two pixels. -/
def squareDistance (p q : Pixel) : Nat :=
  squareGap p.color.green q.color.green + squareGap p.color.blue q.color.blue +
    squareGap p.color.red q.color.red + squareGap p.alpha q.alpha

/-- The closest of the candidates, which are tried until one is too far off by its green alone. -/
def closest (entries : Array Pixel) (p : Pixel) :
    (candidates : List Nat) → (best distance : Nat) → Nat
  | [], best, _ => best
  | i :: candidates, best, distance =>
    let entry := entries.getD i default
    if distance ≤ squareGap entry.color.green p.color.green then best
    else if squareDistance entry p < distance then
      closest entries p candidates i (squareDistance entry p)
    else closest entries p candidates best distance

/-- A square that is larger than that of any distance. -/
def farthest : Nat := 4 * 255 * 255 + 1

/-- The table that a network learns from pixels. -/
def learned (cells : Array Pixel) : ColorTable :=
  let entries := byGreen ((Network.learned cells).neurons.map fun neuron => neuron.place.toPixel)
  let candidates := Array.ofFn fun level : Fin 256 => candidates entries (UInt8.ofNat level)
  { colors := entries.map Pixel.color
    index := fun p => closest entries p (candidates.getD p.color.green.toNat []) 0 farthest
    clear? := none }

/-- The table for a picture. The entry of the last pixel without alpha is clear. -/
def ofCells (cells : Array Pixel) : ColorTable :=
  let hard := cells.map Pixel.hardAlpha
  let table :=
    match distinct? hard with
    | some pixels => exact pixels
    | none => learned hard
  { table with clear? := (hard.toList.reverse.find? fun p => p.alpha = 0).map table.index }

/-- What a pixel looks like. -/
def shown (table : ColorTable) (p : Pixel) : Pixel :=
  let i := table.index p.hardAlpha
  ⟨table.colors.getD i Rgb.black, if some i = table.clear? then 0 else 255⟩

end ColorTable

end XcfFlatten
