import XcfFlatten.Picture
import XcfFlatten.Picture.Packing

/-!
# BMP files

`Bitmap.encode` writes a picture as a BMP file: gray levels with a palette of grays, colours in
three bytes, and colours with alpha in four. Rows go from the bottom up, blue comes first, and each
row takes up a multiple of four bytes.
-/

namespace XcfFlatten.Bitmap

open Packing

/-- A row with zeros behind it up to a multiple of four bytes. -/
def padded (row : List UInt8) : List UInt8 := row ++ List.replicate ((4 - row.length % 4) % 4) 0

/-- The bytes of the pixels. -/
def pixelBytes (picture : Picture) : Bytes :=
  let rows : List (List UInt8) :=
    match picture with
    | .gray cells => cells.rows
    | .rgb cells => cells.rows.map fun row => row.flatMap fun c => [c.blue, c.green, c.red]
    | .rgba cells => cells.rows.map fun row =>
      row.flatMap fun p => [p.color.blue, p.color.green, p.color.red, p.alpha]
  rows.reverse.foldl (fun out row => out ++ padded row) #[]

/-- The palette of grays. -/
def grays : Bytes :=
  (List.range 256).foldl
    (fun out n => out ++ #[UInt8.ofNat n, UInt8.ofNat n, UInt8.ofNat n, 0]) #[]

/-- What comes before the pixels of a picture: the number of bits of a pixel, how they are laid out,
and what the header says beyond that: which bits hold which channel, or the palette. -/
def layout : Picture → Nat × Nat × Bytes
  | .gray _ => (8, 0, grays)
  | .rgb _ => (24, 0, #[])
  | .rgba _ =>
    (32, 3, #[0, 0, 0xFF, 0, 0, 0xFF, 0, 0, 0xFF, 0, 0, 0, 0, 0, 0, 0xFF] ++ ascii "BGRs" ++
      Array.replicate 48 0)

/-- The bytes of a BMP file. -/
def encode (picture : Picture) : Bytes :=
  let (bits, compression, further) := layout picture
  let pixels := pixelBytes picture
  let headerSize := if compression = 0 then 40 else 40 + further.size
  let start := 14 + 40 + further.size
  ascii "BM" ++ littleEndian 4 (start + pixels.size) ++ littleEndian 4 0 ++ littleEndian 4 start ++
    littleEndian 4 headerSize ++ littleEndian 4 picture.width ++ littleEndian 4 picture.height ++
    littleEndian 2 1 ++ littleEndian 2 bits ++ littleEndian 4 compression ++
    littleEndian 4 pixels.size ++ littleEndian 4 0 ++ littleEndian 4 0 ++
    littleEndian 4 (if bits = 8 then 256 else 0) ++ littleEndian 4 0 ++
    further ++ pixels

end XcfFlatten.Bitmap
