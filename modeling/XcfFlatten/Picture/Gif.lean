import XcfFlatten.Picture.ColorTable
import XcfFlatten.Picture.Packing

/-!
# GIF files

`Gif.encode` writes a picture in the colours of a table as a GIF file. The codes of the pixels are
not compressed: the code table is reset before codes would grow.
-/

namespace XcfFlatten.Gif

open Packing

/-- The code that resets the code table. -/
def resetCode : Nat := 256

/-- The code that ends the data. -/
def endCode : Nat := 257

/-- How many pixels there are between two resets: so few that every code has nine bits. -/
def resetInterval : Nat := 250

/-- The codes of pixels. -/
def codes (indices : Array Nat) : Array Code :=
  let body := (List.range ((indices.size + (resetInterval - 1)) / resetInterval)).foldl
    (fun out i =>
      out.push resetCode ++ indices.extract (i * resetInterval) ((i + 1) * resetInterval)) #[]
  (body.push endCode).map fun value => ⟨9, value⟩

/-- Data in blocks of at most 255 bytes, each behind its length, and an empty block at the end. -/
def blocks (data : Bytes) : Bytes :=
  ((List.range ((data.size + 254) / 255)).foldl
    (fun (out : Bytes) i =>
      let part := data.extract (i * 255) ((i + 1) * 255)
      out.push (UInt8.ofNat part.size) ++ part) #[]).push 0

/-- The bytes of a GIF file. -/
def encode (cells : Raster Pixel) : Bytes :=
  let table := ColorTable.ofCells cells.cells
  let indices := cells.cells.map fun p => table.index p.hardAlpha
  let size := littleEndian 2 cells.width ++ littleEndian 2 cells.height
  let entries := table.colors.foldl (fun (out : Bytes) c => out ++ #[c.red, c.green, c.blue]) #[]
  let control : Bytes := table.clear?.elim #[] fun i => #[0x21, 0xF9, 4, 1, 0, 0, UInt8.ofNat i, 0]
  ascii "GIF89a" ++ size ++ #[0xF7, 0, 0] ++ entries ++ Array.replicate (768 - entries.size) 0 ++
    control ++ #[0x2C, 0, 0, 0, 0] ++ size ++ #[0, 8] ++ blocks (packLow (codes indices)) ++ #[0x3B]

end XcfFlatten.Gif
