import XcfFlatten.Picture
import XcfFlatten.Picture.Packing

/-!
# PNG files

`Png.encode` writes a picture as a PNG file: the rows as they are, without filters, in stored
blocks.
-/

namespace XcfFlatten.Png

open Packing

/-- A chunk: its length, its kind, its data and a checksum of the last two. -/
def chunk (kind : String) (data : Bytes) : Bytes :=
  let checked := ascii kind ++ data
  bigEndian 4 data.size ++ checked ++ bigEndian 4 (crc32 checked).toNat

/-- The most bytes of a stored block. -/
def maxBlock : Nat := 65535

/-- A stored block: whether it is the last, its length, the complement of the length, and the
bytes. -/
def block (isLast : Bool) (data : Bytes) : Bytes :=
  #[if isLast then 1 else 0] ++ littleEndian 2 data.size ++
    littleEndian 2 (maxBlock - data.size) ++ data

/-- A stream of stored blocks with a checksum behind them. -/
def stream (data : Bytes) : Bytes :=
  let count := (data.size + (maxBlock - 1)) / maxBlock
  let blocks := (List.range count).foldl
    (fun out i =>
      out ++ block (i + 1 = count) (data.extract (i * maxBlock) ((i + 1) * maxBlock))) #[]
  #[0x78, 0x01] ++ blocks ++ bigEndian 4 (adler32 data)

/-- The code of a picture's colour type. -/
def colorType : Picture → UInt8
  | .gray _ => 0
  | .rgb _ => 2
  | .rgba _ => 6

/-- The rows of a picture, each behind a zero that says that it is not filtered. -/
def scanlines (picture : Picture) : Bytes :=
  picture.rowBytes.foldl (fun (out : Bytes) (row : List UInt8) => out.push 0 ++ row) #[]

/-- The bytes of a PNG file. -/
def encode (picture : Picture) : Bytes :=
  let header :=
    bigEndian 4 picture.width ++ bigEndian 4 picture.height ++ #[8, colorType picture, 0, 0, 0]
  #[0x89] ++ ascii "PNG" ++ #[0x0D, 0x0A, 0x1A, 0x0A] ++
    chunk "IHDR" header ++ chunk "IDAT" (stream (scanlines picture)) ++ chunk "IEND" #[]

end XcfFlatten.Png
