import XcfFlatten.Picture
import XcfFlatten.Picture.Packing

/-!
# JPEG files

`Jpeg.encode` writes colours as a baseline JPEG file with all three components at full resolution.
One table of quantizers and two tables of codes, all codes of a table equally long, serve all
components.
-/

namespace XcfFlatten.Jpeg

open Packing

/-- The positions of the coefficients of a block in the order in which they are stored: along the
diagonals. -/
def zigzag : List Nat :=
  [0, 1, 8, 16, 9, 2, 3, 10, 17, 24, 32, 25, 18, 11, 4, 5, 12, 19, 26, 33, 40, 48, 41, 34, 27, 20,
    13, 6, 7, 14, 21, 28, 35, 42, 49, 56, 57, 50, 43, 36, 29, 22, 15, 23, 30, 37, 44, 51, 58, 59,
    52, 45, 38, 31, 39, 46, 53, 60, 61, 54, 47, 55, 62, 63]

/-- The quantizer of a coefficient: the higher the frequencies, the coarser. -/
def quantizer (position : Nat) : Nat := 3 + 2 * (position / 8 + position % 8)

/-- The weights of the samples of a row in its frequencies. -/
def weights : Array Float :=
  Array.ofFn fun i : Fin 64 =>
    let frequency := (i.val / 8).toFloat
    let sample := (i.val % 8).toFloat
    let scale := if i.val < 8 then Float.sqrt 0.125 else 0.5
    scale * Float.cos ((2 * sample + 1) * frequency * 3.141592653589793 / 16)

/-- Turns each row of a block into frequencies, and the block on its diagonal. -/
def frequencies (block : Array Float) : Array Float :=
  Array.ofFn fun i : Fin 64 =>
    (List.range 8).foldl
      (fun sum x => sum + block.getD (i.val % 8 * 8 + x) 0 * weights.getD (i.val / 8 * 8 + x) 0) 0

/-- The quantized coefficients of a block, in the order in which they are stored. -/
def coefficients (block : Array Float) : List Int :=
  let transformed := frequencies (frequencies block)
  zigzag.map fun position =>
    (transformed.getD position 0 / (quantizer position).toFloat).round.toInt32.toInt

/-- The components of a colour, with zero in the middle of their range: brightness, and how blue and
how red it is. -/
def components (c : Rgb) : List Float :=
  let r := c.red.toFloat
  let g := c.green.toFloat
  let b := c.blue.toFloat
  [0.299 * r + 0.587 * g + 0.114 * b - 128, -0.168736 * r - 0.331264 * g + 0.5 * b,
    0.5 * r - 0.418688 * g - 0.081312 * b]

/-- The number of bits of a coefficient. -/
def bitCount (n : Int) : Nat := if n = 0 then 0 else n.natAbs.log2 + 1

/-- The bits of a coefficient. Those of a negative one are counted up to -1, which has them all. -/
def magnitude (n : Int) : Code :=
  let bits := bitCount n
  ⟨bits, if 0 ≤ n then n.toNat else (n + Nat.pow 2 bits - 1).toNat⟩

/-- The symbols for a block's first coefficient: numbers of bits. -/
def firstSymbols : List Nat := List.range 12

/-- The symbols for further coefficients: how many zeros come before one, and its number of bits.
Two of them stand for the end of a block and for sixteen zeros. -/
def furtherSymbols : List Nat :=
  0x00 :: 0xF0 :: (List.range 16).flatMap fun zeros =>
    (List.range 10).map fun bits => zeros * 16 + bits + 1

/-- The code of a symbol for further coefficients. -/
def furtherCode (symbol : Nat) : Code := ⟨8, furtherSymbols.idxOf symbol⟩

/-- The codes of the coefficients after `zeros` zeros. -/
def furtherCodes : (zeros : Nat) → List Int → List Code
  | 0, [] => []
  | _ + 1, [] => [furtherCode 0x00]
  | zeros, n :: rest =>
    if n = 0 then furtherCodes (zeros + 1) rest
    else
      List.replicate (zeros / 16) (furtherCode 0xF0) ++
        furtherCode (zeros % 16 * 16 + bitCount n) :: magnitude n :: furtherCodes 0 rest

/-- The codes of a block whose first coefficient is stored as the difference from the one before
it. -/
def blockCodes (before : Int) : List Int → List Code
  | [] => []
  | first :: further =>
    ⟨4, bitCount (first - before)⟩ :: magnitude (first - before) :: furtherCodes 0 further

/-- The samples of the three components in a block. Past the edge of the picture its last pixels go
on. -/
def samples (cells : Raster Rgb) (column row : Nat) : List (Array Float) :=
  let colors : Array (List Float) := Array.ofFn fun i : Fin 64 =>
    let x := min (column * 8 + i.val % 8) (cells.width - 1)
    let y := min (row * 8 + i.val / 8) (cells.height - 1)
    components ((cells.get? x y).getD Rgb.black)
  (List.range 3).map fun c => colors.map fun values => values.getD c 0

/-- Adds the three blocks at a place to the codes so far, next to which stand the first coefficients
before them. -/
def addBlocks (cells : Raster Rgb) (done : Array Code × List Int) (place : Nat × Nat) :
    Array Code × List Int :=
  let blocks := (samples cells place.1 place.2).map coefficients
  let further := (blocks.zip done.2).flatMap fun (block, before) => blockCodes before block
  (done.1 ++ further, blocks.map fun block => block.headD 0)

/-- The codes of a picture, block by block. -/
def codes (cells : Raster Rgb) : Array Code :=
  let places := (List.range ((cells.height + 7) / 8)).flatMap fun row =>
    (List.range ((cells.width + 7) / 8)).map fun column => (column, row)
  (places.foldl (addBlocks cells) (#[], [0, 0, 0])).1

/-- Puts a zero behind every byte that could be taken for the beginning of a marker. -/
def stuffed (data : Bytes) : Bytes :=
  data.foldl (fun out b => if b = 0xFF then (out.push b).push 0 else out.push b) #[]

/-- A segment: a marker, its length, and its contents. -/
def segment (marker : UInt8) (contents : Bytes) : Bytes :=
  #[0xFF, marker] ++ bigEndian 2 (contents.size + 2) ++ contents

/-- A table of codes of `bits` bits: how many codes there are of each length, and their symbols. -/
def codeTable (identity : UInt8) (bits : Nat) (symbols : List Nat) : Bytes :=
  let counts := (List.range 16).map fun i => if i + 1 = bits then symbols.length else 0
  segment 0xC4 (#[identity] ++ ((counts ++ symbols).map UInt8.ofNat).toArray)

/-- The bytes of a JPEG file. -/
def encode (cells : Raster Rgb) : Bytes :=
  let quantizers := (zigzag.map fun position => UInt8.ofNat (quantizer position)).toArray
  let frame := #[8] ++ bigEndian 2 cells.height ++ bigEndian 2 cells.width ++
    #[3, 1, 0x11, 0, 2, 0x11, 0, 3, 0x11, 0]
  #[0xFF, 0xD8] ++ segment 0xE0 (ascii "JFIF" ++ #[0, 1, 1, 0, 0, 1, 0, 1, 0, 0]) ++
    segment 0xDB (#[0] ++ quantizers) ++ segment 0xC0 frame ++
    codeTable 0x00 4 firstSymbols ++ codeTable 0x10 8 furtherSymbols ++
    segment 0xDA #[3, 1, 0, 2, 0, 3, 0, 0, 63, 0] ++ stuffed (packHigh (codes cells)) ++
    #[0xFF, 0xD9]

end XcfFlatten.Jpeg
