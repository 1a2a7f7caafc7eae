/-!
# Colours

Eight bit colours with straight (not premultiplied) alpha, and the two roundings everything else is
built from:

* `mul255`: the product of two fractions of 255, rounded to the nearest fraction of 255;
* `Rgb.luma`: the gray level a colour counts as where a gray layer meets it.
-/

namespace XcfFlatten

/-- A colour without alpha. -/
structure Rgb where
  red : UInt8
  green : UInt8
  blue : UInt8
  deriving DecidableEq, Inhabited, Repr

/-- A colour and how much of it there is. -/
structure Pixel where
  color : Rgb
  alpha : UInt8
  deriving DecidableEq, Inhabited, Repr

/-- The product of `a / 255` and `b / 255`, in fractions of 255 and rounded to the nearest. -/
def mul255 (a b : Nat) : Nat :=
  let c := a * b + 128
  (c / 256 + c) / 256

namespace Rgb

/-- The gray with the given level. -/
def gray (level : UInt8) : Rgb := ⟨level, level, level⟩

/-- Black, which also stands for an entry that a palette does not have. -/
def black : Rgb := gray 0

/-- The gray level of a colour: red, green and blue weigh 11, 16 and 5 parts in 32. -/
def luma (c : Rgb) : UInt8 :=
  UInt8.ofNat ((c.red.toNat * 11 + c.green.toNat * 16 + c.blue.toNat * 5) / 32)

/-- A colour at full alpha. -/
def solid (c : Rgb) : Pixel := ⟨c, 255⟩

/-- Applies a function of two channel values to each pair of channels. -/
def zipWith (f : UInt8 → UInt8 → UInt8) (c d : Rgb) : Rgb :=
  ⟨f c.red d.red, f c.green d.green, f c.blue d.blue⟩

end Rgb

namespace Pixel

/-- The pixel with all four channels zero. -/
def zero : Pixel := ⟨Rgb.black, 0⟩

/-- Opaque white. -/
def white : Pixel := ⟨Rgb.gray 255, 255⟩

/-- White without any alpha: what a canvas with alpha starts from. -/
def clear : Pixel := ⟨Rgb.gray 255, 0⟩

end Pixel

/-- The gray ramp: entry `n` is the opaque gray of level `n`. -/
def grayRamp : Array Pixel :=
  Array.ofFn fun n : Fin 256 => (Rgb.gray (UInt8.ofNat n)).solid

/-- A document's palette. -/
abbrev Palette := Array Rgb

/-- The colour of a palette index. An index without an entry is black. -/
def Palette.lookup (palette : Palette) (index : UInt8) : Rgb :=
  palette.getD index.toNat Rgb.black

end XcfFlatten
