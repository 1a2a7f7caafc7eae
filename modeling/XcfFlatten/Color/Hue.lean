import XcfFlatten.Color

/-!
# Hue, saturation, value and lightness

The two cylindrical colour models of the component blend modes, in eight bits: a full turn of hue is
255, so each of the six sextants is 42.5 wide. Every component is computed in binary64 and cut down
to a whole number.

* `Hsv.ofRgb`, `Hsv.toRgb`: hue, saturation and value;
* `Hls.ofRgb`, `Hls.toRgb`: hue, lightness and saturation.
-/

namespace XcfFlatten

/-- Hue, saturation and value. -/
structure Hsv where
  hue : UInt8
  saturation : UInt8
  value : UInt8
  deriving DecidableEq, Inhabited, Repr

/-- Hue, lightness and saturation. -/
structure Hls where
  hue : UInt8
  lightness : UInt8
  saturation : UInt8
  deriving DecidableEq, Inhabited, Repr

namespace Rgb

/-- The largest channel. -/
def top (c : Rgb) : UInt8 := max c.red (max c.green c.blue)

/-- The smallest channel. -/
def bottom (c : Rgb) : UInt8 := min c.red (min c.green c.blue)

/-- The position of a colour that is not gray on the hue circle, in `[0, 255]`: the largest channel
picks the pair of sextants, and the difference of the other two the place in it. -/
def hueAngle (c : Rgb) : Float :=
  let r := c.red.toFloat
  let g := c.green.toFloat
  let b := c.blue.toFloat
  let spread := c.top.toFloat - c.bottom.toFloat
  let sextants :=
    if c.red = c.top then (g - b) / spread
    else if c.green = c.top then 2 + (b - r) / spread
    else 4 + (r - g) / spread
  let angle := sextants * 42.5
  if angle < 0 then angle + 255 else if angle > 255 then angle - 255 else angle

end Rgb

namespace Hsv

/-- The components of a colour. Grays have neither hue nor saturation. -/
def ofRgb (c : Rgb) : Hsv :=
  if c.top = c.bottom then ⟨0, 0, c.top⟩
  else
    let saturation := (c.top.toFloat - c.bottom.toFloat) * 255 / c.top.toFloat
    ⟨c.hueAngle.toUInt8, saturation.toUInt8, c.top⟩

/-- The colour with the given components. Hue 255 closes the circle and lies in no sextant: there
the components themselves are taken for channels. -/
def toRgb (c : Hsv) : Rgb :=
  if c.saturation = 0 then Rgb.gray c.value
  else
    let h := c.hue.toFloat * 6 / 255
    let s := c.saturation.toFloat / 255
    let v := c.value.toFloat / 255
    let f := h - h.floor
    let channel (x : Float) : UInt8 := (x * 255).toUInt8
    let full := channel v
    let least := channel (v * (1 - s))
    let falling := channel (v * (1 - s * f))
    let rising := channel (v * (1 - s * (1 - f)))
    match h.toUInt8.toNat with
    | 0 => ⟨full, rising, least⟩
    | 1 => ⟨falling, full, least⟩
    | 2 => ⟨least, full, rising⟩
    | 3 => ⟨least, falling, full⟩
    | 4 => ⟨rising, least, full⟩
    | 5 => ⟨full, least, falling⟩
    | _ => ⟨c.hue, c.saturation, c.value⟩

end Hsv

namespace Hls

/-- The components of a colour. Grays have neither hue nor saturation. -/
def ofRgb (c : Rgb) : Hls :=
  let high := c.top.toFloat
  let low := c.bottom.toFloat
  let lightness := (high + low) / 2
  if c.top = c.bottom then ⟨0, lightness.toUInt8, 0⟩
  else
    let saturation :=
      if lightness < 128 then 255 * (high - low) / (high + low)
      else 255 * (high - low) / (511 - high - low)
    ⟨c.hueAngle.toUInt8, lightness.toUInt8, saturation.toUInt8⟩

/-- One channel of a colour whose channels run between the fractions `low` and `high`, at the given
place on the hue circle. -/
def channel (low high hue : Float) : UInt8 :=
  let hue := if hue > 255 then hue - 255 else if hue < 0 then hue + 255 else hue
  let fraction :=
    if hue < 42.5 then low + (high - low) * (hue / 42.5)
    else if hue < 127.5 then high
    else if hue < 170 then low + (high - low) * ((170 - hue) / 42.5)
    else low
  UInt8.ofNat ((fraction * 255).toInt32.toInt % 256).toNat

/-- The colour with the given components. -/
def toRgb (c : Hls) : Rgb :=
  if c.saturation = 0 then Rgb.gray c.lightness
  else
    let h := c.hue.toFloat
    let l := c.lightness.toFloat
    let s := c.saturation.toFloat
    let high := if l < 128 then l * (255 + s) / 65025 else (l + s - l * s / 255) / 255
    let low := l / 127.5 - high
    ⟨channel low high (h + 85), channel low high h, channel low high (h - 85)⟩

end Hls

end XcfFlatten
