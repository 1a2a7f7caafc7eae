import XcfFlatten.Blend.Mode
import XcfFlatten.Color.Hue

/-!
# Blending colours

What a source colour contributes over the colour below it, alpha apart. Most modes work channel by
channel on levels in `0 … 255` (`BlendMode.channel?`); four of them exchange a component of the hue
models instead.

* `BlendMode.blendColor` blends colours;
* `BlendMode.blendGray` blends gray levels.
-/

namespace XcfFlatten

/-- The inverse of `mul255`: what two levels leave when their complements are multiplied. -/
def screen255 (below source : Nat) : Nat := 255 - mul255 (255 - below) (255 - source)

namespace BlendMode

/-- The level a mode gives over the level `below`, for the modes that work channel by channel. -/
def channel? : BlendMode → Option (Nat → Nat → Nat)
  | multiply => some fun below source => mul255 source below
  | screen => some screen255
  | overlay => some fun below source => mul255 below (below + mul255 (2 * source) (255 - below))
  | difference => some fun below source => if source < below then below - source else source - below
  | addition => some fun below source => min 255 (below + source)
  | subtract => some fun below source => below - source
  | darkenOnly => some min
  | lightenOnly => some max
  | divide => some fun below source => min 255 (below * 256 / (1 + source))
  | dodge => some fun below source => min 255 (below * 256 / (256 - source))
  | burn => some fun below source => 255 - min 255 ((255 - below) * 256 / (source + 1))
  | hardLight => some fun below source =>
    if 128 < source then 255 - (255 - below) * (255 - (source - 128) * 2) / 256
    else min 255 (below * (source * 2) / 256)
  | softLight => some fun below source =>
    mul255 (255 - below) (mul255 below source) + mul255 below (screen255 below source)
  | grainExtract => some fun below source => min 255 (below + 128 - source)
  | grainMerge => some fun below source => min 255 (below + source - 128)
  | normal | dissolve | behind | hue | saturation | color | value => none

/-- The level a mode gives in one channel. Modes that do not work on channels pass the source
through. -/
def blendChannel (mode : BlendMode) (source below : UInt8) : UInt8 :=
  match mode.channel? with
  | some f => UInt8.ofNat (f below.toNat source.toNat)
  | none => source

/-- The colour a source colour contributes over the colour `below`. -/
def blendColor (mode : BlendMode) (source below : Rgb) : Rgb :=
  match mode with
  | hue => { Hsv.ofRgb below with hue := (Hsv.ofRgb source).hue }.toRgb
  | saturation => { Hsv.ofRgb below with saturation := (Hsv.ofRgb source).saturation }.toRgb
  | value => { Hsv.ofRgb below with value := (Hsv.ofRgb source).value }.toRgb
  | color => { Hls.ofRgb source with lightness := (Hls.ofRgb below).lightness }.toRgb
  | mode => Rgb.zipWith mode.blendChannel source below

/-- The level a source level contributes over the level `below`. -/
def blendGray (mode : BlendMode) (source below : UInt8) : UInt8 := mode.blendChannel source below

end BlendMode

end XcfFlatten
