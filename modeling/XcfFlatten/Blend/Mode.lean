/-!
# Blend modes and layer modes

A layer carries the id of a layer mode. `LayerMode.ofId?` resolves it to the blend mode it is
composited with and to whether it changes the alpha of what lies below.
-/

namespace XcfFlatten

/-- The ways in which a layer's colours can meet the colours below them. -/
inductive BlendMode where
  | normal
  | dissolve
  | behind
  | multiply
  | screen
  | overlay
  | difference
  | addition
  | subtract
  | darkenOnly
  | lightenOnly
  | hue
  | saturation
  | color
  | value
  | divide
  | dodge
  | burn
  | hardLight
  | softLight
  | grainExtract
  | grainMerge
  deriving DecidableEq, Inhabited, Repr

namespace BlendMode

/-- Every blend mode, each at the place of its legacy id. -/
def all : List BlendMode :=
  [normal, dissolve, behind, multiply, screen, overlay, difference, addition, subtract, darkenOnly,
    lightenOnly, hue, saturation, color, value, divide, dodge, burn, hardLight, softLight,
    grainExtract, grainMerge]

/-- The id under which files older than layer mode 22 store the mode. -/
def legacyId (mode : BlendMode) : Nat := all.idxOf mode

/-- The mode with a legacy id. -/
def ofLegacyId? (id : Nat) : Option BlendMode := all[id]?

/-- The name shown to users. -/
def name : BlendMode → String
  | normal => "normal"
  | dissolve => "dissolve"
  | behind => "behind"
  | multiply => "multiply"
  | screen => "screen"
  | overlay => "overlay"
  | difference => "difference"
  | addition => "addition"
  | subtract => "subtract"
  | darkenOnly => "darken-only"
  | lightenOnly => "lighten-only"
  | hue => "hue"
  | saturation => "saturation"
  | color => "color"
  | value => "value"
  | divide => "divide"
  | dodge => "dodge"
  | burn => "burn"
  | hardLight => "hard-light"
  | softLight => "soft-light"
  | grainExtract => "grain-extract"
  | grainMerge => "grain-merge"

/-- The modes that pass the source colour through unchanged. They are the ones of the legacy modes
that change the alpha below, and the only ones whose source alpha is not clipped to the alpha
below. -/
def isPlain : BlendMode → Bool
  | normal | dissolve | behind => true
  | _ => false

/-- The modes that exchange a component of the colour below, which has no meaning for a gray
layer. -/
def isComponent : BlendMode → Bool
  | hue | saturation | color | value => true
  | _ => false

/-- Whether the mode mixes the colours of colour layers. -/
def mixesColor (mode : BlendMode) : Bool := !mode.isPlain

/-- Whether the mode mixes the levels of gray layers. -/
def mixesGray (mode : BlendMode) : Bool := mode.mixesColor && !mode.isComponent

end BlendMode

/-- A layer's mode as stored, with what it means for compositing. -/
structure LayerMode where
  id : Nat
  blend : BlendMode
  /-- When false, compositing leaves the alpha below as it is. -/
  affectsAlpha : Bool
  deriving DecidableEq, Inhabited, Repr

namespace LayerMode

/-- The mode of a layer that names none. -/
def normal : LayerMode := ⟨0, .normal, true⟩

/-- How many layer mode ids there are. -/
def count : Nat := 62

/-- The blend mode of a layer mode past the legacy ones. Modes without a counterpart among the blend
modes pass the source through. -/
def successorBlend : Nat → BlendMode
  | 23 => .overlay
  | 29 => .behind
  | 30 => .multiply
  | 31 => .screen
  | 32 => .difference
  | 33 => .addition
  | 34 => .subtract
  | 35 => .darkenOnly
  | 36 => .lightenOnly
  | 41 => .divide
  | _ => .normal

/-- Resolves a layer mode id, unless it is out of range. Of the modes past the legacy ones only 28,
the successor of the normal mode, changes the alpha below. -/
def ofId? (id : Nat) : Option LayerMode :=
  if count ≤ id then none
  else
    match BlendMode.ofLegacyId? id with
    | some blend => some ⟨id, blend, blend.isPlain⟩
    | none => some ⟨id, successorBlend id, id = 28⟩

/-- Whether layers of this mode are thinned out at random. -/
def isDissolve (mode : LayerMode) : Bool := mode.blend = .dissolve

end LayerMode

end XcfFlatten
