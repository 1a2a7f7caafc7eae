/-!
# Property tags

The kinds of property records, in the order of their codes.
-/

namespace XcfFlatten

/-- What a property record says something about. -/
inductive PropertyTag where
  /-- Ends a property list. -/
  | terminator
  | colormap
  | activeLayer
  | activeChannel
  | selection
  | floatingSelection
  | opacity
  | mode
  | visible
  | linked
  | lockAlpha
  | applyMask
  | editMask
  | showMask
  | showMasked
  | offsets
  | color
  | compression
  | guides
  | resolution
  | tattoo
  | parasites
  | unit
  | paths
  | userUnit
  | vectors
  | textLayerFlags
  | oldSamplePoints
  | lockContent
  | groupItem
  | itemPath
  | groupItemFlags
  | lockPosition
  | floatOpacity
  | colorTag
  | compositeMode
  | compositeSpace
  | blendSpace
  | floatColor
  | samplePoints
  deriving DecidableEq, Inhabited, Repr

namespace PropertyTag

/-- Every tag, each at the place of its code. -/
def all : List PropertyTag :=
  [terminator, colormap, activeLayer, activeChannel, selection, floatingSelection, opacity, mode,
    visible, linked, lockAlpha, applyMask, editMask, showMask, showMasked, offsets, color,
    compression, guides, resolution, tattoo, parasites, unit, paths, userUnit, vectors,
    textLayerFlags, oldSamplePoints, lockContent, groupItem, itemPath, groupItemFlags, lockPosition,
    floatOpacity, colorTag, compositeMode, compositeSpace, blendSpace, floatColor, samplePoints]

/-- The code under which files store the tag. -/
def code (tag : PropertyTag) : Nat := all.idxOf tag

/-- The tag with the given code. -/
def ofCode? (code : Nat) : Option PropertyTag := all[code]?

/-- The name shown to users. -/
def name : PropertyTag → String
  | terminator => "End"
  | colormap => "Colormap"
  | activeLayer => "ActiveLayer"
  | activeChannel => "ActiveChannel"
  | selection => "Selection"
  | floatingSelection => "FloatingSelection"
  | opacity => "Opacity"
  | mode => "Mode"
  | visible => "Visible"
  | linked => "Linked"
  | lockAlpha => "LockAlpha"
  | applyMask => "ApplyMask"
  | editMask => "EditMask"
  | showMask => "ShowMask"
  | showMasked => "ShowMasked"
  | offsets => "Offsets"
  | color => "Color"
  | compression => "Compression"
  | guides => "Guides"
  | resolution => "Resolution"
  | tattoo => "Tattoo"
  | parasites => "Parasites"
  | unit => "Unit"
  | paths => "Paths"
  | userUnit => "UserUnit"
  | vectors => "Vectors"
  | textLayerFlags => "TextLayerFlags"
  | oldSamplePoints => "OldSamplePoints"
  | lockContent => "LockContent"
  | groupItem => "GroupItem"
  | itemPath => "ItemPath"
  | groupItemFlags => "GroupItemFlags"
  | lockPosition => "LockPosition"
  | floatOpacity => "FloatOpacity"
  | colorTag => "ColorTag"
  | compositeMode => "CompositeMode"
  | compositeSpace => "CompositeSpace"
  | blendSpace => "BlendSpace"
  | floatColor => "FloatColor"
  | samplePoints => "SamplePoints"

end PropertyTag

end XcfFlatten
