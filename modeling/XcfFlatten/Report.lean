import XcfFlatten.File.Summary

/-!
# Reports

`Summary.report` describes a document in text: a line for each thing it says about itself, and a row
for each layer.
-/

namespace XcfFlatten

/-- Fills a text up with blanks on the right. -/
def padRight (width : Nat) (text : String) : String :=
  text ++ String.ofList (List.replicate (width - text.length) ' ')

/-- Fills a text up with blanks on the left. -/
def padLeft (width : Nat) (text : String) : String :=
  String.ofList (List.replicate (width - text.length) ' ') ++ text

namespace LayerSummary

/-- The layer's row: its name, size, offset, kind, mode and opacity in columns, and whether it has a
mask or is hidden. -/
def row (layer : LayerSummary) : String :=
  String.join
    ["  ", padRight 24 s!"\"{layer.name}\"",
      " ", padLeft 5 (toString layer.width), "x", padRight 5 (toString layer.height),
      " ", padLeft 6 (toString layer.xOffset), ",", padRight 6 (toString layer.yOffset),
      " ", padRight 9 layer.kind.name,
      " ", padRight 16 layer.mode.blend.name,
      " ", padLeft 3 (toString layer.opacity.toNat),
      if layer.hasMask then " mask" else "",
      if layer.visible then "" else " hidden",
      "\n"]

end LayerSummary

namespace Summary

/-- A line about something a document need not say. -/
def optionalLine {α : Type} (line : α → String) (value : Option α) : String :=
  (value.map line).getD ""

/-- The description of a document. Hidden layers are counted, and listed if asked for. -/
def report (summary : Summary) (listHidden : Bool) : String :=
  let visible := (summary.layers.filter (·.visible)).length
  String.join
    [s!"XCF version {summary.version}\n",
      s!"Size: {summary.width}x{summary.height}\n",
      s!"Type: {summary.baseType.name}\n",
      optionalLine (fun p => s!"Precision: {p}\n") summary.precision,
      s!"Compression: {summary.compression.name}\n",
      if 0 < summary.paletteSize then s!"Colormap: {summary.paletteSize} colors\n" else "",
      optionalLine (fun dpi : UInt32 × UInt32 =>
        s!"Resolution: {Binary32.toDecimal dpi.1}x{Binary32.toDecimal dpi.2} dpi\n")
        summary.resolution,
      optionalLine (fun comment => s!"Comment: {comment}\n") summary.comment,
      s!"Layers: {summary.layers.length} ({visible} visible)\n",
      String.join
        ((summary.layers.filter fun layer => listHidden || layer.visible).map LayerSummary.row)]

end Summary

end XcfFlatten
