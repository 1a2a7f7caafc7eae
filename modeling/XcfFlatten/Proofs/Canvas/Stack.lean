import XcfFlatten.Proofs.Canvas.Cellwise

/-!
# Stacks of layers

A stack of layers is flattened from its lowest layer up (`Canvas.flatten?`): the lowest one decides
what the canvas is, and none of the layers above changes that. The canvas keeps its size, its format
and its palette.
-/

namespace XcfFlatten

namespace Canvas

/-- Composites layers onto what lies below, the lowest of them first. -/
def mergeAll (palette : Palette) (canvas : Canvas) (layers : List Layer) : Canvas :=
  layers.foldl (fun canvas layer => canvas.mergeDown layer palette) canvas

/-- Flattens a stack of layers, the lowest first, onto the canvas that the lowest asks for. -/
def flatten? (width height : Nat) (palette : Palette) : List Layer → Option Canvas
  | [] => none
  | bottom :: above =>
    (forBase? width height bottom.kind bottom.props.opacity palette).map fun canvas =>
      (canvas.paintBase bottom palette).mergeAll palette above

variable (canvas : Canvas) (layer : Layer) (palette : Palette) (layers above : List Layer)

/-- Painting the lowest layer keeps the size, the format and the palette of the canvas. -/
@[simp] theorem paintBase_width : (canvas.paintBase layer palette).width = canvas.width := by
  rw [paintBase_eq, repaint_width]

@[simp] theorem paintBase_height : (canvas.paintBase layer palette).height = canvas.height := by
  rw [paintBase_eq, repaint_height]

@[simp] theorem paintBase_format : (canvas.paintBase layer palette).format = canvas.format := by
  rw [paintBase_eq, repaint_format]

@[simp] theorem paintBase_palette : (canvas.paintBase layer palette).palette = canvas.palette := by
  rw [paintBase_eq, repaint_palette]

/-- What repainting keeps, merging a layer keeps. -/
theorem mergeDown_congr {α : Type} (f : Canvas → α)
    (hf : ∀ indexRule pixelRule, f (canvas.repaint layer indexRule pixelRule) = f canvas) :
    f (canvas.mergeDown layer palette) = f canvas := by
  rw [mergeDown_eq]
  -- A layer of opacity 0 or of a kind that is not accepted is passed over.
  split
  · rfl
  · exact hf _ _

/-- Merging a layer keeps them, too, whether it is passed over or not. -/
@[simp] theorem mergeDown_width : (canvas.mergeDown layer palette).width = canvas.width :=
  mergeDown_congr canvas layer palette width (repaint_width canvas layer)

@[simp] theorem mergeDown_height : (canvas.mergeDown layer palette).height = canvas.height :=
  mergeDown_congr canvas layer palette height (repaint_height canvas layer)

@[simp] theorem mergeDown_format : (canvas.mergeDown layer palette).format = canvas.format :=
  mergeDown_congr canvas layer palette format (repaint_format canvas layer)

@[simp] theorem mergeDown_palette : (canvas.mergeDown layer palette).palette = canvas.palette :=
  mergeDown_congr canvas layer palette Canvas.palette (repaint_palette canvas layer)

/-- What merging one layer keeps, merging a stack keeps. -/
theorem mergeAll_congr {α : Type} (f : Canvas → α)
    (hf : ∀ canvas layer, f (mergeDown canvas layer palette) = f canvas) :
    f (canvas.mergeAll palette layers) = f canvas := by
  induction layers generalizing canvas with
  | nil => rfl
  | cons layer layers ih => exact (ih (canvas.mergeDown layer palette)).trans (hf canvas layer)

/-- And so does merging a whole stack. -/
@[simp] theorem mergeAll_width : (canvas.mergeAll palette layers).width = canvas.width :=
  mergeAll_congr canvas palette layers width fun canvas layer =>
    mergeDown_width canvas layer palette

@[simp] theorem mergeAll_height : (canvas.mergeAll palette layers).height = canvas.height :=
  mergeAll_congr canvas palette layers height fun canvas layer =>
    mergeDown_height canvas layer palette

@[simp] theorem mergeAll_format : (canvas.mergeAll palette layers).format = canvas.format :=
  mergeAll_congr canvas palette layers format fun canvas layer =>
    mergeDown_format canvas layer palette

@[simp] theorem mergeAll_palette : (canvas.mergeAll palette layers).palette = canvas.palette :=
  mergeAll_congr canvas palette layers Canvas.palette fun canvas layer =>
    mergeDown_palette canvas layer palette

/-- A stack on top of another is merged onto what that one leaves. -/
theorem mergeAll_append :
    canvas.mergeAll palette (layers ++ above) =
      (canvas.mergeAll palette layers).mergeAll palette above :=
  List.foldl_append

/-- **Flattening in two stages.** A stack on top of another is merged onto what that one is
flattened to. -/
theorem flatten?_append (width height : Nat) (h : layers ≠ []) :
    flatten? width height palette (layers ++ above) =
      (flatten? width height palette layers).map fun canvas => canvas.mergeAll palette above := by
  cases layers with
  | nil => exact absurd rfl h
  | cons bottom layers =>
    rw [List.cons_append, flatten?, flatten?, Option.map_map]
    congr 1
    funext canvas
    exact mergeAll_append (canvas.paintBase bottom palette) palette layers above

end Canvas

end XcfFlatten
