import XcfFlatten.Proofs.Blend.Alpha
import XcfFlatten.Proofs.Canvas.Stack

/-!
# Stacks of indexed layers

On a canvas of palette indices the topmost pixel that shows hides all others. The index it leaves is
its own, or one up if its layer has alpha (`Layer.storedIndex`); the palette of the canvas is the
document's, or one up if the lowest layer has alpha (`Palette.entriesFor`). The two fit together
where both layers have alpha or both have none. Where they differ, the canvas shows a neighbouring
colour of the palette, or what lies below:

* `Layer.PlainIndexed.indexAt?_mergeDown` — what one layer does to the index at a position;
* `Canvas.colorAt?_flatten?_iff` — when a stack shows the document's colour of the topmost index.
-/

namespace XcfFlatten

/-! ### Palettes of a canvas -/

/-- The palette of a canvas whose lowest layer is of an indexed kind. -/
def Palette.entriesFor (palette : Palette) (kind : LayerKind) : Array Pixel :=
  if kind = .indexedAlpha then #[Pixel.clear] ++ palette.map Rgb.solid else palette.map Rgb.solid

namespace Palette

variable {palette : Palette} {kind : LayerKind}

/-- A kind with alpha has one entry more. -/
theorem size_entriesFor (palette : Palette) (kind : LayerKind) :
    (palette.entriesFor kind).size = palette.size + if kind = .indexedAlpha then 1 else 0 := by
  unfold entriesFor
  split
  · rw [Array.size_append, Array.size_map, Nat.add_comm]
    rfl
  · rw [Array.size_map, Nat.add_zero]

/-- The entries are the colours of the palette, opaque. -/
theorem getD_map_solid {i : Nat} (hi : i < palette.size) :
    (palette.map Rgb.solid).getD i Pixel.zero = (palette.getD i Rgb.black).solid := by
  rw [Array.getD_eq_getD_getElem?, Array.getD_eq_getD_getElem?, Array.getElem?_map,
    Array.getElem?_eq_getElem hi]
  rfl

/-- Without a clear entry, an index shows its own colour. -/
theorem entry_entriesFor_indexed {i : UInt8} (hi : i.toNat < palette.size) :
    Canvas.entry (palette.entriesFor .indexed) i = (palette.lookup i).solid := getD_map_solid hi

/-- Behind a clear entry, an index shows the colour one down. -/
theorem entry_entriesFor_indexedAlpha {i : UInt8} (hpos : 0 < i) (hi : i.toNat ≤ palette.size) :
    Canvas.entry (palette.entriesFor .indexedAlpha) i = (palette.lookup (i - 1)).solid := by
  -- Behind the clear entry, the document's palette is counted from one.
  have hne : i.toNat ≠ 0 :=
    fun h => absurd hpos (by rw [UInt8.lt_iff_toNat_lt, h]; exact Nat.lt_irrefl 0)
  have hpred : (i - 1).toNat = i.toNat - 1 := UInt8.toNat_sub_of_le i 1 (by
    rw [UInt8.le_iff_toNat_le]
    exact Nat.one_le_iff_ne_zero.mpr hne)
  unfold Canvas.entry entriesFor lookup
  rw [if_pos rfl, Array.getD_eq_getD_getElem?,
    Array.getElem?_append_right (Nat.one_le_iff_ne_zero.mpr hne), hpred,
    ← getD_map_solid (by omega), Array.getD_eq_getD_getElem?]
  rfl

/-- With alpha the first entry is the transparent one. -/
theorem entry_entriesFor_zero :
    Canvas.entry (palette.entriesFor .indexedAlpha) 0 = Pixel.clear := by
  unfold Canvas.entry entriesFor
  rw [if_pos rfl, Array.getD_eq_getD_getElem?, Array.getElem?_append_left Nat.one_pos]
  rfl

end Palette

/-! ### Indexed layers that hide what they cover -/

/-- An opaque indexed layer without a mask, all of whose indices have an entry in the document's
palette. -/
structure Layer.PlainIndexed (layer : Layer) (palette : Palette) : Prop where
  shaped : layer.WellShaped
  indexed : layer.kind.isIndexed = true
  full : layer.props.opacity = 255
  unmasked : layer.maskApplies = false
  index_lt : ∀ x < layer.width, ∀ y < layer.height, ∀ texel ∈ layer.tiles.texelAt? x y,
    texel.value.toNat < palette.size

theorem LayerKind.isIndexed_iff {kind : LayerKind} :
    kind.isIndexed = true ↔ kind = indexed ∨ kind = indexedAlpha := by
  cases kind <;> decide

namespace Layer

/-- The index that a layer draws at a position of the canvas. Any pixel of a layer without alpha is
drawn, and of a layer with alpha those that are at least half opaque. -/
def drawnIndex? (layer : Layer) (x y : Nat) : Option UInt8 :=
  (layer.landing? x y).bind fun sample =>
    if layer.kind = .indexed ∨ shows sample.texel.alpha.toNat then some sample.texel.value else none

/-- The index that is stored on the canvas for an index of the layer. -/
def storedIndex (layer : Layer) (index : UInt8) : UInt8 :=
  if layer.kind = .indexedAlpha then raiseIndex index else index

namespace PlainIndexed

variable {layer : Layer} {palette : Palette} (h : layer.PlainIndexed palette)
include h

/-- No layer of indices is thinned out. -/
theorem dissolved_eq_self : layer.dissolved = layer := by
  refine dissolved_of_not_thinsOut ?_
  unfold thinsOut
  rcases LayerKind.isIndexed_iff.mp h.indexed with hkind | hkind
  · rw [hkind]
    exact Bool.and_false _
  · rw [hkind]
    exact Bool.and_false _

/-- What lands has no mask and an index that the palette has a colour for. -/
theorem of_landing? {x y : Nat} {sample : Sample} (hlands : layer.landing? x y = some sample) :
    sample.mask = none ∧ sample.texel.value.toNat < palette.size := by
  unfold landing? at hlands
  split at hlands
  · next hover =>
    -- The layer lies over the position, where its index has a colour.
    obtain ⟨texel, htexel, hsample⟩ := h.shaped.exists_sample hover.columnAt_lt hover.rowAt_lt
    rw [hsample] at hlands
    cases hlands
    refine ⟨if_neg ?_, h.index_lt _ hover.columnAt_lt _ hover.rowAt_lt texel htexel⟩
    rw [h.unmasked]
    exact Bool.false_ne_true
  · cases hlands

theorem alphaOf_eq {sample : Sample} (hmask : sample.mask = none) (alpha : UInt8) :
    layer.alphaOf sample alpha = alpha.toNat := by
  unfold alphaOf effectiveAlpha
  rw [hmask, h.full]
  exact mul255_full alpha

/-- An index that is drawn has a colour in the palette. -/
theorem drawnIndex?_lt {x y : Nat} {index : UInt8} (hdrawn : layer.drawnIndex? x y = some index) :
    index.toNat < palette.size := by
  obtain ⟨sample, hlands, hsample⟩ := Option.bind_eq_some_iff.mp hdrawn
  split at hsample
  · cases hsample
    exact (h.of_landing? hlands).2
  · cases hsample

/-- **Merging an index.** A drawn index is stored unless the canvas has no entry for it, and
everything else leaves what is below. -/
theorem mergedIndex_landing? (entries : Array Pixel) (x y : Nat) (below : UInt8) :
    ((layer.landing? x y).elim below fun sample => layer.mergedIndex entries sample below) =
      (layer.drawnIndex? x y).elim below fun index =>
        Canvas.writeIndex entries (layer.storedIndex index) below := by
  unfold drawnIndex?
  cases hlands : layer.landing? x y with
  | none => rfl
  | some sample =>
    rw [Option.elim_some, Option.bind_some]
    unfold mergedIndex storedIndex
    dsimp only
    rw [h.alphaOf_eq (h.of_landing? hlands).1]
    -- Without alpha every sample is stored; with alpha the same test decides on both sides.
    rcases LayerKind.isIndexed_iff.mp h.indexed with hkind | hkind
    · rw [hkind]
      rfl
    · have hne : LayerKind.indexedAlpha ≠ LayerKind.indexed := LayerKind.noConfusion
      rw [hkind, if_neg hne, if_pos (show LayerKind.indexedAlpha.isIndexed = true from rfl)]
      by_cases hshows : shows sample.texel.alpha.toNat = true
      · rw [if_pos hshows, if_pos (Or.inr hshows)]
        rfl
      · rw [if_neg hshows, if_neg (fun hor => hor.elim hne hshows)]
        rfl

/-- **The lowest index.** A drawn index is stored like that of any other layer. -/
theorem baseIndex_landing? (entries : Array Pixel) {x y : Nat} {index : UInt8}
    (hdrawn : layer.drawnIndex? x y = some index) (below : UInt8) :
    ((layer.landing? x y).elim below fun sample => layer.baseIndex entries sample below) =
      Canvas.writeIndex entries (layer.storedIndex index) below := by
  -- Unlike others, the lowest layer also writes where it draws nothing; that is of no concern here.
  obtain ⟨sample, hlands, hsample⟩ := Option.bind_eq_some_iff.mp hdrawn
  rw [hlands, Option.elim_some]
  unfold baseIndex storedIndex
  dsimp only
  rw [h.alphaOf_eq (h.of_landing? hlands).1]
  split at hsample
  · next hshows =>
    cases hsample
    by_cases hkind : layer.kind = .indexedAlpha
    · have hne : ¬ layer.kind = .indexed := by
        rw [hkind]
        exact LayerKind.noConfusion
      rw [if_pos hkind, if_pos hkind, if_pos (hshows.resolve_left hne)]
    · rw [if_neg hkind, if_neg hkind]
  · cases hsample

end PlainIndexed

end Layer

/-! ### Canvases of palette indices -/

namespace Canvas

/-- The canvas holds indices into the document's palette. -/
def IsIndexed (canvas : Canvas) : Prop :=
  canvas.format = .palette .mono ∨ canvas.format = .palette .indexed8

namespace IsIndexed

variable {canvas : Canvas} (h : canvas.IsIndexed)
include h

theorem accepts {kind : LayerKind} (hkind : kind.isIndexed = true) :
    canvas.accepts kind = true := by
  unfold Canvas.accepts
  rcases h with hformat | hformat
  · rw [hformat]
    exact hkind
  · rw [hformat]
    exact hkind

/-- It stores indices, as the formats of colours are others. -/
theorem eq_indexed : ∃ format entries cells, canvas = indexed format entries cells := by
  cases canvas with
  | indexed format entries cells => exact ⟨format, entries, cells, rfl⟩
  | color hasAlpha cells =>
    rcases h with hformat | hformat
    · cases hformat
    · cases hformat

/-- What the canvas shows is the entry for the index that it holds. -/
theorem colorAt?_eq (x y : Nat) :
    canvas.colorAt? x y = (canvas.indexAt? x y).map (entry canvas.palette) := by
  obtain ⟨format, entries, cells, rfl⟩ := h.eq_indexed
  rfl

theorem exists_indexAt? {x y : Nat} (hx : x < canvas.width) (hy : y < canvas.height) :
    ∃ index, canvas.indexAt? x y = some index := by
  obtain ⟨format, entries, cells, rfl⟩ := h.eq_indexed
  exact cells.exists_get? hx hy

/-- Repainting changes the index by the sample that lands on it. -/
theorem indexAt?_repaint {layer : Layer} (hshaped : layer.WellShaped)
    (indexRule : Array Pixel → Sample → UInt8 → UInt8) (pixelRule : Bool → Sample → Pixel → Pixel)
    {x y : Nat} (hx : x < canvas.width) (hy : y < canvas.height) :
    (canvas.repaint layer indexRule pixelRule).indexAt? x y =
      (canvas.indexAt? x y).map fun below =>
        (layer.dissolved.landing? x y).elim below fun sample =>
          indexRule canvas.palette sample below := by
  obtain ⟨format, entries, cells, rfl⟩ := h.eq_indexed
  exact Raster.get?_paint hshaped.dissolved _ _ hx hy

end IsIndexed

end Canvas

namespace Layer.PlainIndexed

variable {layer : Layer} {palette : Palette} {canvas : Canvas} (h : layer.PlainIndexed palette)
  (hcanvas : canvas.IsIndexed)
include h hcanvas

/-- **One layer.** It stores the index it draws at a position, unless the canvas has no entry for
it. -/
theorem indexAt?_mergeDown {x y : Nat} (hx : x < canvas.width) (hy : y < canvas.height) :
    (canvas.mergeDown layer palette).indexAt? x y =
      (canvas.indexAt? x y).map fun below =>
        (layer.drawnIndex? x y).elim below fun index =>
          Canvas.writeIndex canvas.palette (layer.storedIndex index) below := by
  -- The layer is neither hidden nor refused, so it repaints the canvas.
  have hopacity : (decide (layer.props.opacity = 0)) = false := by
    rw [h.full]
    rfl
  rw [Canvas.mergeDown_eq, hopacity, hcanvas.accepts h.indexed, Bool.not_true, Bool.or_false,
    if_neg Bool.false_ne_true, hcanvas.indexAt?_repaint h.shaped _ _ hx hy, h.dissolved_eq_self]
  congr 1
  funext below
  exact h.mergedIndex_landing? canvas.palette x y below

/-- **The lowest layer.** It stores the index it draws at a position like any other. -/
theorem indexAt?_paintBase {x y : Nat} (hx : x < canvas.width) (hy : y < canvas.height)
    {index : UInt8} (hdrawn : layer.drawnIndex? x y = some index) :
    (canvas.paintBase layer palette).indexAt? x y =
      (canvas.indexAt? x y).map (Canvas.writeIndex canvas.palette (layer.storedIndex index)) := by
  rw [Canvas.paintBase_eq, hcanvas.indexAt?_repaint h.shaped _ _ hx hy, h.dissolved_eq_self]
  congr 1
  funext below
  exact h.baseIndex_landing? canvas.palette hdrawn below

end Layer.PlainIndexed

/-! ### Stacks -/

namespace Canvas

/-- Whether a canvas holds indices is a matter of its format. -/
theorem IsIndexed.congr {canvas other : Canvas} (h : canvas.IsIndexed)
    (hformat : other.format = canvas.format) :
    other.IsIndexed := by
  unfold IsIndexed
  rw [hformat]
  exact h

variable {palette : Palette} {width height : Nat}

/-- A layer of indices asks for a canvas of indices that has its entries, as long as there is room
for them. -/
theorem exists_forBase?_indexed (width height : Nat) {kind : LayerKind}
    (hkind : kind.isIndexed = true) (opacity : UInt8) (hsize : palette.size ≤ 255) :
    ∃ canvas, forBase? width height kind opacity palette = some canvas ∧ canvas.IsIndexed ∧
      canvas.palette = palette.entriesFor kind ∧ canvas.width = width ∧ canvas.height = height := by
  -- With at most 255 colours there is room for a clear entry in front of them.
  cases kind with
  | rgb | rgba | gray | grayAlpha => cases hkind
  | indexed =>
    unfold forBase?
    dsimp only
    rw [if_pos (by omega)]
    refine ⟨_, rfl, ?_, rfl, rfl, rfl⟩
    split
    · exact Or.inl rfl
    · exact Or.inr rfl
  | indexedAlpha =>
    unfold forBase?
    dsimp only
    rw [if_pos (by omega)]
    refine ⟨_, rfl, ?_, rfl, rfl, rfl⟩
    split
    · exact Or.inl rfl
    · exact Or.inr rfl

/-- A stack of plain indexed layers is flattened to palette indices, into the palette that the
lowest asks for. -/
theorem exists_flatten?_indexed (width height : Nat) (hsize : palette.size ≤ 255) {bottom : Layer}
    (above : List Layer) (hbottom : bottom.PlainIndexed palette) :
    ∃ canvas, flatten? width height palette (bottom :: above) = some canvas ∧ canvas.IsIndexed ∧
      canvas.palette = palette.entriesFor bottom.kind ∧ canvas.width = width ∧
        canvas.height = height := by
  obtain ⟨canvas, hcanvas, hindexed, hpalette, hwidth, hheight⟩ :=
    exists_forBase?_indexed width height hbottom.indexed bottom.props.opacity hsize
  refine ⟨(canvas.paintBase bottom palette).mergeAll palette above,
    ?_, hindexed.congr ?_, ?_, ?_, ?_⟩
  · rw [flatten?, hcanvas, Option.map_some]
  · rw [mergeAll_format, paintBase_format]
  · rw [mergeAll_palette, paintBase_palette, hpalette]
  · rw [mergeAll_width, paintBase_width, hwidth]
  · rw [mergeAll_height, paintBase_height, hheight]

/-- Layers that draw nothing at a position leave the index there as it was. -/
theorem IsIndexed.indexAt?_mergeAll {canvas : Canvas} (h : canvas.IsIndexed) {layers : List Layer}
    {x y : Nat} (hx : x < canvas.width) (hy : y < canvas.height)
    (hlayers : ∀ layer ∈ layers, layer.PlainIndexed palette ∧ layer.drawnIndex? x y = none) :
    (canvas.mergeAll palette layers).indexAt? x y = canvas.indexAt? x y := by
  induction layers generalizing canvas with
  | nil => rfl
  | cons layer layers ih =>
    obtain ⟨hplain, hnone⟩ := hlayers layer List.mem_cons_self
    -- No layer of the list draws here, so each leaves the index to the next one.
    have hstep : (canvas.mergeDown layer palette).indexAt? x y = canvas.indexAt? x y := by
      rw [hplain.indexAt?_mergeDown h hx hy, hnone]
      exact Option.map_id'
    refine (ih (h.congr (mergeDown_format canvas layer palette)) ?_ ?_ ?_).trans hstep
    · rw [mergeDown_width]
      exact hx
    · rw [mergeDown_height]
      exact hy
    · exact fun other hother => hlayers other (List.mem_cons_of_mem _ hother)

end Canvas

namespace Canvas.IsIndexed

variable {canvas : Canvas} {palette : Palette} {layers : List Layer} {x y : Nat}
  (h : canvas.IsIndexed)
  (hx : x < canvas.width) (hy : y < canvas.height)
include h hx hy

/-- Layers that draw nothing at a position leave it as it was. -/
theorem colorAt?_mergeAll
    (hlayers : ∀ layer ∈ layers, layer.PlainIndexed palette ∧ layer.drawnIndex? x y = none) :
    (canvas.mergeAll palette layers).colorAt? x y = canvas.colorAt? x y := by
  have hmerged : (canvas.mergeAll palette layers).IsIndexed :=
    h.congr (mergeAll_format canvas palette layers)
  rw [hmerged.colorAt?_eq, h.colorAt?_eq, h.indexAt?_mergeAll hx hy hlayers, mergeAll_palette]

/-- A layer that draws an index shows the entry that its stored index has on the canvas, as far as
there is one. -/
theorem colorAt?_mergeDown {layer : Layer} (hplain : layer.PlainIndexed palette)
    {index below : UInt8} (hdrawn : layer.drawnIndex? x y = some index)
    (hbelow : canvas.indexAt? x y = some below) :
    (canvas.mergeDown layer palette).colorAt? x y =
      some (entry canvas.palette (writeIndex canvas.palette (layer.storedIndex index) below)) := by
  have hmerged : (canvas.mergeDown layer palette).IsIndexed :=
    h.congr (mergeDown_format canvas layer palette)
  rw [hmerged.colorAt?_eq, hplain.indexAt?_mergeDown h hx hy, hdrawn, hbelow, mergeDown_palette]
  rfl

/-- The lowest layer does so too. -/
theorem colorAt?_paintBase {layer : Layer} (hplain : layer.PlainIndexed palette)
    {index below : UInt8} (hdrawn : layer.drawnIndex? x y = some index)
    (hbelow : canvas.indexAt? x y = some below) :
    (canvas.paintBase layer palette).colorAt? x y =
      some (entry canvas.palette (writeIndex canvas.palette (layer.storedIndex index) below)) := by
  have hpainted : (canvas.paintBase layer palette).IsIndexed :=
    h.congr (paintBase_format canvas layer palette)
  rw [hpainted.colorAt?_eq, hplain.indexAt?_paintBase h hx hy hdrawn, hbelow, paintBase_palette]
  rfl

end Canvas.IsIndexed

/-- When index `index`, drawn by a layer of kind `top` in a stack whose lowest layer is of kind
`base`, shows as the document's colour of that index. It does where both kinds agree. Otherwise that
takes a coincidence: the next entry of the palette or the entry before it has the same colour, or
there is no next entry and the colour already shows below. -/
def Palette.ShowsIndex (palette : Palette) (base top : LayerKind) (index : UInt8)
    (below? : Option Pixel) : Prop :=
  top = base ∨
    (base = .indexed ∧ top = .indexedAlpha ∧
      if index.toNat + 1 < palette.size then palette.lookup (index + 1) = palette.lookup index
      else below? = some (palette.lookup index).solid) ∨
    (base = .indexedAlpha ∧ top = .indexed ∧ 0 < index ∧
      palette.lookup (index - 1) = palette.lookup index)

namespace Canvas

variable {palette : Palette} {width height : Nat}

theorem solid_inj {c d : Rgb} : c.solid = d.solid ↔ c = d :=
  ⟨fun h => congrArg Pixel.color h, fun h => congrArg Rgb.solid h⟩

/-- An index without an entry is not stored, and what is below stays. -/
theorem entry_writeIndex (entries : Array Pixel) (index below : UInt8) :
    entry entries (writeIndex entries index below) =
      if index.toNat < entries.size then entry entries index else entry entries below := by
  unfold writeIndex
  split
  · rfl
  · rfl

/-- Below 255 there is room for the next index. -/
theorem raiseIndex_eq {index : UInt8} (h : index.toNat < 255) :
    raiseIndex index = index + 1 ∧ (index + 1).toNat = index.toNat + 1 := by
  refine ⟨if_neg ?_, ?_⟩
  · rintro rfl
    exact absurd h (Nat.lt_irrefl 255)
  · rw [UInt8.toNat_add, show (1 : UInt8).toNat = 1 from rfl, Nat.mod_eq_of_lt (by omega)]

/-- **Storing an index.** What a drawn index shows on the canvas of a stack. -/
theorem entry_storedIndex (hsize : palette.size ≤ 255) {top : Layer}
    (htop : top.kind.isIndexed = true) {base : LayerKind} (hbase : base.isIndexed = true)
    {index : UInt8} (hindex : index.toNat < palette.size) (below : UInt8) :
    entry (palette.entriesFor base)
        (writeIndex (palette.entriesFor base) (top.storedIndex index) below) =
        (palette.lookup index).solid ↔
      palette.ShowsIndex base top.kind index (some (entry (palette.entriesFor base) below)) := by
  -- There are at most 255 colours, so the index can be raised without wrapping around.
  obtain ⟨hraise, hnext⟩ := raiseIndex_eq (by omega : index.toNat < 255)
  have hpred : index + 1 - 1 = index := by
    rw [UInt8.add_sub_cancel]
  have hpos : 0 < index + 1 := by
    rw [UInt8.lt_iff_toNat_lt, hnext]
    exact Nat.succ_pos _
  have hone : LayerKind.indexed ≠ LayerKind.indexedAlpha := LayerKind.noConfusion
  rw [entry_writeIndex, Palette.size_entriesFor]
  unfold Layer.storedIndex Palette.ShowsIndex
  -- Either kind may have alpha: the index moves up with the first, the palette with the second.
  rcases LayerKind.isIndexed_iff.mp htop with ht | ht
  · rcases LayerKind.isIndexed_iff.mp hbase with rfl | rfl
    · -- Neither layer has alpha: the index is stored as it is.
      rw [ht, if_neg hone, if_neg hone, if_pos (by omega), Palette.entry_entriesFor_indexed hindex]
      exact iff_of_true rfl (Or.inl rfl)
    · -- Only the lowest layer has alpha: the palette has moved and the index has not.
      rw [ht, if_neg hone, if_pos rfl, if_pos (by omega)]
      simp only [hone, hone.symm, false_and, true_and, false_or]
      by_cases hzero : index = 0
      · rw [hzero, Palette.entry_entriesFor_zero]
        refine iff_of_false (fun h => ?_) (fun h => absurd h.1 (by decide))
        have halpha : (0 : UInt8) = 255 := congrArg Pixel.alpha h
        exact absurd halpha (by decide)
      · have hlt : 0 < index := UInt8.pos_iff_ne_zero.mpr hzero
        rw [Palette.entry_entriesFor_indexedAlpha hlt (by omega), solid_inj]
        exact (and_iff_right hlt).symm
  · rcases LayerKind.isIndexed_iff.mp hbase with rfl | rfl
    · -- Only the top layer has alpha: the index has moved and the palette has not.
      rw [ht, if_pos rfl, if_neg hone, hraise, hnext]
      simp only [hone, hone.symm, false_and, true_and, false_or, or_false, Nat.add_zero]
      by_cases hroom : index.toNat + 1 < palette.size
      · rw [if_pos hroom, if_pos hroom, Palette.entry_entriesFor_indexed (hnext ▸ hroom), solid_inj]
      · rw [if_neg hroom, if_neg hroom, Option.some_inj]
    · -- Both layers have alpha: the index has moved with the palette.
      rw [ht, if_pos rfl, if_pos rfl, hraise, hnext, if_pos (by omega),
        Palette.entry_entriesFor_indexedAlpha hpos (by omega), hpred]
      exact iff_of_true rfl (Or.inl rfl)

/-- **Stacks of indexed layers.** Let `top` be the topmost layer that draws something at a position,
and `index` what it draws there. The stack is flattened, and its canvas shows the document's colour
of `index` at the position exactly if `Palette.ShowsIndex` says so. -/
theorem colorAt?_flatten?_iff (hsize : palette.size ≤ 255) {below above : List Layer} {top : Layer}
    (hlayers : ∀ layer ∈ below ++ top :: above, layer.PlainIndexed palette) {x y : Nat}
    (hx : x < width) (hy : y < height) {index : UInt8} (hdrawn : top.drawnIndex? x y = some index)
    (habove : ∀ layer ∈ above, layer.drawnIndex? x y = none) :
    ∃ canvas, flatten? width height palette (below ++ top :: above) = some canvas ∧
      (canvas.colorAt? x y = some (palette.lookup index).solid ↔
        palette.ShowsIndex (below.headD top).kind top.kind index
          ((flatten? width height palette below).bind fun canvas => canvas.colorAt? x y)) := by
  have htop : top.PlainIndexed palette := hlayers top (List.mem_append_right _ List.mem_cons_self)
  have hplain : ∀ layer ∈ above, layer.PlainIndexed palette ∧ layer.drawnIndex? x y = none :=
    fun layer hlayer => ⟨hlayers layer (List.mem_append_right _ (List.mem_cons_of_mem _ hlayer)),
      habove layer hlayer⟩
  have hindex := htop.drawnIndex?_lt hdrawn
  -- What is above draws nothing here. What is below matters in two ways: its lowest layer fixes the
  -- palette, and the index it leaves shows if there is no entry for the index of `top`.
  cases below with
  | nil =>
    -- `top` is the lowest layer, and its kind agrees with itself.
    obtain ⟨fresh, hfresh, hindexed, hpalette, rfl, rfl⟩ :=
      exists_forBase?_indexed width height htop.indexed top.props.opacity hsize
    obtain ⟨start, hstart⟩ := hindexed.exists_indexAt? hx hy
    have hpainted : (fresh.paintBase top palette).IsIndexed :=
      hindexed.congr (paintBase_format fresh top palette)
    refine ⟨(fresh.paintBase top palette).mergeAll palette above, ?_, iff_of_true ?_ (Or.inl rfl)⟩
    · rw [List.nil_append, flatten?, hfresh, Option.map_some]
    · rw [hpainted.colorAt?_mergeAll (by rw [paintBase_width]; exact hx)
          (by rw [paintBase_height]; exact hy) hplain,
        hindexed.colorAt?_paintBase hx hy htop hdrawn hstart, hpalette]
      exact congrArg some
        ((entry_storedIndex hsize htop.indexed htop.indexed hindex start).mpr (Or.inl rfl))
  | cons bottom between =>
    -- The lowest layer fixes the palette, and `top` is merged onto what the layers below it leave.
    have hbottom : bottom.PlainIndexed palette := hlayers bottom List.mem_cons_self
    obtain ⟨lower, hlower, hindexed, hpalette, rfl, rfl⟩ :=
      exists_flatten?_indexed width height hsize between hbottom
    obtain ⟨start, hstart⟩ := hindexed.exists_indexAt? hx hy
    have hmerged : (lower.mergeDown top palette).IsIndexed :=
      hindexed.congr (mergeDown_format lower top palette)
    refine ⟨(lower.mergeDown top palette).mergeAll palette above, ?_, ?_⟩
    · rw [flatten?_append palette _ _ _ _ (List.cons_ne_nil _ _), hlower]
      rfl
    · rw [hmerged.colorAt?_mergeAll (by rw [mergeDown_width]; exact hx)
          (by rw [mergeDown_height]; exact hy) hplain,
        hindexed.colorAt?_mergeDown hx hy htop hdrawn hstart, hlower, Option.bind_some,
        hindexed.colorAt?_eq, hstart, hpalette, Option.some_inj]
      exact entry_storedIndex hsize htop.indexed hbottom.indexed hindex start

/-- A palette of black and white. -/
def blackAndWhite : Palette := #[Rgb.black, Rgb.gray 255]

/-- An indexed layer of one black pixel in `blackAndWhite`. -/
def blackLayer : Layer where
  width := 1
  height := 1
  kind := .indexed
  props := {}
  tiles := ⟨1, 1, #[⟨1, 1, .level #[0]⟩]⟩
  mask := none

/-- The same pixel in a layer with alpha. -/
def blackAlphaLayer : Layer :=
  { blackLayer with
    kind := .indexedAlpha
    tiles := ⟨1, 1, #[⟨1, 1, .levelAlpha #[0] #[255]⟩]⟩ }

theorem blackLayer_plainIndexed : blackLayer.PlainIndexed blackAndWhite :=
  ⟨by decide, rfl, rfl, rfl, by decide⟩

theorem blackAlphaLayer_plainIndexed : blackAlphaLayer.PlainIndexed blackAndWhite :=
  ⟨by decide, rfl, rfl, rfl, by decide⟩

/-- Two layers with alpha show the black that the upper one draws. -/
theorem colorAt?_blackAlphaLayers :
    (∀ layer ∈ [blackAlphaLayer] ++ blackAlphaLayer :: [], layer.PlainIndexed blackAndWhite) ∧
      blackAlphaLayer.drawnIndex? 0 0 = some 0 ∧
      ∃ canvas, flatten? 1 1 blackAndWhite [blackAlphaLayer, blackAlphaLayer] = some canvas ∧
        canvas.colorAt? 0 0 = some Rgb.black.solid := by
  have hlayers : ∀ layer ∈ [blackAlphaLayer] ++ blackAlphaLayer :: [],
      layer.PlainIndexed blackAndWhite := by
    intro layer hlayer
    rcases List.mem_pair.mp hlayer with rfl | rfl
    · exact blackAlphaLayer_plainIndexed
    · exact blackAlphaLayer_plainIndexed
  -- The opaque pixel of the upper layer is drawn, and both palettes have moved by one.
  have hdrawn : blackAlphaLayer.drawnIndex? 0 0 = some 0 := by decide
  obtain ⟨canvas, hcanvas, hcolor⟩ :=
    colorAt?_flatten?_iff (by decide) hlayers (x := 0) (y := 0) Nat.one_pos Nat.one_pos hdrawn
      (fun _ hlayer => absurd hlayer List.not_mem_nil)
  exact ⟨hlayers, hdrawn, canvas, hcanvas, hcolor.mpr (Or.inl rfl)⟩

/-- A layer with alpha over one without shows the white that follows the black it draws. -/
theorem colorAt?_blackAlphaLayer_over_blackLayer :
    blackLayer.PlainIndexed blackAndWhite ∧ blackAlphaLayer.PlainIndexed blackAndWhite ∧
      blackAlphaLayer.drawnIndex? 0 0 = some 0 ∧ (blackAndWhite.lookup 0).solid = Rgb.black.solid ∧
      ∃ canvas, flatten? 1 1 blackAndWhite [blackLayer, blackAlphaLayer] = some canvas ∧
        canvas.colorAt? 0 0 = some Pixel.white ∧ Pixel.white ≠ Rgb.black.solid := by
  refine ⟨blackLayer_plainIndexed, blackAlphaLayer_plainIndexed, by decide, rfl, ?_⟩
  refine ⟨_, rfl, ?_, by decide⟩
  decide +kernel

end Canvas

end XcfFlatten
