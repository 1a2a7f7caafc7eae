import XcfFlatten.Proofs.Canvas.GrayExpansion

/-!
# What every canvas keeps

Whatever is composited onto it, a canvas stays as sound as it was when it was made for its lowest
layer: it holds no index without an entry in its palette and, without alpha, no pixel that is not
opaque (`Canvas.Sound`). Layers may come in any number and any order, each of them as the lowest
layer or as a further one, each with a palette of its own (`Canvas.Step`), and nothing is asked of
their shape. No rule asks whether an index is that of the right entry, so all that counts is what a
rule may write at all:

* `Canvas.Sound.step` — one layer leaves a sound canvas sound;
* `Canvas.sound_run` — and so does a run of them, from any canvas that is made for a lowest layer.
-/

namespace XcfFlatten

/-! ### Properties of all cells -/

namespace Raster

variable {α : Type} {P : α → Prop}

/-- A property holds of every cell. -/
def All (P : α → Prop) (r : Raster α) : Prop := ∀ a ∈ r.cells, P a

theorem all_filled {width height : Nat} {a : α} (ha : P a) : (filled width height a).All P := by
  intro b hb
  rw [Array.eq_of_mem_replicate hb]
  exact ha

namespace All

variable {r : Raster α} (h : r.All P)
include h

theorem of_get? {x y : Nat} {a : α} (ha : r.get? x y = some a) : P a :=
  h a (Array.mem_of_getElem? ha)

theorem modify {f : α → α} (hf : ∀ a, P a → P (f a)) (x y : Nat) : (r.modify x y f).All P := by
  intro b hb
  obtain ⟨i, hi⟩ := Array.mem_iff_getElem?.mp hb
  change (r.cells.modify (r.offset x y) f)[i]? = some b at hi
  rw [Array.getElem?_modify] at hi
  split at hi
  · obtain ⟨a, ha, rfl⟩ := Option.map_eq_some_iff.mp hi
    exact hf a (h a (Array.mem_of_getElem? ha))
  · exact h b (Array.mem_of_getElem? hi)

/-- Changing cells one after another keeps a property that every change keeps. -/
theorem modifyAll {rule : Sample → α → α} (hrule : ∀ sample a, P a → P (rule sample a))
    (ps : List Placement) : (r.modifyAll rule ps).All P := by
  induction ps generalizing r with
  | nil => exact h
  | cons p ps ih =>
    rw [modifyAll_cons]
    exact ih (h.modify (hrule p.sample) p.x p.y)

/-- What a rule keeps in each cell, painting a layer keeps in all of them. -/
theorem paint {rule : Sample → α → α} (hrule : ∀ sample a, P a → P (rule sample a))
    (layer : Layer) : (r.paint layer rule).All P := by
  rw [paint_eq_modifyAll]
  exact h.modifyAll hrule _

end All

end Raster

/-! ### Sound canvases -/

/-- What the palette of a canvas looks like in each format. -/
def PaletteFormat.Fits (palette : Array Pixel) : PaletteFormat → Prop
  | mono => palette.size ≤ 2
  | indexed8 => palette.size ≤ 256
  | gray8 => palette = grayRamp

namespace Canvas

/-- An index that a canvas with the given palette may hold: one with an entry, or 0 if there are no
entries at all. -/
def Storable (palette : Array Pixel) (index : UInt8) : Prop :=
  index.toNat < palette.size ∨ palette = #[] ∧ index = 0

/-- A pixel that a canvas may hold: without alpha it is opaque. -/
def Holdable (hasAlpha : Bool) (pixel : Pixel) : Prop := hasAlpha = false → pixel.alpha = 255

/-- A canvas is sound if its palette fits its format and all of its cells hold what they may. -/
inductive Sound : Canvas → Prop where
  | indexed {format : PaletteFormat} {palette : Array Pixel} {cells : Raster UInt8}
      (fits : format.Fits palette) (storable : cells.All (Storable palette)) :
      Sound (.indexed format palette cells)
  | color {hasAlpha : Bool} {cells : Raster Pixel} (holdable : cells.All (Holdable hasAlpha)) :
      Sound (.color hasAlpha cells)

/-! ### What rules write -/

section Rules

variable {palette : Array Pixel} {below : UInt8}

theorem storable_zero (palette : Array Pixel) : Storable palette 0 := by
  by_cases h : palette = #[]
  · exact Or.inr ⟨h, rfl⟩
  · exact Or.inl (Array.size_pos_iff.mpr h)

/-- Writing an index changes nothing or leaves one that has an entry. -/
theorem Storable.writeIndex (h : Storable palette below) (index : UInt8) :
    Storable palette (writeIndex palette index below) := by
  unfold Canvas.writeIndex
  split
  · next hlt => exact Or.inl hlt
  · exact h

theorem Storable.baseIndex (h : Storable palette below) (layer : Layer) (sample : Sample) :
    Storable palette (layer.baseIndex palette sample below) := h.writeIndex _

/-- Merging stores only indices that have an entry. -/
theorem Storable.mergedIndex (h : Storable palette below) (layer : Layer) (sample : Sample) :
    Storable palette (layer.mergedIndex palette sample below) := by
  unfold Layer.mergedIndex
  dsimp only
  -- Each branch writes an index or leaves what is below.
  split
  · exact h.writeIndex _
  split
  · split
    · exact h.writeIndex _
    · exact h
  split
  · exact h
  · exact h.writeIndex _

/-- A canvas can hold what has been written to it. -/
theorem holdable_writePixel (hasAlpha : Bool) (pixel : Pixel) :
    Holdable hasAlpha (writePixel hasAlpha pixel) := by
  rintro rfl
  rfl

/-- What a canvas may hold it stores as it is. -/
theorem Holdable.writePixel_eq {hasAlpha : Bool} {pixel : Pixel} (h : Holdable hasAlpha pixel) :
    writePixel hasAlpha pixel = pixel := by
  cases hasAlpha with
  | true => rfl
  | false =>
    obtain ⟨color, alpha⟩ := pixel
    obtain rfl : alpha = 255 := h rfl
    rfl

theorem holdable_basePixel (layer : Layer) (document : Palette) (hasAlpha : Bool) (sample : Sample)
    (below : Pixel) : Holdable hasAlpha (layer.basePixel document hasAlpha sample below) :=
  holdable_writePixel hasAlpha _

/-- A canvas can hold what merging a layer makes of a pixel that it held. -/
theorem Holdable.mergedPixel {hasAlpha : Bool} {below : Pixel} (h : Holdable hasAlpha below)
    (layer : Layer) (document : Palette) (sample : Sample) :
    Holdable hasAlpha (layer.mergedPixel document hasAlpha sample below) := by
  unfold Layer.mergedPixel
  -- Whatever is not what was below has been written to the canvas.
  split
  · split
    · exact holdable_writePixel hasAlpha _
    · exact h
  split
  · exact h
  split
  · exact holdable_writePixel hasAlpha _
  · exact holdable_writePixel hasAlpha _

end Rules

/-! ### Fresh canvases -/

theorem sound_filledColor (width height : Nat) (hasAlpha : Bool) (fill : Pixel) :
    (filledColor width height hasAlpha fill).Sound :=
  .color (Raster.all_filled (holdable_writePixel hasAlpha fill))

/-- A canvas filled with one index is sound if the palette has room for it. -/
theorem sound_filledIndexed {format : PaletteFormat} {palette : Array Pixel} {fill : UInt8}
    (hfits : format.Fits palette) (hfill : Storable palette fill) (width height : Nat) :
    (filledIndexed width height format palette fill).Sound :=
  .indexed hfits (Raster.all_filled hfill)

/-- The canvas made for a lowest layer is sound, and of the size that was asked for. -/
theorem sound_forBase? {width height : Nat} {kind : LayerKind} {opacity : UInt8} {palette : Palette}
    {canvas : Canvas} (h : forBase? width height kind opacity palette = some canvas) :
    canvas.Sound ∧ canvas.width = width ∧ canvas.height = height := by
  have hclear := sound_filledColor width height true Pixel.clear
  -- Whatever the kind asks for is filled with one colour or one index that its palette has.
  cases kind with
  | rgb =>
    obtain rfl := Option.some.inj h
    split
    · exact ⟨sound_filledColor width height false Pixel.white, rfl, rfl⟩
    · exact ⟨hclear, rfl, rfl⟩
  | rgba | grayAlpha =>
    obtain rfl := Option.some.inj h
    exact ⟨hclear, rfl, rfl⟩
  | gray =>
    obtain rfl := Option.some.inj h
    split
    · -- The gray ramp has an entry for every byte.
      have hfits : PaletteFormat.gray8.Fits grayRamp := rfl
      have hfill : Storable grayRamp 255 := Or.inl (size_grayRamp ▸ UInt8.toNat_lt 255)
      exact ⟨sound_filledIndexed hfits hfill width height, rfl, rfl⟩
    · exact ⟨hclear, rfl, rfl⟩
  | indexed =>
    unfold forBase? at h
    dsimp only at h
    split at h
    · next hsize =>
      obtain rfl := Option.some.inj h
      refine ⟨sound_filledIndexed ?_ (storable_zero _) width height, rfl, rfl⟩
      have hcolors : (palette.map Rgb.solid).size = palette.size := Array.size_map
      split
      · next htwo => exact Nat.le_trans (Nat.le_of_eq hcolors) htwo
      · exact Nat.le_trans (Nat.le_of_eq hcolors) hsize
    · cases h
  | indexedAlpha =>
    unfold forBase? at h
    dsimp only at h
    split at h
    · next hsize =>
      obtain rfl := Option.some.inj h
      refine ⟨sound_filledIndexed ?_ (storable_zero _) width height, rfl, rfl⟩
      -- With the clear entry there is one more than there are colours.
      have hentries : (#[Pixel.clear] ++ palette.map Rgb.solid).size = palette.size + 1 := by
        rw [Array.size_append, Array.size_map, Nat.add_comm]
        rfl
      split
      · next hone => exact Nat.le_trans (Nat.le_of_eq hentries) (by omega)
      · exact Nat.le_trans (Nat.le_of_eq hentries) hsize
    · obtain rfl := Option.some.inj h
      exact ⟨hclear, rfl, rfl⟩

/-! ### Runs -/

/-- One thing that can be done to a canvas. -/
inductive Step where
  | paintBase (layer : Layer) (palette : Palette)
  | mergeDown (layer : Layer) (palette : Palette)

/-- Does one thing to a canvas. -/
def apply (canvas : Canvas) : Step → Canvas
  | .paintBase layer palette => canvas.paintBase layer palette
  | .mergeDown layer palette => canvas.mergeDown layer palette

/-- Does one thing after another. -/
def run (canvas : Canvas) (steps : List Step) : Canvas := steps.foldl apply canvas

/-- Merges layers one after another, each with a palette of its own. -/
def merges (calls : List (Layer × Palette)) : List Step :=
  calls.map fun call => .mergeDown call.1 call.2

theorem run_merges_cons (canvas : Canvas) (call : Layer × Palette)
    (calls : List (Layer × Palette)) :
    canvas.run (merges (call :: calls)) =
      (canvas.mergeDown call.1 call.2).run (merges calls) := rfl

theorem run_merges_append (canvas : Canvas) (calls more : List (Layer × Palette)) :
    canvas.run (merges (calls ++ more)) = (canvas.run (merges calls)).run (merges more) := by
  unfold merges run
  rw [List.map_append, List.foldl_append]

/-- A rule for each kind of canvas that keeps cells as they may be keeps the canvas sound. -/
theorem Sound.repaint {canvas : Canvas} (h : canvas.Sound) (layer : Layer)
    {indexRule : Array Pixel → Sample → UInt8 → UInt8} {pixelRule : Bool → Sample → Pixel → Pixel}
    (hindex : ∀ palette sample below, Storable palette below →
      Storable palette (indexRule palette sample below))
    (hpixel : ∀ hasAlpha sample below, Holdable hasAlpha below →
      Holdable hasAlpha (pixelRule hasAlpha sample below)) :
    (canvas.repaint layer indexRule pixelRule).Sound := by
  cases h with
  | indexed fits storable => exact .indexed fits (storable.paint (hindex _) layer.dissolved)
  | color holdable => exact .color (holdable.paint (hpixel _) layer.dissolved)

/-- **One layer.** A sound canvas stays sound. -/
theorem Sound.step {canvas : Canvas} (h : canvas.Sound) (step : Step) : (canvas.apply step).Sound := by
  cases step with
  | paintBase layer palette =>
    -- The base rules write every cell anew.
    rw [apply, paintBase_eq]
    exact h.repaint layer (fun _ sample _ hbelow => hbelow.baseIndex layer sample)
      (fun hasAlpha sample below _ => holdable_basePixel layer palette hasAlpha sample below)
  | mergeDown layer palette =>
    rw [apply, mergeDown_eq]
    split
    · exact h
    · exact h.repaint layer (fun _ sample _ hbelow => hbelow.mergedIndex layer sample)
        (fun _ sample _ hbelow => hbelow.mergedPixel layer palette sample)

/-- A sound canvas remains so in every run. -/
theorem Sound.run {canvas : Canvas} (h : canvas.Sound) (steps : List Step) :
    (canvas.run steps).Sound := by
  induction steps generalizing canvas with
  | nil => exact h
  | cons step steps ih => exact ih (h.step step)

/-- What no step changes, no run changes. -/
theorem run_congr {α : Type} (f : Canvas → α)
    (hbase : ∀ canvas layer palette, f (paintBase canvas layer palette) = f canvas)
    (hmerge : ∀ canvas layer palette, f (mergeDown canvas layer palette) = f canvas)
    (canvas : Canvas) (steps : List Step) : f (canvas.run steps) = f canvas := by
  have hstep : ∀ (canvas : Canvas) (step : Step), f (canvas.apply step) = f canvas := by
    intro canvas step
    cases step with
    | paintBase layer palette => exact hbase canvas layer palette
    | mergeDown layer palette => exact hmerge canvas layer palette
  -- By induction on the steps, the first of which leaves the value as it is.
  induction steps generalizing canvas with
  | nil => rfl
  | cons step steps ih => exact (ih (canvas.apply step)).trans (hstep canvas step)

/-! ### Colours of a sound canvas -/

/-- How many cells are stored. -/
def cellCount : Canvas → Nat
  | indexed _ _ cells => cells.cells.size
  | color _ cells => cells.cells.size

theorem cellCount_eq (canvas : Canvas) : canvas.cellCount = canvas.width * canvas.height := by
  cases canvas with
  | indexed format palette cells => exact cells.size_eq
  | color hasAlpha cells => exact cells.size_eq

/-- The colour at a position, if the canvas holds a colour or an index with an entry there. -/
def storedColor? (canvas : Canvas) (x y : Nat) : Option Pixel :=
  match canvas with
  | indexed _ palette cells => (cells.get? x y).bind fun index => palette[index.toNat]?
  | color _ cells => cells.get? x y

/-- Inside a canvas, the colour shown is the stored one, and the zero pixel if there is none. -/
theorem colorAt?_eq_storedColor? (canvas : Canvas) {x y : Nat} (hx : x < canvas.width)
    (hy : y < canvas.height) :
    canvas.colorAt? x y = some ((canvas.storedColor? x y).getD Pixel.zero) := by
  cases canvas with
  | indexed format palette cells =>
    obtain ⟨index, hindex⟩ := cells.exists_get? hx hy
    rw [colorAt?, storedColor?, hindex, Option.map_some, Option.bind_some, entry,
      Array.getD_eq_getD_getElem?]
  | color hasAlpha cells =>
    obtain ⟨pixel, hpixel⟩ := cells.exists_get? hx hy
    rw [colorAt?, storedColor?, hpixel, Option.getD_some]

/-- Only where there are no entries at all, an index of a sound canvas has none. -/
theorem Sound.palette_of_storedColor?_eq_none {canvas : Canvas} (h : canvas.Sound) {x y : Nat}
    (hx : x < canvas.width) (hy : y < canvas.height) (hnone : canvas.storedColor? x y = none) :
    ∃ format, canvas.format = .palette format ∧ canvas.palette = #[] := by
  cases h with
  | @indexed format palette cells fits storable =>
    obtain ⟨index, hindex⟩ := cells.exists_get? hx hy
    rw [storedColor?, hindex, Option.bind_some, Array.getElem?_eq_none_iff] at hnone
    refine ⟨format, rfl, ?_⟩
    -- An index without an entry is storable in an empty palette only.
    rcases storable.of_get? hindex with hlt | ⟨hempty, -⟩
    · exact absurd hlt (Nat.not_lt.mpr hnone)
    · exact hempty
  | @color hasAlpha cells holdable =>
    obtain ⟨pixel, hpixel⟩ := cells.exists_get? hx hy
    rw [storedColor?, hpixel] at hnone
    cases hnone

/-- **Canvases after any run.** A canvas is made for a lowest layer of any kind and opacity, and then
layers are composited onto it, however many and whatever they look like. It keeps its format, its
palette and its size, holds as many cells as its size asks for, and is sound. So it shows the zero
pixel for want of an entry only if its palette is empty. -/
theorem sound_run {width height : Nat} {kind : LayerKind} {opacity : UInt8} {palette : Palette}
    {start : Canvas} (hstart : forBase? width height kind opacity palette = some start)
    (steps : List Step) :
    ((start.run steps).format = start.format ∧ (start.run steps).palette = start.palette ∧
        (start.run steps).width = width ∧ (start.run steps).height = height ∧
        (start.run steps).cellCount = width * height) ∧
      (start.run steps).Sound ∧
      ∀ x < width, ∀ y < height,
        (start.run steps).colorAt? x y =
            some (((start.run steps).storedColor? x y).getD Pixel.zero) ∧
          ((start.run steps).storedColor? x y = none →
            ∃ format, start.format = .palette format ∧ start.palette = #[]) := by
  obtain ⟨hsound, hwidth, hheight⟩ := sound_forBase? hstart
  -- What no step changes, no run does: the format, the palette and the size.
  have hformat : (start.run steps).format = start.format :=
    run_congr format paintBase_format mergeDown_format start steps
  have hpalette : (start.run steps).palette = start.palette :=
    run_congr Canvas.palette paintBase_palette mergeDown_palette start steps
  have hwidth' : (start.run steps).width = width :=
    (run_congr Canvas.width paintBase_width mergeDown_width start steps).trans hwidth
  have hheight' : (start.run steps).height = height :=
    (run_congr Canvas.height paintBase_height mergeDown_height start steps).trans hheight
  have hcount : (start.run steps).cellCount = width * height := by
    rw [cellCount_eq, hwidth', hheight']
  have hrun : (start.run steps).Sound := hsound.run steps
  refine ⟨⟨hformat, hpalette, hwidth', hheight', hcount⟩, hrun, ?_⟩
  intro x hx y hy
  have hx' : x < (start.run steps).width := hwidth'.symm ▸ hx
  have hy' : y < (start.run steps).height := hheight'.symm ▸ hy
  refine ⟨colorAt?_eq_storedColor? _ hx' hy', fun hnone => ?_⟩
  rw [← hformat, ← hpalette]
  exact hrun.palette_of_storedColor?_eq_none hx' hy' hnone

/-- A masked gray layer over an opaque one leaves its canvas sound. -/
theorem sound_run_overhangingLayer :
    forBase? 1 1 .gray 255 #[] = some (filledIndexed 1 1 .gray8 grayRamp 255) ∧
      ((filledIndexed 1 1 .gray8 grayRamp 255).run
        [.paintBase overhangingLayer #[], .mergeDown overhangingLayer #[]]).Sound := by
  have hstart : forBase? 1 1 .gray 255 #[] = some (filledIndexed 1 1 .gray8 grayRamp 255) := rfl
  obtain ⟨-, hsound, -⟩ :=
    sound_run hstart [.paintBase overhangingLayer #[], .mergeDown overhangingLayer #[]]
  exact ⟨hstart, hsound⟩

end Canvas

end XcfFlatten
