import XcfFlatten.Proofs.Canvas.Cover

/-!
# Alphas only grow

Whatever is merged onto a canvas of colours, none of its pixels ever becomes more transparent
(`Canvas.alpha_run`). What a layer can do to one pixel is said once (`Layer.Merged`): it is passed
over, or it leaves its mark there by one of three rules. A palette colour that shows is opaque, and
cannot have less alpha than what it hides. Levels and colours have the same rule for alpha
(`Layer.alpha_mergedPixel`): a mode leaves the alpha below as it is, or the new alpha is that of a
composite, which has at least the alpha of what is below and of its source.

The source of a composite is not always all that the layer has to give. Modes that mix are clipped
to the alpha below before anything is composited (`Layer.clippedAlpha`). But these are modes that leave
the alpha below as it is. So where a mode changes alphas, the layer's whole effective alpha arrives.

A canvas without alpha holds opaque pixels only, as a sound one does. There, nothing can change.
-/

namespace XcfFlatten

/-! ### Alphas of rules -/

namespace Layer

variable {layer : Layer} {palette : Palette} {sample : Sample} {below : Pixel} {hasAlpha : Bool}

/-- Is a level or a colour of the layer clipped to the alpha below, as it is in modes that mix? -/
def clipsAlpha (layer : Layer) : Bool :=
  if layer.kind.isGray then layer.props.mode.blend.mixesGray
  else layer.props.mode.blend.mixesColor

/-- The alpha of a level or a colour as it goes into the composite. -/
def clippedAlpha (layer : Layer) (sample : Sample) (below : UInt8) : UInt8 :=
  if layer.clipsAlpha then min sample.texel.alpha below else sample.texel.alpha

/-- The alpha that is left of the alpha `below` under a level or a colour. -/
def mergedAlpha (layer : Layer) (sample : Sample) (below : UInt8) : UInt8 :=
  if layer.props.mode.affectsAlpha then
    overAlpha (UInt8.ofNat (layer.alphaOf sample (layer.clippedAlpha sample below))) below
  else below

/-- A pixel without alpha leaves the alpha below, in every mode. -/
theorem mergedAlpha_clear (h : sample.texel.alpha = 0) (below : UInt8) :
    layer.mergedAlpha sample below = below := by
  -- Clipping does not raise the alpha of a transparent pixel, so nothing is laid over.
  have hclipped : layer.clippedAlpha sample below ≤ 0 :=
    h ▸ clipped_le layer.clipsAlpha sample.texel.alpha below
  have hnothing : layer.alphaOf sample (layer.clippedAlpha sample below) = 0 := by
    refine Nat.eq_zero_of_le_zero ?_
    calc layer.alphaOf sample (layer.clippedAlpha sample below)
        ≤ effectiveAlpha layer.props.opacity sample.mask 0 := effectiveAlpha_mono _ _ hclipped
      _ = 0 := effectiveAlpha_clear _ _
  unfold mergedAlpha
  rw [hnothing, show UInt8.ofNat 0 = 0 from rfl, overAlpha_clear, ite_self]

/-- Over an opaque pixel the result is opaque. -/
theorem mergedAlpha_solid (layer : Layer) (sample : Sample) :
    layer.mergedAlpha sample 255 = 255 := by
  unfold mergedAlpha
  rw [overAlpha_solid, ite_self]

/-- **One rule for alphas.** Levels and colours treat the alpha below in the same way, and no canvas
has to put right what they leave of it. -/
theorem alpha_mergedPixel (hkind : layer.kind.isIndexed = false)
    (hbelow : Canvas.Holdable hasAlpha below) (palette : Palette) (sample : Sample) :
    (layer.mergedPixel palette hasAlpha sample below).alpha =
      layer.mergedAlpha sample below.alpha := by
  have hgray : layer.kind.isGray = true →
      (layer.mergedGray sample below).alpha = layer.mergedAlpha sample below.alpha := by
    intro hgray
    unfold mergedGray mergedAlpha clippedAlpha clipsAlpha
    dsimp only
    rw [if_pos hgray]
  have hcolor : ¬ layer.kind.isGray = true →
      (layer.mergedColor palette sample below).alpha = layer.mergedAlpha sample below.alpha := by
    intro hgray
    unfold mergedColor overPixel mergedAlpha clippedAlpha clipsAlpha
    dsimp only
    rw [if_neg hgray]
  -- On a canvas without alpha, the pixel below is opaque and the result is, too.
  have hwrite : ∀ pixel : Pixel, pixel.alpha = layer.mergedAlpha sample below.alpha →
      (Canvas.writePixel hasAlpha pixel).alpha = layer.mergedAlpha sample below.alpha := by
    intro pixel halpha
    have hpixel : Canvas.Holdable hasAlpha pixel := by
      intro hopaque
      rw [halpha, hbelow hopaque, mergedAlpha_solid]
    rw [hpixel.writePixel_eq, halpha]
  unfold mergedPixel
  rw [hkind, if_neg Bool.false_ne_true]
  split
  · next halpha => exact (mergedAlpha_clear halpha below.alpha).symm
  split
  · next hkind => exact hwrite _ (hgray hkind)
  · next hkind => exact hwrite _ (hcolor hkind)

/-- No alpha is taken away from a pixel. -/
theorem le_alpha_mergedPixel (hbelow : Canvas.Holdable hasAlpha below) (layer : Layer)
    (palette : Palette) (sample : Sample) :
    below.alpha ≤ (layer.mergedPixel palette hasAlpha sample below).alpha := by
  cases hkind : layer.kind.isIndexed with
  | true =>
    unfold mergedPixel
    rw [if_pos hkind]
    split
    · -- A palette colour that shows is opaque.
      have hsolid : Canvas.Holdable hasAlpha (palette.lookup sample.texel.value).solid :=
        fun _ => rfl
      rw [hsolid.writePixel_eq]
      exact UInt8.le_iff_toNat_le.mpr (Nat.le_of_lt_succ (UInt8.toNat_lt _))
    · exact UInt8.le_refl _
  | false =>
    -- Elsewhere the pixel has the merged alpha, which is built up on the one below or is that one.
    rw [alpha_mergedPixel hkind hbelow, mergedAlpha]
    split
    · exact below_le_overAlpha _ _
    · exact UInt8.le_refl _

/-- In a mode that changes alphas nothing is clipped: the composite has all of the sample's
effective alpha. -/
theorem alphaOf_le_mergedAlpha (hmode : ∃ id, LayerMode.ofId? id = some layer.props.mode)
    (haffects : layer.props.mode.affectsAlpha = true) (sample : Sample) (below : UInt8) :
    layer.alphaOf sample sample.texel.alpha ≤ (layer.mergedAlpha sample below).toNat := by
  obtain ⟨id, hid⟩ := hmode
  have hplain := LayerMode.isPlain_of_affectsAlpha hid haffects
  -- The modes that affect alpha mix nothing, so the alpha is not clipped to the one below.
  have hwhole : layer.clippedAlpha sample below = sample.texel.alpha := by
    unfold clippedAlpha clipsAlpha
    rw [BlendMode.mixesGray_of_isPlain hplain, BlendMode.mixesColor_of_isPlain hplain, ite_self,
      if_neg Bool.false_ne_true]
  unfold mergedAlpha
  rw [if_pos haffects, hwhole]
  calc layer.alphaOf sample sample.texel.alpha
      = (UInt8.ofNat (layer.alphaOf sample sample.texel.alpha)).toNat :=
        (toNat_effectiveAlpha _ _ _).symm
    _ ≤ _ := UInt8.le_iff_toNat_le.mp (le_overAlpha _ below)

/-! ### One layer over one pixel -/

/-- What merging a layer may leave of a pixel at a position of a canvas of colours. -/
inductive Merged (layer : Layer) (palette : Palette) (hasAlpha : Bool) (x y : Nat)
    (below : Pixel) : Pixel → Prop where
  /-- The layer is passed over, or lies beside the pixel. -/
  | passed (h : layer.props.opacity = 0 ∨ ¬ layer.LiesOver x y) :
      Merged layer palette hasAlpha x y below below
  /-- The pixel that lands is the one after the dissolve step. -/
  | landed {texel : Texel} (h : layer.LiesOver x y)
      (htexel : layer.dissolved.tiles.texelAt? (layer.columnAt x) (layer.rowAt y) = some texel) :
      Merged layer palette hasAlpha x y below
        (layer.mergedPixel palette hasAlpha
          ⟨texel, layer.maskAt? (layer.columnAt x) (layer.rowAt y)⟩ below)

namespace Merged

variable {x y : Nat} {above : Pixel} (h : layer.Merged palette hasAlpha x y below above)
  (hbelow : Canvas.Holdable hasAlpha below)
include h hbelow

/-- The alpha at a pixel does not fall. -/
theorem le_alpha : below.alpha ≤ above.alpha := by
  cases h with
  | passed _ => exact UInt8.le_refl _
  | landed _ _ => exact le_alpha_mergedPixel hbelow layer palette _

/-- A mode that does not affect alpha leaves the alpha at a pixel as it is. -/
theorem alpha_eq (hkind : layer.kind.isIndexed = false)
    (hkeeps : layer.props.mode.affectsAlpha = false) : above.alpha = below.alpha := by
  cases h with
  | passed _ => rfl
  | landed _ _ =>
    rw [alpha_mergedPixel hkind hbelow, mergedAlpha, hkeeps, if_neg Bool.false_ne_true]

/-- A mode that affects alpha raises the alpha at a pixel to the effective alpha of what lands
there, at least. -/
theorem exists_effectiveAlpha_le (hshaped : layer.WellShaped) (hover : layer.LiesOver x y)
    (hkind : layer.kind.isIndexed = false)
    (hmode : ∃ id, LayerMode.ofId? id = some layer.props.mode)
    (haffects : layer.props.mode.affectsAlpha = true) :
    ∃ texel,
      layer.dissolved.tiles.texelAt? (layer.columnAt x) (layer.rowAt y) = some texel ∧
        effectiveAlpha layer.props.opacity (layer.maskAt? (layer.columnAt x) (layer.rowAt y))
          texel.alpha ≤ above.alpha.toNat := by
  cases h with
  | passed hpassed =>
    -- A layer that lies over the pixel is passed over only at opacity 0.
    obtain ⟨texel, htexel, -⟩ := hshaped.exists_landing_dissolved hover
    have hopacity := hpassed.resolve_right fun hbeside => hbeside hover
    refine ⟨texel, htexel, ?_⟩
    rw [hopacity, effectiveAlpha_hidden]
    exact Nat.zero_le _
  | @landed texel _ htexel =>
    refine ⟨texel, htexel, ?_⟩
    rw [alpha_mergedPixel hkind hbelow]
    exact alphaOf_le_mergedAlpha hmode haffects
      ⟨texel, layer.maskAt? (layer.columnAt x) (layer.rowAt y)⟩ below.alpha

end Merged

end Layer

/-! ### Layers one after another -/

namespace Canvas

variable {canvas : Canvas} {layer : Layer} {hasAlpha : Bool} {width height x y : Nat}

/-- At every position of a canvas of colours there is a pixel to begin with and a pixel afterwards,
and between them lies what merging may do. -/
theorem HoldsColors.exists_merged_shown (hcanvas : canvas.HoldsColors hasAlpha width height)
    (h : layer.WellShaped) (palette : Palette) (hx : x < width) (hy : y < height) :
    ∃ below above, canvas.colorAt? x y = some below ∧
      (canvas.mergeDown layer palette).colorAt? x y = some above ∧
        layer.Merged palette hasAlpha x y below above := by
  obtain ⟨cells, rfl, rfl, rfl⟩ := hcanvas.eq_color
  obtain ⟨below, hget⟩ := cells.exists_get? hx hy
  have haccepts : (color hasAlpha cells).accepts layer.kind = true := rfl
  -- A layer leaves a pixel alone if it is passed over as a whole or lies elsewhere.
  by_cases hopacity : layer.props.opacity = 0
  · refine ⟨below, below, hget, ?_, .passed (Or.inl hopacity)⟩
    rw [mergeDown_eq, hopacity]
    exact hget
  by_cases hover : layer.LiesOver x y
  · obtain ⟨texel, htexel, hlands⟩ := h.exists_landing_dissolved hover
    exact ⟨below, _, hget, colorAt?_mergeDown_color h hopacity hlands palette hasAlpha hx hy hget,
      .landed hover htexel⟩
  · refine ⟨below, below, hget, ?_, .passed (Or.inr hover)⟩
    rw [mergeDown_eq, haccepts, if_neg (by simp [hopacity]), repaint, colorAt?,
      Raster.get?_paint h.dissolved _ _ hx hy, h.landing?_dissolved_eq_none hover, hget]
    rfl

/-- **One layer.** If the canvas is sound, the pixel to begin with is one that it may hold. -/
theorem HoldsColors.exists_merged (hcanvas : canvas.HoldsColors hasAlpha width height)
    (hsound : canvas.Sound) (h : layer.WellShaped) (palette : Palette) (hx : x < width)
    (hy : y < height) :
    ∃ below above, canvas.colorAt? x y = some below ∧ Holdable hasAlpha below ∧
      (canvas.mergeDown layer palette).colorAt? x y = some above ∧
        layer.Merged palette hasAlpha x y below above := by
  obtain ⟨below, above, hbelow, habove, hmerged⟩ := hcanvas.exists_merged_shown h palette hx hy
  obtain ⟨cells, rfl, -, -⟩ := hcanvas.eq_color
  cases hsound with
  | color hall => exact ⟨below, above, hbelow, hall.of_get? hbelow, habove, hmerged⟩

/-- Merging layers leaves the size and the format of the canvas as they are. -/
theorem HoldsColors.run_merges (h : canvas.HoldsColors hasAlpha width height)
    (calls : List (Layer × Palette)) :
    (canvas.run (merges calls)).HoldsColors hasAlpha width height := by
  induction calls generalizing canvas with
  | nil => exact h
  | cons call calls ih => exact ih (h.mergeDown call.1 call.2)

/-- **Many layers.** What no single layer takes away, no run of them does. -/
theorem HoldsColors.le_alpha_run (hcanvas : canvas.HoldsColors hasAlpha width height)
    (hsound : canvas.Sound) {calls : List (Layer × Palette)}
    (hshaped : ∀ call ∈ calls, call.1.WellShaped) (hx : x < width) (hy : y < height) :
    ∃ first last, canvas.colorAt? x y = some first ∧
      (canvas.run (merges calls)).colorAt? x y = some last ∧ first.alpha ≤ last.alpha := by
  -- By induction on the layers that are still to come.
  induction calls generalizing canvas with
  | nil =>
    obtain ⟨cells, rfl, rfl, rfl⟩ := hcanvas.eq_color
    obtain ⟨pixel, hpixel⟩ := cells.exists_get? hx hy
    exact ⟨pixel, pixel, hpixel, hpixel, UInt8.le_refl _⟩
  | cons call calls ih =>
    obtain ⟨layer, palette⟩ := call
    obtain ⟨first, next, hfirst, hholdable, hnext, hmerged⟩ :=
      hcanvas.exists_merged hsound (hshaped _ List.mem_cons_self) palette hx hy
    obtain ⟨middle, last, hmiddle, hlast, hle⟩ :=
      ih (hcanvas.mergeDown layer palette) (hsound.step (.mergeDown layer palette))
        fun call hmem => hshaped call (List.mem_cons_of_mem _ hmem)
    obtain rfl : next = middle := Option.some.inj (hnext.symm.trans hmiddle)
    refine ⟨first, last, hfirst, ?_, UInt8.le_trans (hmerged.le_alpha hholdable) hle⟩
    rw [run_merges_cons]
    exact hlast

/-- **Alphas only grow.** Merge well-shaped layers of any kinds, modes, opacities and masks,
wherever they are placed, onto a canvas of colours that is sound, which is to say that without alpha
it holds opaque pixels only. From any point of the run to any later one, no pixel loses alpha. Let a
layer of colours or levels come next. If its mode leaves alphas as they are, all pixels keep theirs.
If its mode, found by its id, changes them, each pixel that the layer lies over has at least the
effective alpha of the layer's pixel there after the dissolve step. -/
theorem alpha_run {cells : Raster Pixel} (hsound : (color hasAlpha cells).Sound)
    {calls more : List (Layer × Palette)} (hshaped : ∀ call ∈ calls ++ more, call.1.WellShaped)
    (hx : x < cells.width) (hy : y < cells.height) :
    ∃ earlier later,
      ((color hasAlpha cells).run (merges calls)).colorAt? x y = some earlier ∧
      ((color hasAlpha cells).run (merges (calls ++ more))).colorAt? x y = some later ∧
      earlier.alpha ≤ later.alpha ∧
      ∀ (layer : Layer) (palette : Palette), layer.WellShaped → layer.kind.isIndexed = false →
        ∃ next,
          (((color hasAlpha cells).run (merges (calls ++ more))).mergeDown layer palette).colorAt?
            x y = some next ∧
          (layer.props.mode.affectsAlpha = false → next.alpha = later.alpha) ∧
          (layer.props.mode.affectsAlpha = true →
            (∃ id, LayerMode.ofId? id = some layer.props.mode) → layer.LiesOver x y →
            ∃ texel,
              layer.dissolved.tiles.texelAt? (layer.columnAt x) (layer.rowAt y) = some texel ∧
              effectiveAlpha layer.props.opacity
                (layer.maskAt? (layer.columnAt x) (layer.rowAt y)) texel.alpha ≤
                next.alpha.toNat) := by
  have hstart : (color hasAlpha cells).HoldsColors hasAlpha cells.width cells.height :=
    ⟨rfl, rfl, rfl⟩
  obtain ⟨earlier, later, hearlier, hlater, hle⟩ :=
    (hstart.run_merges calls).le_alpha_run (hsound.run (merges calls))
      (fun call hmem => hshaped call (List.mem_append_right _ hmem)) hx hy
  rw [← run_merges_append] at hlater
  refine ⟨earlier, later, hearlier, hlater, hle, ?_⟩
  intro layer palette hlayer hkind
  obtain ⟨below, next, hbelow, hholdable, hnext, hmerged⟩ :=
    (hstart.run_merges (calls ++ more)).exists_merged (hsound.run _) hlayer palette hx hy
  -- The pixel that is merged onto is the one that the run ended with.
  obtain rfl : later = below := Option.some.inj (hlater.symm.trans hbelow)
  refine ⟨next, hnext, hmerged.alpha_eq hholdable hkind, ?_⟩
  intro haffects hmode hover
  exact hmerged.exists_effectiveAlpha_le hholdable hlayer hover hkind hmode haffects

/-- Over a half transparent canvas, a gray layer that is thinned out and one that is hidden by its
mask are followed by an opaque one. -/
theorem alpha_run_coveringLayer :
    ((filledColor 2 1 true ⟨⟨1, 2, 3⟩, 100⟩).Sound ∧ overhangingLayer.WellShaped ∧
      hiddenGrayLayer.WellShaped ∧ coveringLayer.WellShaped ∧
      coveringLayer.kind.isIndexed = false ∧ coveringLayer.props.mode.affectsAlpha = true ∧
      LayerMode.ofId? 1 = some coveringLayer.props.mode ∧ coveringLayer.LiesOver 0 0) ∧
      ∃ earlier later next,
        ((filledColor 2 1 true ⟨⟨1, 2, 3⟩, 100⟩).run
          (merges [(overhangingLayer, #[])])).colorAt? 0 0 = some earlier ∧
        ((filledColor 2 1 true ⟨⟨1, 2, 3⟩, 100⟩).run
          (merges [(overhangingLayer, #[]), (hiddenGrayLayer, #[])])).colorAt? 0 0 = some later ∧
        (((filledColor 2 1 true ⟨⟨1, 2, 3⟩, 100⟩).run
          (merges [(overhangingLayer, #[]), (hiddenGrayLayer, #[])])).mergeDown
            coveringLayer #[]).colorAt? 0 0 = some next ∧
        earlier.alpha ≤ later.alpha ∧ ∃ texel : Texel,
          coveringLayer.dissolved.tiles.texelAt? 1 0 = some texel ∧
            effectiveAlpha 255 none texel.alpha ≤ next.alpha.toNat := by
  have hsound : (filledColor 2 1 true ⟨⟨1, 2, 3⟩, 100⟩).Sound := sound_filledColor 2 1 true _
  have hfirst : overhangingLayer.WellShaped := by decide
  have hsecond : hiddenGrayLayer.WellShaped := by decide
  have hnext : coveringLayer.WellShaped := by decide
  have hover : coveringLayer.LiesOver 0 0 := by decide
  have hshaped : ∀ call ∈ [(overhangingLayer, (#[] : Palette))] ++ [(hiddenGrayLayer, #[])],
      call.1.WellShaped := by
    intro call hmem
    rcases List.mem_cons.mp hmem with rfl | hmem
    · exact hfirst
    · rw [List.mem_singleton.mp hmem]
      exact hsecond
  -- The run is cut behind its first layer.
  obtain ⟨earlier, later, hearlier, hlater, hle, hmerge⟩ :=
    alpha_run hsound hshaped (x := 0) (y := 0) Nat.two_pos Nat.one_pos
  obtain ⟨next, hshown, -, halpha⟩ := hmerge coveringLayer #[] hnext rfl
  exact ⟨⟨hsound, hfirst, hsecond, hnext, rfl, rfl, rfl, hover⟩, earlier, later, next, hearlier,
    hlater, hshown, hle, halpha rfl ⟨1, rfl⟩ hover⟩

end Canvas

end XcfFlatten
