import XcfFlatten.Proofs.Canvas.AlphaGrowth

/-!
# Mixing stays in range

Modes that pass colours through lay a layer over what is below and mix the two. However often that
is done, and with whatever opacities and masks, each channel of a pixel stays among the values that
went into it (`Canvas.mix_range_run`): that of the pixel to begin with, and those of the layers'
pixels that were placed on it.

* `Layer.PassesColors.mergedPixel_between` — one sample over one pixel, on either canvas of colours;
* `Canvas.HoldsColors.exists_within` — one layer: the dissolve step takes away alphas, and no
  colours;
* `Within.trans` — values between values that are in range are in range, which is what the run
  needs.
-/

namespace XcfFlatten

/-! ### Ranges -/

/-- A value lies between the smallest and the largest of the given ones. -/
def Within (values : List UInt8) (v : UInt8) : Prop :=
  (∃ low ∈ values, low ≤ v) ∧ ∃ high ∈ values, v ≤ high

namespace Within

variable {values others : List UInt8} {a b v : UInt8}

theorem of_mem (h : v ∈ values) : Within values v :=
  ⟨⟨v, h, UInt8.le_refl v⟩, ⟨v, h, UInt8.le_refl v⟩⟩

/-- A value between two others is within the range of all that contain these. -/
theorem of_between (ha : a ∈ values) (hb : b ∈ values) (h : Between a b v) : Within values v := by
  rcases h with ⟨hlow, hhigh⟩ | ⟨hlow, hhigh⟩
  · exact ⟨⟨a, ha, hlow⟩, ⟨b, hb, hhigh⟩⟩
  · exact ⟨⟨b, hb, hlow⟩, ⟨a, ha, hhigh⟩⟩

/-- A value is in range of others if all those are that it is in range of. -/
theorem trans (h : Within others v) (hothers : ∀ other ∈ others, Within values other) :
    Within values v := by
  obtain ⟨⟨low, hlow, hlowle⟩, ⟨high, hhigh, hlehigh⟩⟩ := h
  obtain ⟨⟨lowest, hlowest, hlowestle⟩, -⟩ := hothers low hlow
  obtain ⟨-, highest, hhighest, hlehighest⟩ := hothers high hhigh
  exact ⟨⟨lowest, hlowest, UInt8.le_trans hlowestle hlowle⟩,
    ⟨highest, hhighest, UInt8.le_trans hlehigh hlehighest⟩⟩

end Within

/-! ### One layer -/

/-- Whether or not a canvas stores alpha, it stores colours as they are. -/
theorem Canvas.color_writePixel (hasAlpha : Bool) (pixel : Pixel) :
    (writePixel hasAlpha pixel).color = pixel.color := by
  cases hasAlpha with
  | true => rfl
  | false => rfl

namespace Layer

/-- A layer of colours whose mode passes them through. -/
structure PassesColors (layer : Layer) : Prop where
  shaped : layer.WellShaped
  kind : layer.kind = .rgb ∨ layer.kind = .rgba
  plain : layer.props.mode.blend.isPlain = true

/-- The colour that a layer places on a position of a canvas. -/
def placedColor? (layer : Layer) (x y : Nat) : Option Rgb :=
  if layer.LiesOver x y then
    (layer.tiles.texelAt? (layer.columnAt x) (layer.rowAt y)).map Texel.plainColor
  else none

variable {layer : Layer} {channel : Rgb → UInt8}

theorem PassesColors.not_indexed (h : layer.PassesColors) : layer.kind.isIndexed = false := by
  rcases h.kind with hkind | hkind
  · rw [hkind]
    rfl
  · rw [hkind]
    rfl

theorem PassesColors.not_gray (h : layer.PassesColors) : layer.kind.isGray = false := by
  rcases h.kind with hkind | hkind
  · rw [hkind]
    rfl
  · rw [hkind]
    rfl

/-- **One sample.** Each channel ends up between that of the sample and that of the pixel below. -/
theorem PassesColors.mergedPixel_between (h : layer.PassesColors) (palette : Palette)
    (hasAlpha : Bool) (sample : Sample) (below : Pixel) (hchannel : channel ∈ Rgb.channels) :
    Between (channel sample.texel.plainColor) (channel below.color)
      (channel (layer.mergedPixel palette hasAlpha sample below).color) := by
  unfold mergedPixel
  rw [h.not_indexed, h.not_gray, if_neg Bool.false_ne_true, if_neg Bool.false_ne_true]
  split
  · -- A pixel without alpha leaves what is below.
    exact between_right _ _
  · unfold mergedColor
    dsimp only
    rw [Canvas.color_writePixel, BlendMode.blendColor_of_isPlain h.plain,
      colorOf_of_not_isIndexed h.not_indexed]
    exact overPixel_between _ _ below _ hchannel

/-- Thinning out keeps colours. -/
theorem WellShaped.plainColor_dissolved (h : layer.WellShaped) {x y : Nat} (hx : x < layer.width)
    (hy : y < layer.height) {stored texel : Texel}
    (hstored : layer.tiles.texelAt? x y = some stored)
    (htexel : layer.dissolved.tiles.texelAt? x y = some texel) :
    texel.plainColor = stored.plainColor := by
  rcases h.texel_dissolved hx hy hstored htexel with rfl | ⟨random, rfl⟩
  · rfl
  · cases stored <;> rfl

end Layer

/-! ### Layers one after another -/

namespace Canvas

variable {canvas : Canvas} {layer : Layer} {hasAlpha : Bool} {width height x y : Nat}

/-- **One layer.** Each channel stays in range of the pixel below and the colour that is placed on
it, if there is one. -/
theorem HoldsColors.exists_within (hcanvas : canvas.HoldsColors hasAlpha width height)
    (h : layer.PassesColors) (palette : Palette) (hx : x < width) (hy : y < height) :
    ∃ below above, canvas.colorAt? x y = some below ∧
      (canvas.mergeDown layer palette).colorAt? x y = some above ∧
        ∀ channel ∈ Rgb.channels,
          Within ((below.color :: (layer.placedColor? x y).toList).map channel)
            (channel above.color) := by
  obtain ⟨below, above, hbelow, habove, hmerged⟩ :=
    hcanvas.exists_merged_shown h.shaped palette hx hy
  refine ⟨below, above, hbelow, habove, fun channel hchannel => ?_⟩
  cases hmerged with
  | passed _ => exact .of_mem (List.mem_map_of_mem List.mem_cons_self)
  | @landed texel hover htexel =>
    obtain ⟨stored, hstored⟩ := h.shaped.covers.exists_texel hover.columnAt_lt hover.rowAt_lt
    -- Thinning out changes the alpha of the pixel and leaves its colour.
    have hplaced : layer.placedColor? x y = some texel.plainColor := by
      rw [Layer.placedColor?, if_pos hover, hstored, h.shaped.plainColor_dissolved
        hover.columnAt_lt hover.rowAt_lt hstored htexel]
      rfl
    rw [hplaced]
    refine .of_between ?_ ?_ (h.mergedPixel_between palette hasAlpha
      ⟨texel, layer.maskAt? (layer.columnAt x) (layer.rowAt y)⟩ below hchannel)
    · exact List.mem_map_of_mem (List.mem_cons_of_mem _ List.mem_cons_self)
    · exact List.mem_map_of_mem List.mem_cons_self

/-- The colours that layers place on a position. -/
def placedColors (calls : List (Layer × Palette)) (x y : Nat) : List Rgb :=
  calls.flatMap fun call => (call.1.placedColor? x y).toList

/-- **Many layers.** What has come in range with one of them stays there. -/
theorem HoldsColors.exists_within_run (hcanvas : canvas.HoldsColors hasAlpha width height)
    {calls : List (Layer × Palette)} (hcalls : ∀ call ∈ calls, call.1.PassesColors)
    (hx : x < width) (hy : y < height) :
    ∃ first last, canvas.colorAt? x y = some first ∧
      (canvas.run (merges calls)).colorAt? x y = some last ∧
        ∀ channel ∈ Rgb.channels,
          Within ((first.color :: placedColors calls x y).map channel) (channel last.color) := by
  -- By induction on the layers that are still to come.
  induction calls generalizing canvas with
  | nil =>
    obtain ⟨cells, rfl, rfl, rfl⟩ := hcanvas.eq_color
    obtain ⟨pixel, hpixel⟩ := cells.exists_get? hx hy
    exact ⟨pixel, pixel, hpixel, hpixel, fun channel _ =>
      .of_mem (List.mem_map_of_mem List.mem_cons_self)⟩
  | cons call calls ih =>
    obtain ⟨layer, palette⟩ := call
    obtain ⟨first, next, hfirst, hnext, hstep⟩ :=
      hcanvas.exists_within (hcalls _ List.mem_cons_self) palette hx hy
    obtain ⟨middle, last, hmiddle, hlast, hrest⟩ := ih (hcanvas.mergeDown layer palette)
      fun call hmem => hcalls call (List.mem_cons_of_mem _ hmem)
    obtain rfl : next = middle := Option.some.inj (hnext.symm.trans hmiddle)
    refine ⟨first, last, hfirst, ?_, fun channel hchannel => ?_⟩
    · rw [run_merges_cons]
      exact hlast
    refine (hrest channel hchannel).trans fun value hvalue => ?_
    have hplaced : placedColors ((layer, palette) :: calls) x y =
        (layer.placedColor? x y).toList ++ placedColors calls x y := List.flatMap_cons
    rw [hplaced]
    -- The pixel in between is in range of what has been placed, and the other colours are placed.
    obtain ⟨color, hcolor, rfl⟩ := List.mem_map.mp hvalue
    rcases List.mem_cons.mp hcolor with rfl | hcolor
    · refine (hstep channel hchannel).trans fun value hvalue => .of_mem ?_
      rw [← List.cons_append, List.map_append]
      exact List.mem_append_left _ hvalue
    · exact .of_mem (List.mem_map_of_mem (List.mem_cons_of_mem _ (List.mem_append_right _ hcolor)))

/-- **Mixing stays in range.** Merge well-shaped layers of colours in modes that pass colours
through, whether or not they change alphas, with any opacities and masks and placed anywhere, onto a
canvas of colours. At every position, red, green and blue each end up between the smallest and the
largest of the values that they had on the canvas and in the pixels that the layers placed there. -/
theorem mix_range_run (hasAlpha : Bool) (cells : Raster Pixel) {calls : List (Layer × Palette)}
    (hcalls : ∀ call ∈ calls, call.1.PassesColors) (hx : x < cells.width) (hy : y < cells.height) :
    ∃ first last, (color hasAlpha cells).colorAt? x y = some first ∧
      ((color hasAlpha cells).run (merges calls)).colorAt? x y = some last ∧
        ∀ channel ∈ [Rgb.red, Rgb.green, Rgb.blue],
          Within ((first.color :: placedColors calls x y).map channel) (channel last.color) := by
  have hcanvas : (color hasAlpha cells).HoldsColors hasAlpha cells.width cells.height :=
    ⟨rfl, rfl, rfl⟩
  exact hcanvas.exists_within_run hcalls hx hy

/-- A layer in dissolve mode, and then the same in normal mode at half opacity. -/
theorem mix_range_run_coveringLayer :
    (∀ call ∈ [(coveringLayer, (#[] : Palette)), ({ coveringLayer with
        props := { opacity := 128 } }, #[])], call.1.PassesColors) ∧
      ∃ last, ((filledColor 2 1 false Pixel.white).run (merges [(coveringLayer, #[]),
          ({ coveringLayer with props := { opacity := 128 } }, #[])])).colorAt? 0 0 = some last ∧
        Within [255, 4, 1] last.color.red := by
  have hshaped : ∀ call ∈ [(coveringLayer, (#[] : Palette)), ({ coveringLayer with
      props := { opacity := 128 } }, #[])], call.1.PassesColors := by
    refine List.forall_mem_cons.mpr ⟨?_, List.forall_mem_singleton.mpr ?_⟩
    · exact ⟨by decide, Or.inr rfl, rfl⟩
    · exact ⟨by decide, Or.inr rfl, rfl⟩
  obtain ⟨first, last, hfirst, hlast, hrange⟩ := mix_range_run false
    (Raster.filled 2 1 Pixel.white) hshaped (x := 0) (y := 0) Nat.two_pos Nat.one_pos
  -- The run starts from white, so 255 is one of the values.
  obtain rfl : Pixel.white = first := Option.some.inj hfirst
  exact ⟨hshaped, last, hlast, hrange Rgb.red List.mem_cons_self⟩

end Canvas

end XcfFlatten
