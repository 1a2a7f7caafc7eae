import XcfFlatten.Canvas.Checked
import XcfFlatten.Proofs.Canvas.BaseMask

/-!
# Compositing without faults

For a well-shaped layer the checks of `Canvas.Checked` all succeed, on every canvas and with every
palette, so that the checked operations do exactly what the others do
(`Layer.WellShaped.checked_paintBase`, `Layer.WellShaped.checked_mergeDown`):

* no rule ever divides by zero, and no source is mixed in at more alpha than its result has, whatever
  the sample and the pixel below are (`Checked.mergedIndex_eq`, `Checked.mergedPixel_eq`);
* a tile of a well-shaped layer has a pixel at every place that the walk over it visits, and so has
  the mask's tile (`Layer.WellShaped.checked_sampleOf`);
* the walk never leaves the canvas (`Layer.WellShaped.checked_paint`).
-/

namespace XcfFlatten

namespace Checked

/-! ### Checks that succeed -/

theorem require_of {condition : Prop} [Decidable condition] (h : condition) (fault : Fault) :
    require fault condition = .ok () := if_pos h

/-- A division by a number that is not zero goes through. -/
theorem quotient_eq {b : Nat} (h : b ≠ 0) (a : Nat) : quotient a b = .ok (a / b) := by
  rw [quotient, require_of h]
  rfl

theorem remainder_eq {b : Nat} (h : b ≠ 0) (a : Nat) : remainder a b = .ok (a % b) := by
  rw [remainder, require_of h]
  rfl

/-- If every step of a checked walk succeeds from states with a property that it keeps, then the
whole walk succeeds, and it keeps the property. -/
theorem foldlM_eq {σ β : Type} {step : σ → β → Except Fault σ} {next : σ → β → σ} (I : σ → Prop)
    {list : List β} (hstep : ∀ s, I s → ∀ b ∈ list, step s b = .ok (next s b))
    (hnext : ∀ s b, I s → I (next s b)) {s : σ} (hs : I s) :
    list.foldlM step s = .ok (list.foldl next s) ∧ I (list.foldl next s) := by
  induction list generalizing s with
  | nil => exact ⟨rfl, hs⟩
  | cons b list ih =>
    rw [List.foldlM_cons, hstep s hs b List.mem_cons_self]
    exact ih (fun s hs b hb => hstep s hs b (List.mem_cons_of_mem _ hb)) (hnext s b hs)

/-- If every element can be mapped, then the whole list can be. -/
theorem mapM_eq {α β : Type} {f : α → Except Fault β} {g : α → β} {list : List α}
    (h : ∀ a ∈ list, f a = .ok (g a)) : list.mapM f = .ok (list.map g) := by
  induction list with
  | nil => rfl
  | cons a list ih =>
    rw [List.mapM_cons, h a List.mem_cons_self,
      ih fun b hb => h b (List.mem_cons_of_mem _ hb)]
    rfl

theorem forM_eq {α : Type} {f : α → Except Fault PUnit} {list : List α}
    (h : ∀ a ∈ list, f a = .ok ()) : list.forM f = .ok () := by
  induction list with
  | nil => rfl
  | cons a list ih =>
    change (f a >>= fun _ => list.forM f) = _
    rw [h a List.mem_cons_self]
    exact ih fun b hb => h b (List.mem_cons_of_mem _ hb)

/-! ### Blending -/

/-- Blending a channel divides by zero in no mode. -/
theorem blendChannel_eq (mode : BlendMode) (source below : UInt8) :
    blendChannel mode source below = .ok (mode.blendChannel source below) := by
  have hsource := source.toNat_lt
  cases mode
  case divide | dodge | burn =>
    dsimp only [blendChannel, channel?]
    rw [quotient_eq (by omega)]
    rfl
  all_goals rfl

/-- Among the channels of a colour, the largest is not below the smallest. -/
theorem bottom_le_top (c : Rgb) : c.bottom ≤ c.top := by
  have hbottom : c.bottom ≤ c.red := Std.min_le_left
  have htop : c.red ≤ c.top := by
    change c.red ≤ if c.red ≤ max c.green c.blue then max c.green c.blue else c.red
    split
    · next hle => exact hle
    · exact UInt8.le_refl _
  exact UInt8.le_trans hbottom htop

/-- A colour that is not gray has a spread of channels. -/
theorem toNat_bottom_lt_top {c : Rgb} (h : c.top ≠ c.bottom) : c.bottom.toNat < c.top.toNat := by
  have hle : c.bottom.toNat ≤ c.top.toNat := UInt8.le_iff_toNat_le.mp (bottom_le_top c)
  have hne : c.top.toNat ≠ c.bottom.toNat := fun heq => h (UInt8.toNat_inj.mp heq)
  omega

/-- The hue is divided by the chroma only where this is not zero. -/
theorem hsvOfRgb_eq (c : Rgb) : hsvOfRgb c = .ok (Hsv.ofRgb c) := by
  unfold hsvOfRgb
  by_cases h : c.top = c.bottom
  · rw [if_neg (fun hne => hne h)]
    rfl
  · have hspread := toNat_bottom_lt_top h
    rw [if_pos h, require_of (by omega), require_of (by omega)]
    rfl

/-- So it is with the saturation of a lightness. -/
theorem hlsOfRgb_eq (c : Rgb) : hlsOfRgb c = .ok (Hls.ofRgb c) := by
  unfold hlsOfRgb
  by_cases h : c.top = c.bottom
  · rw [if_neg (fun hne => hne h)]
    rfl
  · have hspread := toNat_bottom_lt_top h
    have htop := c.top.toNat_lt
    rw [if_pos h, require_of (by omega), require_of (by omega), require_of (by omega)]
    rfl

/-- Blending colours meets no fault in any mode. -/
theorem blendColor_eq (mode : BlendMode) (source below : Rgb) :
    blendColor mode source below = .ok (mode.blendColor source below) := by
  cases mode
  case hue | saturation | value =>
    unfold blendColor
    dsimp only
    rw [hsvOfRgb_eq, hsvOfRgb_eq]
    rfl
  case color =>
    unfold blendColor
    dsimp only
    rw [hlsOfRgb_eq, hlsOfRgb_eq]
    rfl
  -- Every other mode blends channel by channel.
  all_goals
    unfold blendColor
    dsimp only
    rw [blendChannel_eq, blendChannel_eq, blendChannel_eq]
    rfl

/-- Mixing meets no fault as long as the part is not larger than the whole. -/
theorem mix_eq {alpha total : UInt8} (h : alpha ≤ total) (source below : UInt8) :
    mix source below alpha total = .ok (XcfFlatten.mix source below alpha total) := by
  unfold mix XcfFlatten.mix
  by_cases hzero : total = 0
  · rw [if_pos hzero, if_pos hzero]
    rfl
  · have hdivisor : total.toNat ≠ 0 := fun heq => hzero (UInt8.toNat_inj.mp heq)
    rw [if_neg hzero, if_neg hzero, require_of h, quotient_eq hdivisor]
    rfl

/-- Laying a colour over a pixel meets no fault: the alpha of the result is no less than that of the
source. -/
theorem overPixel_eq (source : Rgb) (alpha : UInt8) (below : Pixel) (affectsAlpha : Bool) :
    overPixel source alpha below affectsAlpha =
      .ok (XcfFlatten.overPixel source alpha below affectsAlpha) := by
  have hfits := le_overAlpha alpha below.alpha
  unfold overPixel
  dsimp only
  rw [mix_eq hfits, mix_eq hfits, mix_eq hfits]
  rfl

/-! ### Rules -/

/-- Merging an index meets no fault. -/
theorem mergedIndex_eq (layer : Layer) (entries : Array Pixel) (sample : Sample) (below : UInt8) :
    mergedIndex layer entries sample below = .ok (layer.mergedIndex entries sample below) := by
  unfold mergedIndex
  dsimp only
  by_cases hkind : layer.kind.isIndexed = true
  · rw [if_pos hkind]
    rfl
  · have hne : ¬ layer.kind = .indexed := fun heq => hkind (heq ▸ rfl)
    -- A level is mixed into a whole of 255, which no alpha is larger than.
    have hfull : ∀ alpha : UInt8, alpha ≤ 255 := fun alpha =>
      UInt8.le_iff_toNat_le.mpr (Nat.le_of_lt_succ alpha.toNat_lt)
    rw [if_neg hkind, blendChannel_eq]
    unfold Layer.mergedIndex
    dsimp only
    rw [if_neg hne, if_neg hkind]
    split
    · rfl
    · change (do pure (Canvas.writeIndex entries (← mix _ below _ 255) below)) = _
      rw [mix_eq (hfull _)]
      rfl

/-- Merging a gray level meets no fault. -/
theorem mergedGray_eq (layer : Layer) (sample : Sample) (below : Pixel) :
    mergedGray layer sample below = .ok (layer.mergedGray sample below) := by
  unfold mergedGray
  dsimp only
  rw [blendChannel_eq]
  dsimp only [bind, Except.bind]
  rw [mix_eq (le_overAlpha _ _)]
  rfl

/-- Merging a colour meets no fault. -/
theorem mergedColor_eq (layer : Layer) (palette : Palette) (sample : Sample) (below : Pixel) :
    mergedColor layer palette sample below = .ok (layer.mergedColor palette sample below) := by
  unfold mergedColor
  dsimp only
  rw [blendColor_eq]
  exact overPixel_eq _ _ _ _

/-- **Rules for pixels.** No sample makes them fail over any pixel. -/
theorem mergedPixel_eq (layer : Layer) (palette : Palette) (hasAlpha : Bool) (sample : Sample)
    (below : Pixel) :
    mergedPixel layer palette hasAlpha sample below =
      .ok (layer.mergedPixel palette hasAlpha sample below) := by
  unfold mergedPixel
  rw [mergedGray_eq, mergedColor_eq]
  by_cases hkind : layer.kind.isIndexed = true
  · rw [if_pos hkind]
    rfl
  · unfold Layer.mergedPixel
    rw [if_neg hkind, if_neg hkind]
    -- Both sides branch alike from here on.
    split
    · rfl
    · split
      · rfl
      · rfl

end Checked

/-! ### Dissolving -/

namespace Dissolve

/-- Shuffling keeps the number of seeds. -/
theorem size_foldl_shuffleStep (steps : List Nat) (table : Array UInt32 × UInt32) :
    (steps.foldl shuffleStep table).1.size = table.1.size := by
  induction steps generalizing table with
  | nil => rfl
  | cons i steps ih =>
    rw [List.foldl_cons, ih]
    exact Array.size_swapIfInBounds

/-- A table of `n` seeds made from a state. -/
def shuffledSeeds (n : Nat) (start : UInt32) : Array UInt32 :=
  ((List.range n).foldl shuffleStep ((outputs n start).toArray, skip n start)).1

/-- Shuffling keeps the number of seeds. -/
theorem size_shuffledSeeds (n : Nat) (start : UInt32) : (shuffledSeeds n start).size = n := by
  rw [shuffledSeeds, size_foldl_shuffleStep, List.size_toArray, length_outputs]

/-- The table is as long as it is meant to be. The number of seeds is generalized first, so that
nothing has to be shuffled to see it. -/
theorem size_rowSeeds : rowSeeds.size = seedCount := by
  have htable : rowSeeds = shuffledSeeds seedCount 314159265 := rfl
  rw [htable, size_shuffledSeeds]

end Dissolve

namespace Checked

theorem found_of {α : Type} {o : Option α} {a : α} (h : o = some a) (fault : Fault) :
    found fault o = .ok a := by
  rw [h]
  rfl

/-- A tile of some width is dissolved. -/
theorem dissolveTile_eq {tile : Tile} (h : tile.width ≠ 0) (x y : Nat) :
    dissolveTile tile x y = .ok (tile.dissolve x y) := by
  -- Rows past the last seed begin again with the first.
  have hseed : ∀ l ∈ List.range tile.height, (do
      let _ ← found .seed Dissolve.rowSeeds[(y + l) % Dissolve.seedCount]?) = Except.ok () := by
    intro l _
    have hlt : (y + l) % Dissolve.seedCount < Dissolve.rowSeeds.size := by
      rw [Dissolve.size_rowSeeds]
      exact Nat.mod_lt _ (by decide)
    rw [found_of (Array.getElem?_eq_getElem hlt)]
    rfl
  obtain ⟨width, height, pixels⟩ := tile
  cases pixels with
  | level levels => rfl
  | color pixels | levelAlpha levels alphas =>
    dsimp only [dissolveTile]
    rw [require_of h, forM_eq hseed]
    rfl

/-- The number of something in a grid gives its row and its column. -/
theorem placed_eq {α : Type} {grid : TileGrid α} (hsize : grid.tiles.size = grid.rows * grid.columns)
    {a : α} {i : Nat} (hmem : (a, i) ∈ grid.tiles.toList.zipIdx) :
    placed grid a i = .ok ⟨i / grid.columns, i % grid.columns, a⟩ := by
  obtain ⟨-, hcolumn⟩ := TileGrid.lt_of_get? (TileGrid.get?_of_mem_zipIdx hsize hmem)
  have hcolumns : grid.columns ≠ 0 := fun h => absurd hcolumn (by rw [h]; exact Nat.not_lt_zero _)
  rw [placed, quotient_eq hcolumns, remainder_eq hcolumns]
  rfl

end Checked

/-- A tile inside a covered raster is not empty, nor larger than a full one. -/
theorem TileGrid.Covers.tile_extents {grid : TileGrid Tile} {width height : Nat} {kind : LayerKind}
    (h : grid.Covers width height kind) {row column : Nat} {tile : Tile}
    (htile : grid.get? row column = some tile) :
    (0 < tile.width ∧ tile.width ≤ Tile.side) ∧ 0 < tile.height ∧ tile.height ≤ Tile.side := by
  obtain ⟨hrow, hcolumn⟩ := TileGrid.lt_of_get? htile
  rw [h.rows_eq, Tile.lt_count_iff] at hrow
  rw [h.columns_eq, Tile.lt_count_iff] at hcolumn
  rw [h.tile_width htile, h.tile_height htile]
  unfold Tile.extent Tile.side at *
  omega

namespace Layer

variable {layer : Layer}

/-- A well-shaped layer is thinned out where that is due. -/
theorem WellShaped.checked_dissolved (h : layer.WellShaped) :
    Checked.dissolved layer = .ok layer.dissolved := by
  have htile : ∀ p ∈ layer.tiles.tiles.toList.zipIdx, (do
      let tile ← Checked.placed layer.tiles p.1 p.2
      Checked.dissolveTile tile.value (tile.column * Tile.side) (tile.row * Tile.side)) =
      Except.ok (p.1.dissolve (p.2 % layer.tiles.columns * Tile.side)
        (p.2 / layer.tiles.columns * Tile.side)) := by
    rintro ⟨tile, i⟩ hmem
    have hget := TileGrid.get?_of_mem_zipIdx h.covers.size_eq hmem
    have hwidth := (h.covers.tile_extents hget).1.1
    rw [Checked.placed_eq h.covers.size_eq hmem]
    exact Checked.dissolveTile_eq (Nat.ne_of_gt hwidth) _ _
  -- Going through the tiles one by one makes the grid that the map over their places makes.
  have hmap : (layer.tiles.tiles.toList.zipIdx.map fun p =>
      p.1.dissolve (p.2 % layer.tiles.columns * Tile.side)
        (p.2 / layer.tiles.columns * Tile.side)).toArray =
      (layer.tiles.mapPlaced fun row column tile =>
        tile.dissolve (column * Tile.side) (row * Tile.side)).tiles := by
    apply Array.toList_inj.mp
    rw [TileGrid.mapPlaced, Array.toList_mapIdx, List.mapIdx_eq_zipIdx_map]
  unfold Checked.dissolved Layer.dissolved
  split
  · rw [Checked.mapM_eq htile]
    change Except.ok { layer with tiles := { layer.tiles with tiles := _ } } = _
    rw [hmap]
    rfl
  · rfl

/-! ### Walking over a layer -/

/-- **Places in a tile.** Every place that a walk over a tile visits has a pixel, and a value in the
mask's tile. -/
theorem WellShaped.checked_sampleOf (h : layer.WellShaped) {row column : Nat} {tile : Tile}
    (htile : layer.tiles.get? row column = some tile) {i : Nat} (hi : i < tile.width * tile.height) :
    ∃ sample, layer.sampleOf? ⟨row, column, tile⟩ i = some sample ∧
      Checked.sampleOf layer ⟨row, column, tile⟩ i = .ok sample := by
  obtain ⟨texel, htexel⟩ := Tile.exists_texel? (h.covers.complete htile) hi
  refine ⟨⟨texel, layer.maskValue? row column i⟩, by rw [sampleOf?, htexel, Option.map_some], ?_⟩
  unfold Checked.sampleOf maskValue?
  dsimp only
  rw [Checked.found_of htexel]
  dsimp only [bind, Except.bind]
  cases hmask : layer.maskTile? row column with
  | none => rfl
  | some cut =>
    -- The mask's tile is as large as the layer's.
    have hcut : ∃ mask, layer.mask = some mask ∧ mask.tiles.get? row column = some cut := by
      unfold maskTile? at hmask
      split at hmask
      · exact Option.bind_eq_some_iff.mp hmask
      · cases hmask
    obtain ⟨mask, hmask, hget⟩ := hcut
    have hcovers := h.mask_covers mask hmask
    have hsize : cut.width * cut.height = tile.width * tile.height := by
      rw [hcovers.tile_width hget, hcovers.tile_height hget, h.covers.tile_width htile,
        h.covers.tile_height htile]
    obtain ⟨value, hvalue⟩ := Tile.exists_texel? (hcovers.complete hget) (hsize ▸ hi)
    dsimp only
    rw [Checked.found_of hvalue, Option.bind_some, hvalue]
    rfl

/-- Where pixel `k` in row `l` of a tile falls on the canvas, if it does. -/
def pixelPlacement? (layer : Layer) (width height : Nat) (tile : Placed Tile) (l k : Nat) :
    Option Placement :=
  let x : Int := (layer.tileOrigin tile.row tile.column).1 + k
  let y : Int := (layer.tileOrigin tile.row tile.column).2 + l
  if (0 ≤ y ∧ y < height) ∧ 0 ≤ x ∧ x < width then
    (layer.sampleOf? tile (l * tile.value.width + k)).map fun sample => ⟨x.toNat, y.toNat, sample⟩
  else none

theorem placements_eq_pixelPlacements (layer : Layer) (width height : Nat) (tile : Placed Tile) :
    layer.placements width height tile =
      (List.range tile.value.height).flatMap fun l =>
        (List.range tile.value.width).filterMap (layer.pixelPlacement? width height tile l) := by
  rw [placements_eq]
  congr 1
  funext l
  dsimp only
  split
  · next hy =>
    rw [rowPlacements]
    congr 1
    funext k
    unfold pixelPlacement?
    simp only [hy, and_self, true_and]
  · next hy =>
    -- A row outside the canvas has no pixel in it.
    symm
    rw [List.filterMap_eq_nil_iff]
    intro k _
    exact if_neg fun hin => hy hin.1

end Layer

namespace Raster

variable {α : Type}

/-- Modifying a cell is the same as writing to it what the function makes of it. -/
theorem modify_const {r : Raster α} {x y : Nat} {a : α} (ha : r.get? x y = some a) (f : α → α) :
    (r.modify x y fun _ => f a) = r.modify x y f := by
  unfold modify
  congr 1
  apply Array.ext_getElem?
  intro i
  rw [Array.getElem?_modify, Array.getElem?_modify]
  split
  · next hi =>
    subst hi
    -- Only the cell that was read is changed, so that the rule sees what is stored there.
    have hcell : r.cells[r.offset x y]? = some a := ha
    rw [hcell]
    rfl
  · rfl

end Raster

namespace Layer.WellShaped

variable {layer : Layer} (h : layer.WellShaped) {α : Type} {rule : Sample → α → α}
  {checkedRule : Sample → α → Except Fault α}
  (hrule : ∀ sample a, checkedRule sample a = .ok (rule sample a)) {width height : Nat}
include h hrule

/-- Painting one pixel changes the cell it falls on, if it falls on the canvas. -/
theorem checked_paintPixel {row column : Nat} {tile : Tile}
    (htile : layer.tiles.get? row column = some tile) {l k : Nat} (hl : l < tile.height)
    (hk : k < tile.width) {cells : Raster α} (hwidth : cells.width = width)
    (hheight : cells.height = height) :
    Checked.paintPixel layer checkedRule width height ⟨row, column, tile⟩ l k cells =
      .ok ((layer.pixelPlacement? width height ⟨row, column, tile⟩ l k).elim cells fun p =>
        cells.modify p.x p.y (rule p.sample)) := by
  obtain ⟨sample, hsample, hchecked⟩ := h.checked_sampleOf htile (Tile.place_lt hk hl)
  unfold Checked.paintPixel pixelPlacement?
  dsimp only
  split
  · next hin =>
    -- Within the canvas there is a cell to paint on.
    obtain ⟨below, hbelow⟩ := cells.exists_get?
      (x := ((layer.tileOrigin row column).1 + (k : Int)).toNat)
      (y := ((layer.tileOrigin row column).2 + (l : Int)).toNat) (by omega) (by omega)
    rw [hchecked, hsample, Option.map_some]
    dsimp only [bind, Except.bind]
    rw [Checked.found_of hbelow]
    dsimp only
    rw [hrule]
    exact congrArg Except.ok (Raster.modify_const hbelow (rule sample))
  · rfl

/-- Painting a tile applies the rule to the placements of the tile. -/
theorem checked_paintTile {row column : Nat} {tile : Tile}
    (htile : layer.tiles.get? row column = some tile) {cells : Raster α}
    (hsize : cells.width = width ∧ cells.height = height) :
    Checked.paintTile layer checkedRule width height ⟨row, column, tile⟩ cells =
      .ok (cells.modifyAll rule (layer.placements width height ⟨row, column, tile⟩)) := by
  -- The size of the raster never changes; both loops rely on it.
  have hrow : ∀ l ∈ List.range tile.height, ∀ cells : Raster α,
      cells.width = width ∧ cells.height = height →
      (List.range tile.width).foldlM
        (fun cells k =>
          Checked.paintPixel layer checkedRule width height ⟨row, column, tile⟩ l k cells) cells =
        .ok (cells.modifyAll rule ((List.range tile.width).filterMap
          (layer.pixelPlacement? width height ⟨row, column, tile⟩ l))) := by
    intro l hl cells hcells
    have hloop := Checked.foldlM_eq
      (fun cells : Raster α => cells.width = width ∧ cells.height = height)
      (fun cells hcells k hk => h.checked_paintPixel hrule htile (List.mem_range.mp hl)
        (List.mem_range.mp hk) hcells.1 hcells.2)
      (fun cells k hcells => by
        cases layer.pixelPlacement? width height ⟨row, column, tile⟩ l k <;> exact hcells)
      hcells
    rw [hloop.1, Raster.modifyAll, List.foldl_filterMap]
    congr 2
    funext cells k
    cases layer.pixelPlacement? width height ⟨row, column, tile⟩ l k <;> rfl
  have hloop := Checked.foldlM_eq
    (fun cells : Raster α => cells.width = width ∧ cells.height = height)
    (fun cells hcells l hl => hrow l hl cells hcells)
    (fun cells l hcells => by rw [Raster.modifyAll_width, Raster.modifyAll_height]; exact hcells)
    hsize
  rw [Checked.paintTile, hloop.1, placements_eq_pixelPlacements, Raster.modifyAll, List.foldl_flatMap]
  rfl

/-- **The whole walk.** A checked rule that succeeds everywhere is applied to every cell that the
layer covers, and no access on the way fails. -/
theorem checked_paint (cells : Raster α) :
    Checked.paint layer checkedRule cells = .ok (cells.paint layer rule) := by
  -- The walk over the tiles keeps the size of the raster.
  let size : Raster α → Prop := fun after => after.width = cells.width ∧ after.height = cells.height
  have htile : ∀ after, size after → ∀ p ∈ layer.tiles.tiles.toList.zipIdx, (do
      Checked.paintTile layer checkedRule cells.width cells.height
        (← Checked.placed layer.tiles p.1 p.2) after) =
      Except.ok (after.modifyAll rule (layer.placements cells.width cells.height
        ⟨p.2 / layer.tiles.columns, p.2 % layer.tiles.columns, p.1⟩)) := by
    rintro after hafter ⟨tile, i⟩ hmem
    rw [Checked.placed_eq h.covers.size_eq hmem]
    exact h.checked_paintTile hrule (TileGrid.get?_of_mem_zipIdx h.covers.size_eq hmem) hafter
  have hloop := Checked.foldlM_eq size htile
    (fun after p hafter => by
      unfold size
      rw [Raster.modifyAll_width, Raster.modifyAll_height]
      exact hafter) (s := cells) ⟨rfl, rfl⟩
  rw [Raster.paint, TileGrid.toList, List.foldl_map]
  exact hloop.1

end Layer.WellShaped

namespace Layer.WellShaped

variable {layer : Layer} (h : layer.WellShaped) (canvas : Canvas) (palette : Palette)
include h

/-- **The lowest layer.** -/
theorem checked_paintBase :
    Checked.paintBase canvas layer palette = .ok (canvas.paintBase layer palette) := by
  unfold Checked.paintBase
  rw [h.checked_dissolved]
  dsimp only [bind, Except.bind]
  cases canvas with
  | indexed format entries cells =>
    -- The base rules check nothing.
    have hrule : ∀ sample below,
        (pure (layer.dissolved.baseIndex entries sample below) : Except Fault UInt8) =
          .ok (layer.dissolved.baseIndex entries sample below) := fun _ _ => rfl
    dsimp only
    rw [h.dissolved.checked_paint hrule]
    rfl
  | color hasAlpha cells =>
    have hrule : ∀ sample below,
        (pure (layer.dissolved.basePixel palette hasAlpha sample below) : Except Fault Pixel) =
          .ok (layer.dissolved.basePixel palette hasAlpha sample below) := fun _ _ => rfl
    dsimp only
    rw [h.dissolved.checked_paint hrule]
    rfl

/-- **A further layer.** -/
theorem checked_mergeDown :
    Checked.mergeDown canvas layer palette = .ok (canvas.mergeDown layer palette) := by
  unfold Checked.mergeDown Canvas.mergeDown
  split
  · rfl
  · rw [h.checked_dissolved]
    dsimp only [bind, Except.bind]
    cases canvas with
    | indexed format entries cells =>
      dsimp only
      -- The merging rules meet no fault, so the painting goes through.
      rw [h.dissolved.checked_paint (Checked.mergedIndex_eq layer.dissolved entries)]
      rfl
    | color hasAlpha cells =>
      dsimp only
      rw [h.dissolved.checked_paint (Checked.mergedPixel_eq layer.dissolved palette hasAlpha)]
      rfl

end Layer.WellShaped

end XcfFlatten
