import Mathlib.Logic.Function.Iterate
import XcfFlatten.Proofs.Layer.Landing

/-!
# Dissolving by position

A layer is thinned out tile by tile, each row of a tile drawing its own stretch of random bytes. The
stretches of a row fit together, so that what happens to a pixel depends on its position in the
layer alone:

* `Dissolve.getElem?_noiseBlock` — the random bytes of a rectangle are the noise at each of its
  positions;
* `Tile.texel?_dissolve` and `TileGrid.Covers.texelAt?_dissolve` — dissolving a tile, or all tiles
  of a grid, thins out each pixel by the noise at its position;
* `Layer.WellShaped.dissolved` and `Layer.WellShaped.sampleAt?_dissolved` — a dissolved layer has
  the shape it had, and its samples are the old ones thinned out.
-/

namespace XcfFlatten

namespace Dissolve

/-! ### The random sequence of a row -/

theorem skip_eq_iterate : skip = Nat.iterate nextState := by
  -- The equations of `skip` make the kernel compute with its multipliers; its recursion does not.
  delta skip Nat.iterate
  rfl

/-- Skipping outputs twice skips all of them. -/
theorem skip_add (m n : Nat) (state : UInt32) : skip (m + n) state = skip n (skip m state) := by
  rw [skip_eq_iterate, Nat.add_comm, Function.iterate_add_apply]

@[simp] theorem length_outputs (n : Nat) (state : UInt32) : (outputs n state).length = n := by
  induction n generalizing state with
  | zero => rw [outputs, List.length_nil]
  | succ n ih => rw [outputs, List.length_cons, ih]

/-- Output `k` is the one drawn after `k` outputs have been skipped. -/
theorem getElem?_outputs {n k : Nat} (hk : k < n) (state : UInt32) :
    (outputs n state)[k]? = some (draw (skip k state)) := by
  induction n generalizing k state with
  | zero => omega
  | succ n ih =>
    -- The state moves on by one step for every output that is passed over.
    cases k with
    | zero => rw [outputs, List.getElem?_cons_zero, skip_eq_iterate, Function.iterate_zero_apply]
    | succ k =>
      rw [outputs, List.getElem?_cons_succ, ih (by omega), skip_eq_iterate,
        Function.iterate_succ_apply]

/-- Lines of one length fill a rectangle. -/
theorem length_flatMap_lines {α : Type} (f : Nat → List α) {width : Nat}
    (hlength : ∀ i, (f i).length = width) (height : Nat) :
    ((List.range height).flatMap f).length = width * height := by
  induction height with
  | zero => rfl
  | succ n ih =>
    rw [List.range_succ, List.flatMap_append, List.length_append, ih, List.flatMap_cons,
      List.flatMap_nil, List.append_nil, hlength, Nat.mul_succ]

/-- Entry `k` of line `l`, where lines of the same length follow one another. -/
theorem getElem?_flatMap_lines {α : Type} (f : Nat → List α) {width height k l : Nat}
    (hlength : ∀ i, (f i).length = width) (hk : k < width) (hl : l < height) :
    ((List.range height).flatMap f)[l * width + k]? = (f l)[k]? := by
  induction height with
  | zero => omega
  | succ n ih =>
    have hlines := length_flatMap_lines f hlength n
    rw [List.range_succ, List.flatMap_append, List.flatMap_cons, List.flatMap_nil, List.append_nil]
    -- Line `l` is one of the first `n`, or it is the line just added.
    rcases Nat.lt_or_ge l n with hlt | hge
    · have hinside : l * width + k < ((List.range n).flatMap f).length :=
        hlines ▸ Tile.place_lt hk hlt
      rw [List.getElem?_append_left hinside, ih hlt]
    · obtain rfl : l = n := by omega
      rw [Nat.mul_comm] at hlines
      rw [List.getElem?_append_right (by omega), hlines, Nat.add_sub_cancel_left]

theorem size_noiseBlock (x y width height : Nat) :
    (noiseBlock x y width height).size = width * height := by
  unfold noiseBlock
  rw [List.size_toArray, length_flatMap_lines _ (fun i => by rw [List.length_map, length_outputs])]

/-- **Noise by position.** The random bytes of a rectangle are the noise at each of its positions,
whatever rectangle of the layer it is. -/
theorem getElem?_noiseBlock {x y width height k l : Nat} (hk : k < width) (hl : l < height) :
    (noiseBlock x y width height)[l * width + k]? = some (noise (x + k) (y + l)) := by
  unfold noiseBlock
  rw [List.getElem?_toArray,
    getElem?_flatMap_lines _ (fun i => by rw [List.length_map, length_outputs]) hk hl,
    List.getElem?_map, getElem?_outputs hk, Option.map_some]
  unfold noise
  rw [skip_add]

end Dissolve

/-! ### Thinning out pixels -/

/-- A pixel after the dissolve step with the given random byte. One without alpha stays as it is. -/
def Texel.thin (random : UInt8) : Texel → Texel
  | color pixel => color { pixel with alpha := Dissolve.keep pixel.alpha random }
  | level v => level v
  | levelAlpha v a => levelAlpha v (Dissolve.keep a random)

/-- **Dissolving a tile.** Each pixel is thinned out by the noise at its position in the layer. -/
theorem Tile.texel?_dissolve (tile : Tile) (x y : Nat) {k l : Nat} (hk : k < tile.width)
    (hl : l < tile.height) :
    (tile.dissolve x y).texel? (l * tile.width + k) =
      (tile.texel? (l * tile.width + k)).map (Texel.thin (Dissolve.noise (x + k) (y + l))) := by
  have hnoise : (Dissolve.noiseBlock x y tile.width tile.height)[l * tile.width + k]? =
      some (Dissolve.noise (x + k) (y + l)) := Dissolve.getElem?_noiseBlock hk hl
  -- Only alphas are zipped with the noise, so that a tile without alpha never sees it.
  obtain ⟨w, h, pixels⟩ := tile
  dsimp only at hnoise
  cases pixels with
  | color pixels =>
    simp only [dissolve, texel?, Array.getElem?_zipWith, hnoise]
    cases pixels[l * w + k]? with
    | none => rfl
    | some pixel => rfl
  | level levels =>
    simp only [dissolve, texel?]
    cases levels[l * w + k]? with
    | none => rfl
    | some v => rfl
  | levelAlpha levels alphas =>
    simp only [dissolve, texel?, Array.getElem?_zipWith, hnoise]
    cases levels[l * w + k]? with
    | none => rfl
    | some v =>
      cases alphas[l * w + k]? with
      | none => rfl
      | some a => rfl

/-- A tile remains complete when it is dissolved. -/
theorem Tile.complete_dissolve {tile : Tile} {kind : LayerKind} (x y : Nat)
    (h : tile.pixels.Complete kind (tile.width * tile.height)) :
    (tile.dissolve x y).pixels.Complete kind (tile.width * tile.height) := by
  have hsize := Dissolve.size_noiseBlock x y tile.width tile.height
  obtain ⟨w, t, pixels⟩ := tile
  dsimp only at hsize h ⊢
  cases pixels with
  | color pixels => exact ⟨h.1, by rw [Array.size_zipWith, h.2, hsize, Nat.min_self]⟩
  | level levels => exact h
  | levelAlpha levels alphas =>
      exact ⟨h.1, h.2.1, by rw [Array.size_zipWith, h.2.2, hsize, Nat.min_self]⟩

/-! ### Thinning out layers -/

/-- Mapping a grid maps the tile at each place, given that place. -/
theorem TileGrid.get?_mapPlaced {α β : Type} (f : Nat → Nat → α → β) (grid : TileGrid α)
    (row column : Nat) :
    (grid.mapPlaced f).get? row column = (grid.get? row column).map (f row column) := by
  unfold get? mapPlaced
  dsimp only
  by_cases h : row < grid.rows ∧ column < grid.columns
  · rw [if_pos h, if_pos h, Array.getElem?_mapIdx, place_div h.2, place_mod h.2]
  · rw [if_neg h, if_neg h]
    rfl

/-- Tiles that are changed in their pixels only still cover what they covered, as tiles of the kind
that their pixels now belong to. -/
theorem TileGrid.Covers.mapPlaced {grid : TileGrid Tile} {width height : Nat}
    {kind kind' : LayerKind} (h : grid.Covers width height kind) {f : Nat → Nat → Tile → Tile}
    (hwidth : ∀ row column tile, (f row column tile).width = tile.width)
    (hheight : ∀ row column tile, (f row column tile).height = tile.height)
    (hcomplete : ∀ row column tile, tile.pixels.Complete kind (tile.width * tile.height) →
      (f row column tile).pixels.Complete kind' (tile.width * tile.height)) :
    (grid.mapPlaced f).Covers width height kind' := by
  refine ⟨h.rows_eq, h.columns_eq, Array.size_mapIdx.trans h.size_eq, ?_, ?_, ?_⟩
  -- Every tile is an old one with other pixels.
  all_goals
    intro row column tile htile
    rw [get?_mapPlaced] at htile
    obtain ⟨old, hold, rfl⟩ := Option.map_eq_some_iff.mp htile
  · rw [hwidth]
    exact h.tile_width hold
  · rw [hheight]
    exact h.tile_height hold
  · rw [hwidth, hheight]
    exact hcomplete row column old (h.complete hold)

/-- The grid with every tile dissolved at the place that the tile has in the layer. -/
def TileGrid.dissolve (grid : TileGrid Tile) : TileGrid Tile :=
  grid.mapPlaced fun row column tile => tile.dissolve (column * Tile.side) (row * Tile.side)

/-- **Dissolving a grid.** Each pixel is thinned out by the noise at its position. -/
theorem TileGrid.Covers.texelAt?_dissolve {grid : TileGrid Tile} {width height : Nat}
    {kind : LayerKind} (h : grid.Covers width height kind) {x y : Nat} (hx : x < width)
    (hy : y < height) :
    grid.dissolve.texelAt? x y = (grid.texelAt? x y).map (Texel.thin (Dissolve.noise x y)) := by
  obtain ⟨tile, htile, hk, hl⟩ := h.exists_tile hx hy
  -- The tile's corner and the place in the tile add up to the position in the layer.
  have hcolumn : x / Tile.side * Tile.side + x % Tile.side = x := Nat.div_add_mod' x Tile.side
  have hrow : y / Tile.side * Tile.side + y % Tile.side = y := Nat.div_add_mod' y Tile.side
  have htexel := tile.texel?_dissolve (x / Tile.side * Tile.side) (y / Tile.side * Tile.side) hk hl
  rw [hcolumn, hrow] at htexel
  rw [texelAt?, dissolve, get?_mapPlaced, texelAt?, htile]
  exact htexel

namespace Layer

/-- Whether compositing thins the layer out. -/
def thinsOut (layer : Layer) : Bool :=
  layer.props.mode.isDissolve && (layer.kind = .rgba || layer.kind = .grayAlpha)

/-- A sample at one of the layer's own positions, thinned out if the layer is. -/
def thinAt (layer : Layer) (x y : Nat) (sample : Sample) : Sample :=
  if layer.thinsOut then { sample with texel := sample.texel.thin (Dissolve.noise x y) } else sample

variable {layer : Layer}

theorem dissolved_of_thinsOut (h : layer.thinsOut = true) :
    layer.dissolved = { layer with tiles := layer.tiles.dissolve } := by
  unfold dissolved
  exact if_pos h

theorem dissolved_of_not_thinsOut (h : layer.thinsOut = false) : layer.dissolved = layer := by
  unfold dissolved
  refine if_neg ?_
  rw [show (layer.props.mode.isDissolve && _) = false from h]
  exact Bool.false_ne_true

/-- Dissolving changes the tiles of a layer and nothing else. -/
theorem dissolved_eq (layer : Layer) :
    layer.dissolved = { layer with tiles := layer.dissolved.tiles } := by
  cases h : layer.thinsOut with
  | true => rw [dissolved_of_thinsOut h]
  | false => rw [dissolved_of_not_thinsOut h]

/-- Thinning out a layer leaves everything but its tiles. -/
@[simp] theorem dissolved_width : layer.dissolved.width = layer.width := by rw [dissolved_eq]

@[simp] theorem dissolved_height : layer.dissolved.height = layer.height := by rw [dissolved_eq]

@[simp] theorem dissolved_kind : layer.dissolved.kind = layer.kind := by rw [dissolved_eq]

@[simp] theorem dissolved_props : layer.dissolved.props = layer.props := by rw [dissolved_eq]

@[simp] theorem dissolved_mask : layer.dissolved.mask = layer.mask := by rw [dissolved_eq]

/-- **Dissolving keeps the shape** of a layer. -/
theorem WellShaped.dissolved (h : layer.WellShaped) : layer.dissolved.WellShaped := by
  refine ⟨?_, fun mask hmask => ?_⟩
  · rw [dissolved_width, dissolved_height, dissolved_kind]
    cases ht : layer.thinsOut with
    | false =>
      rw [dissolved_of_not_thinsOut ht]
      exact h.covers
    | true =>
      rw [dissolved_of_thinsOut ht]
      dsimp only
      -- Every tile is an old one with other alphas.
      apply h.covers.mapPlaced
      · exact fun _ _ _ => rfl
      · exact fun _ _ _ => rfl
      · exact fun row column _ => Tile.complete_dissolve (column * Tile.side) (row * Tile.side)
  · rw [dissolved_width, dissolved_height]
    exact h.mask_covers mask (dissolved_mask ▸ hmask)

/-- Masks are not thinned out. -/
theorem maskAt?_dissolved (x y : Nat) : layer.dissolved.maskAt? x y = layer.maskAt? x y := by
  unfold maskAt? maskApplies
  rw [dissolved_props, dissolved_mask]

/-- **Samples of a dissolved layer.** They are those of the layer, each thinned out by the noise at
its position. -/
theorem WellShaped.sampleAt?_dissolved (h : layer.WellShaped) {x y : Nat} (hx : x < layer.width)
    (hy : y < layer.height) :
    layer.dissolved.sampleAt? x y = (layer.sampleAt? x y).map (layer.thinAt x y) := by
  have hx' : x < layer.dissolved.width := by rwa [dissolved_width]
  have hy' : y < layer.dissolved.height := by rwa [dissolved_height]
  -- The mask's value stays, so only the pixels have to be looked at.
  rw [h.dissolved.sampleAt?_eq hx' hy', h.sampleAt?_eq hx hy, maskAt?_dissolved, Option.map_map]
  have hthin : layer.thinAt x y ∘ (fun texel => (⟨texel, layer.maskAt? x y⟩ : Sample)) =
      fun texel => ⟨if layer.thinsOut then texel.thin (Dissolve.noise x y) else texel,
        layer.maskAt? x y⟩ := by
    funext texel
    show layer.thinAt x y ⟨texel, layer.maskAt? x y⟩ = _
    unfold thinAt
    split
    · rfl
    · rfl
  rw [hthin]
  cases ht : layer.thinsOut with
  | false =>
    rw [dissolved_of_not_thinsOut ht]
    rfl
  | true =>
    rw [dissolved_of_thinsOut ht, h.covers.texelAt?_dissolve hx hy, Option.map_map]
    rfl

/-- What lands on a position of the canvas is the sample of the layer there, thinned out if the
layer is. -/
theorem WellShaped.landing?_dissolved (h : layer.WellShaped) (x y : Nat) :
    layer.dissolved.landing? x y =
      (layer.landing? x y).map (layer.thinAt (layer.columnAt x) (layer.rowAt y)) := by
  -- Where the layer lies does not depend on its tiles.
  have hover : layer.dissolved.LiesOver x y ↔ layer.LiesOver x y := by
    unfold LiesOver
    rw [dissolved_props, dissolved_width, dissolved_height]
  have hcolumn : layer.dissolved.columnAt x = layer.columnAt x := by
    rw [columnAt, dissolved_props, columnAt]
  have hrow : layer.dissolved.rowAt y = layer.rowAt y := by
    rw [rowAt, dissolved_props, rowAt]
  unfold landing?
  by_cases ho : layer.LiesOver x y
  · rw [if_pos ho, if_pos (hover.mpr ho), hcolumn, hrow,
      h.sampleAt?_dissolved ho.columnAt_lt ho.rowAt_lt]
  · rw [if_neg ho, if_neg (fun h' => ho (hover.mp h'))]
    rfl

/-- Beside the layer nothing lands. -/
theorem WellShaped.landing?_dissolved_eq_none (h : layer.WellShaped) {x y : Nat}
    (hover : ¬ layer.LiesOver x y) : layer.dissolved.landing? x y = none := by
  rw [h.landing?_dissolved, landing?, if_neg hover, Option.map_none]

/-- **Where a layer lies over the canvas**, what lands is its pixel after the dissolve step, beside
the mask's value. -/
theorem WellShaped.exists_landing_dissolved (h : layer.WellShaped) {x y : Nat}
    (hover : layer.LiesOver x y) :
    ∃ texel, layer.dissolved.tiles.texelAt? (layer.columnAt x) (layer.rowAt y) = some texel ∧
      layer.dissolved.landing? x y =
        some ⟨texel, layer.maskAt? (layer.columnAt x) (layer.rowAt y)⟩ := by
  have hcolumn : layer.columnAt x < layer.dissolved.width := by
    rw [dissolved_width]
    exact hover.columnAt_lt
  have hrow : layer.rowAt y < layer.dissolved.height := by
    rw [dissolved_height]
    exact hover.rowAt_lt
  -- The dissolved layer has a texel there, as it has the size of the stored one.
  obtain ⟨texel, htexel, hsample⟩ := h.dissolved.exists_sample hcolumn hrow
  refine ⟨texel, htexel, ?_⟩
  rw [h.landing?_dissolved, landing?, if_pos hover,
    ← h.sampleAt?_dissolved hover.columnAt_lt hover.rowAt_lt, hsample, maskAt?_dissolved]

end Layer

end XcfFlatten
