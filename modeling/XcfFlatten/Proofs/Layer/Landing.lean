import Mathlib.Data.List.Basic
import XcfFlatten.Canvas.Flatten
import XcfFlatten.Proofs.Layer.Shape
import XcfFlatten.Proofs.Raster.Paint

/-!
# Where the pixels of a layer land

Painting a layer walks its tiles, the rows of each tile and the columns of each row, and changes one
cell of the canvas after the other. For a well-shaped layer all that order is of no consequence:

* `Layer.WellShaped.filter_allPlacements` — over the whole walk, at most one placement falls on a
  position of the canvas, and it is the one that `Layer.landing?` computes from the position;
* `Raster.get?_paint` — so a position is changed by that one sample, or not at all.
-/

namespace XcfFlatten

/-! ### Lists that contribute at one place only -/

/-- If only index `k` contributes anything, the whole contribution is that of `k`. -/
theorem flatMap_range_of_single {β : Type} (f : Nat → List β) (k : Nat) (n : Nat)
    (h : ∀ i, i ≠ k → f i = []) : (List.range n).flatMap f = if k < n then f k else [] := by
  induction n with
  | zero => rfl
  | succ n ih =>
    rw [List.range_succ, List.flatMap_append, ih, List.flatMap_cons, List.flatMap_nil,
      List.append_nil]
    -- Index `k` is among the first `n`, or it is the one just added, or it is not reached yet.
    rcases Nat.lt_trichotomy k n with hlt | heq | hgt
    · rw [if_pos hlt, if_pos (by omega), h n (by omega), List.append_nil]
    · subst heq
      rw [if_neg (Nat.lt_irrefl k), if_pos (Nat.lt_succ_self k), List.nil_append]
    · rw [if_neg (by omega), if_neg (by omega), h n (by omega), List.nil_append]

/-- The same for an index given by how far the position `x` is from the one of index 0. -/
theorem flatMap_range_of_offset {β : Type} (f : Nat → List β) (left : Int) (x n : Nat)
    (h : ∀ i : Nat, left + i ≠ x → f i = []) :
    (List.range n).flatMap f =
      if 0 ≤ x - left ∧ x - left < n then f (x - left).toNat else [] := by
  -- The column that counts may lie to the left of the row, within it, or behind its end.
  by_cases hleft : 0 ≤ (x : Int) - left
  · rw [flatMap_range_of_single f ((x : Int) - left).toNat n (fun i hi => h i (by omega))]
    by_cases hn : (x : Int) - left < n
    · rw [if_pos (by omega), if_pos ⟨hleft, hn⟩]
    · rw [if_neg (by omega), if_neg (fun hin => hn hin.2)]
  · rw [if_neg (fun hin => hleft hin.1), List.flatMap_eq_nil_iff]
    exact fun i _ => h i (by omega)

/-- If only the entry numbered `k` contributes anything, the whole contribution is that of entry
`k`. -/
theorem flatMap_zipIdx_of_single {α β : Type} (f : α × Nat → List β) (k : Nat) (l : List α)
    (start : Nat) (h : ∀ p ∈ l.zipIdx start, p.2 ≠ k → f p = []) :
    (l.zipIdx start).flatMap f =
      if start ≤ k then (l[k - start]?).elim [] (fun a => f (a, k)) else [] := by
  induction l generalizing start with
  | nil => simp
  | cons a l ih =>
    have htail := ih (start + 1)
      (fun p hp => h p (by rw [List.zipIdx_cons]; exact List.mem_cons_of_mem _ hp))
    rw [List.zipIdx_cons, List.flatMap_cons, htail]
    -- The head is numbered `start`: entry `k` is behind it, the head itself, or not in the list.
    rcases Nat.lt_trichotomy start k with hlt | heq | hgt
    · have hindex : k - start = (k - (start + 1)) + 1 := by omega
      rw [h (a, start) (by simp) (by simp only [ne_eq]; omega), List.nil_append, if_pos (by omega),
        if_pos (by omega), hindex, List.getElem?_cons_succ]
    · subst heq
      rw [if_neg (by omega), if_pos (Nat.le_refl _), Nat.sub_self, List.getElem?_cons_zero,
        List.append_nil]
      rfl
    · rw [h (a, start) (by simp) (by simp only [ne_eq]; omega), List.nil_append, if_neg (by omega),
        if_neg (by omega)]

namespace Layer

/-! ### The placements of one tile -/

/-- The sample at place `i` of a tile in the given row and column of the layer's grid. -/
def sampleOf? (layer : Layer) (tile : Placed Tile) (i : Nat) : Option Sample :=
  (tile.value.texel? i).map fun texel => ⟨texel, layer.maskValue? tile.row tile.column i⟩

/-- The placements in one row of a tile, whose pixels begin at column `left` of the canvas. -/
def rowPlacements (layer : Layer) (width : Nat) (left : Int) (y l : Nat) (tile : Placed Tile) :
    List Placement :=
  (List.range tile.value.width).filterMap fun k =>
    let x : Int := left + (k : Nat)
    if 0 ≤ x ∧ x < width then
      (layer.sampleOf? tile (l * tile.value.width + k)).map fun sample => ⟨x.toNat, y, sample⟩
    else none

/-- The pixels of a tile are placed row by row. -/
theorem placements_eq (layer : Layer) (width height : Nat) (tile : Placed Tile) :
    layer.placements width height tile =
      (List.range tile.value.height).flatMap fun l =>
        let y : Int := (layer.tileOrigin tile.row tile.column).2 + (l : Nat)
        if 0 ≤ y ∧ y < height then
          layer.rowPlacements width (layer.tileOrigin tile.row tile.column).1 y.toNat l tile
        else [] := by
  simp only [placements, rowPlacements, sampleOf?, maskValue?, Option.map_map]
  rfl

/-- The placements in a row are all in that row, and inside the canvas. -/
theorem of_mem_rowPlacements {layer : Layer} {width y l : Nat} {left : Int} {tile : Placed Tile}
    {p : Placement} (hp : p ∈ layer.rowPlacements width left y l tile) : p.y = y ∧ p.x < width := by
  rw [rowPlacements, List.mem_filterMap] at hp
  -- A pixel of the row is kept only if its column is within the canvas.
  obtain ⟨k, -, hk⟩ := hp
  dsimp only at hk
  split at hk
  · next hx =>
    obtain ⟨sample, -, rfl⟩ := Option.map_eq_some_iff.mp hk
    refine ⟨rfl, ?_⟩
    dsimp only
    omega
  · cases hk

/-- No pixel is placed to the right of the canvas. -/
theorem x_lt_of_mem_placements {layer : Layer} {width height : Nat} {tile : Placed Tile}
    {p : Placement} (hp : p ∈ layer.placements width height tile) : p.x < width := by
  rw [placements_eq, List.mem_flatMap] at hp
  obtain ⟨l, -, hp⟩ := hp
  dsimp only at hp
  split at hp
  · exact (of_mem_rowPlacements hp).2
  · cases hp

/-- A row places nothing in another row. -/
theorem filter_rowPlacements_of_ne (layer : Layer) {width x y y' : Nat} (left : Int) (l : Nat)
    (tile : Placed Tile) (hy : y' ≠ y) :
    (layer.rowPlacements width left y' l tile).filter (Placement.isAt x y) = [] := by
  rw [List.filter_eq_nil_iff]
  intro p hp hat
  exact hy ((of_mem_rowPlacements hp).1.symm.trans (Placement.isAt_iff.mp hat).2)

/-- In one row of a tile at most one placement is at a given column. -/
theorem filter_rowPlacements (layer : Layer) {width x y : Nat} (left : Int) (l : Nat)
    (tile : Placed Tile) (hx : x < width) :
    (layer.rowPlacements width left y l tile).filter (Placement.isAt x y) =
      if 0 ≤ x - left ∧ x - left < tile.value.width then
        ((layer.sampleOf? tile (l * tile.value.width + (x - left).toNat)).map
          fun s => (⟨x, y, s⟩ : Placement)).toList
      else [] := by
  -- A pixel in another column lands in another column.
  have hother : ∀ (k : Nat) (o : Option Sample), left + k ≠ x →
      (if 0 ≤ left + (k : Int) ∧ left + (k : Int) < width then
        o.map fun s => (⟨(left + (k : Int)).toNat, y, s⟩ : Placement) else none).toList.filter
          (Placement.isAt x y) = [] := by
    intro k o hk
    rw [List.filter_eq_nil_iff]
    intro p hp
    split at hp
    · obtain ⟨sample, -, rfl⟩ := Option.map_eq_some_iff.mp (Option.mem_toList.mp hp)
      rw [Placement.isAt_iff]
      rintro ⟨heq, -⟩
      dsimp only at heq
      omega
    · cases hp
  rw [rowPlacements, List.filterMap_eq_flatMap_toList, List.filter_flatMap,
    flatMap_range_of_offset _ left x _ (fun k hk => hother k _ hk)]
  split
  · next hk =>
    -- The column that counts is the one that lands at the position.
    have hcolumn : left + (((x : Int) - left).toNat : Int) = x := by omega
    rw [hcolumn, if_pos ⟨by omega, by omega⟩]
    cases layer.sampleOf? tile (l * tile.value.width + ((x : Int) - left).toNat) with
    | none => rfl
    | some sample =>
      exact List.filter_cons_of_pos (Placement.isAt_iff.mpr ⟨Int.toNat_natCast x, rfl⟩)
  · rfl

/-- **Placements of a tile.** At most one of them is at a given position of the canvas: the one of
the pixel whose distance from the tile's first pixel is that of the position. -/
theorem filter_placements (layer : Layer) {width height x y : Nat} (tile : Placed Tile)
    (hx : x < width) (hy : y < height) {left top : Int}
    (horigin : layer.tileOrigin tile.row tile.column = (left, top)) :
    (layer.placements width height tile).filter (Placement.isAt x y) =
      if (0 ≤ x - left ∧ x - left < tile.value.width) ∧
          0 ≤ y - top ∧ y - top < tile.value.height then
        ((layer.sampleOf? tile ((y - top).toNat * tile.value.width + (x - left).toNat)).map
          fun s => (⟨x, y, s⟩ : Placement)).toList
      else [] := by
  -- A row of the tile that lands elsewhere contributes nothing.
  have hother : ∀ l : Nat, top + l ≠ y →
      (if 0 ≤ top + (l : Int) ∧ top + (l : Int) < height then
        layer.rowPlacements width left (top + (l : Int)).toNat l tile else []).filter
          (Placement.isAt x y) = [] := by
    intro l hl
    split
    · exact filter_rowPlacements_of_ne layer left l tile (by omega)
    · rfl
  rw [placements_eq, List.filter_flatMap, horigin, flatMap_range_of_offset _ top y _ hother]
  by_cases hl : 0 ≤ (y : Int) - top ∧ (y : Int) - top < tile.value.height
  · have hrow : top + (((y : Int) - top).toNat : Int) = y := by omega
    rw [if_pos hl, hrow, if_pos ⟨by omega, by omega⟩, Int.toNat_natCast,
      filter_rowPlacements layer left _ tile hx]
    by_cases hk : 0 ≤ (x : Int) - left ∧ (x : Int) - left < tile.value.width
    · rw [if_pos hk, if_pos ⟨hk, hl⟩]
    · rw [if_neg hk, if_neg (fun h => hk h.1)]
  · rw [if_neg hl, if_neg (fun h => hl h.2)]

/-! ### The placements of a whole layer -/

/-- All placements of a layer on a canvas, in the order in which they are painted. -/
def allPlacements (layer : Layer) (width height : Nat) : List Placement :=
  layer.tiles.toList.flatMap (layer.placements width height)

theorem x_lt_of_mem_allPlacements {layer : Layer} {width height : Nat} {p : Placement}
    (hp : p ∈ layer.allPlacements width height) : p.x < width := by
  obtain ⟨tile, -, hp⟩ := List.mem_flatMap.mp hp
  exact x_lt_of_mem_placements hp

/-- The tile in a row and a column of a well-shaped layer contributes to a position of the canvas
only if the position falls on that tile, and then what `landing?` says. -/
theorem WellShaped.filter_placements_tile {layer : Layer} (h : layer.WellShaped)
    {width height x y : Nat} (hx : x < width) (hy : y < height) {row column : Nat} {tile : Tile}
    (htile : layer.tiles.get? row column = some tile) :
    (layer.placements width height ⟨row, column, tile⟩).filter (Placement.isAt x y) =
      if layer.columnAt x / Tile.side = column ∧ layer.rowAt y / Tile.side = row then
        ((layer.landing? x y).map fun s => (⟨x, y, s⟩ : Placement)).toList
      else [] := by
  -- Distances from the tile's corner, in terms of the position in the layer.
  have hleft : (x : Int) - (column * Tile.side + layer.props.xOffset) =
      (x : Int) - layer.props.xOffset - column * Tile.side := by omega
  have htop : (y : Int) - (row * Tile.side + layer.props.yOffset) =
      (y : Int) - layer.props.yOffset - row * Tile.side := by omega
  -- A tile holds the positions inside the layer that fall on it, also where the edge cuts it short.
  have hcolumns := h.covers.tile_width htile ▸ Tile.sub_lt_extent_iff (x - layer.props.xOffset)
    column layer.width
  have hrows := h.covers.tile_height htile ▸ Tile.sub_lt_extent_iff (y - layer.props.yOffset)
    row layer.height
  rw [filter_placements layer _ hx hy rfl, hleft, htop]
  simp only [hcolumns, hrows]
  by_cases hfalls : layer.columnAt x / Tile.side = column ∧ layer.rowAt y / Tile.side = row
  · rw [if_pos hfalls, landing?]
    by_cases hover : layer.LiesOver x y
    · -- Inside its own tile, the distance from the tile's corner is the remainder.
      have hk : ((x : Int) - layer.props.xOffset - column * Tile.side).toNat =
          layer.columnAt x % Tile.side := by
        unfold Tile.side columnAt at *
        omega
      have hl : ((y : Int) - layer.props.yOffset - row * Tile.side).toNat =
          layer.rowAt y % Tile.side := by
        unfold Tile.side rowAt at *
        omega
      rw [if_pos ⟨⟨hover.1, hfalls.1⟩, hover.2, hfalls.2⟩, if_pos hover, sampleAt?, hfalls.1,
        hfalls.2, htile, Option.bind_some, sampleOf?, hk, hl]
    · rw [if_neg (fun hc => hover ⟨hc.1.1, hc.2.1⟩), if_neg hover]
      rfl
  · rw [if_neg hfalls, if_neg (fun hc => hfalls ⟨hc.1.2, hc.2.2⟩)]

/-- **The whole walk.** Of all placements of a well-shaped layer, at most one is at a given position
of the canvas, and it is the one that the position determines. -/
theorem WellShaped.filter_allPlacements {layer : Layer} (h : layer.WellShaped)
    {width height x y : Nat} (hx : x < width) (hy : y < height) :
    (layer.allPlacements width height).filter (Placement.isAt x y) =
      ((layer.landing? x y).map fun s => (⟨x, y, s⟩ : Placement)).toList := by
  -- The tile numbered `i` is that of row `i / columns` and column `i % columns`.
  have htile : ∀ {tile : Tile} {i : Nat}, (tile, i) ∈ layer.tiles.tiles.toList.zipIdx →
      layer.tiles.get? (i / layer.tiles.columns) (i % layer.tiles.columns) = some tile :=
    fun hp => TileGrid.get?_of_mem_zipIdx h.covers.size_eq hp
  let column := layer.columnAt x / Tile.side
  let row := layer.rowAt y / Tile.side
  -- Only the tile that the position falls on contributes.
  rw [allPlacements, List.filter_flatMap, TileGrid.toList, List.flatMap_map,
    flatMap_zipIdx_of_single _ (row * layer.tiles.columns + column)]
  · rw [if_pos (Nat.zero_le _), Nat.sub_zero]
    by_cases hover : layer.LiesOver x y
    · -- The layer lies over the position, so there is a tile at that place for it to fall on.
      have hcolumn : column < layer.tiles.columns :=
        h.covers.columns_eq ▸ Tile.div_lt_count hover.columnAt_lt
      have hrow : row < layer.tiles.rows := h.covers.rows_eq ▸ Tile.div_lt_count hover.rowAt_lt
      have hlt : row * layer.tiles.columns + column < layer.tiles.tiles.toList.length := by
        rw [Array.length_toList, h.covers.size_eq, Nat.mul_comm layer.tiles.rows]
        exact Tile.place_lt hcolumn hrow
      have hmem := List.mk_mem_zipIdx_iff_getElem?.mpr (List.getElem?_eq_getElem hlt)
      rw [List.getElem?_eq_getElem hlt, Option.elim_some,
        h.filter_placements_tile hx hy (htile hmem),
        if_pos ⟨(TileGrid.place_mod hcolumn).symm, (TileGrid.place_div hcolumn).symm⟩]
    · -- Beside the layer nothing lands, even where the place's number is that of some other tile.
      have hnone : layer.landing? x y = none := if_neg hover
      cases hk : layer.tiles.tiles.toList[row * layer.tiles.columns + column]? with
      | none => rw [hnone]; rfl
      | some tile =>
        have hmem := List.mk_mem_zipIdx_iff_getElem?.mpr hk
        rw [Option.elim_some, h.filter_placements_tile hx hy (htile hmem), hnone]
        exact ite_self _
  · -- A tile that the position falls on has the row and the column of the place, hence its number.
    rintro ⟨tile, i⟩ hp hi
    rw [h.filter_placements_tile hx hy (htile hp), if_neg]
    rintro ⟨hcolumn, hrow⟩
    apply hi
    change i = row * layer.tiles.columns + column
    rw [show column = i % layer.tiles.columns from hcolumn,
      show row = i / layer.tiles.columns from hrow, Nat.div_add_mod']

end Layer

/-! ### Painting -/

namespace Raster

variable {α : Type}

/-- Painting a layer changes one cell after another, by the pixels that are placed. -/
theorem paint_eq_modifyAll (layer : Layer) (rule : Sample → α → α) (r : Raster α) :
    r.paint layer rule = r.modifyAll rule (layer.allPlacements r.width r.height) := by
  unfold paint modifyAll Layer.allPlacements
  rw [List.foldl_flatMap]

@[simp] theorem paint_width (layer : Layer) (rule : Sample → α → α) (r : Raster α) :
    (r.paint layer rule).width = r.width := by
  rw [paint_eq_modifyAll, modifyAll_width]

@[simp] theorem paint_height (layer : Layer) (rule : Sample → α → α) (r : Raster α) :
    (r.paint layer rule).height = r.height := by
  rw [paint_eq_modifyAll, modifyAll_height]

/-- **Painting cell by cell.** A cell of the canvas is changed by the sample of the layer that lands
on it, and by no other; where none lands it stays as it was. -/
theorem get?_paint {layer : Layer} (h : layer.WellShaped) (rule : Sample → α → α) (r : Raster α)
    {x y : Nat} (hx : x < r.width) (hy : y < r.height) :
    (r.paint layer rule).get? x y =
      (r.get? x y).map fun a => (layer.landing? x y).elim a (fun s => rule s a) := by
  rw [paint_eq_modifyAll,
    get?_modifyAll rule r _ hx (fun p hp => Layer.x_lt_of_mem_allPlacements hp),
    h.filter_allPlacements hx hy]
  cases layer.landing? x y with
  | none => rfl
  | some sample => rfl

end Raster

end XcfFlatten
