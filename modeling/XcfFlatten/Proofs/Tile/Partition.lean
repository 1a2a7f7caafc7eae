import Mathlib.Algebra.Order.Floor.Div
import Mathlib.Data.List.ProdSigma
import Mathlib.Data.Set.Function
import XcfFlatten.Proofs.Canvas.Checked
import XcfFlatten.Proofs.Tile.Overflow

/-!
# Tile grids partition their rasters

A tile grid holds its tiles row by row, and finds the row and the column of a tile by dividing its
number by the number of columns. So all rows and columns come up, in order and once each
(`TileGrid.positions_toList`), and what comes up at a place is what lies there
(`TileGrid.mem_toList_iff`). A grid without columns holds nothing that would have to be divided by
them (`TileGrid.checked_toList`).

The tiles at the ends of the rows and the columns are cut off where the raster ends. What the tiles
cover is then the raster, with no pixel missing and none in two of them (`Tile.bijOn_position`): a
position has its tile and its place there as quotient and remainder.
-/

namespace XcfFlatten

namespace Tile

/-! ### Pixels of tiles -/

/-- A pixel of a tile in a grid: the row and the column of the tile, and the pixel's own column and
row in the tile. -/
structure Spot where
  row : Nat
  column : Nat
  k : Nat
  l : Nat

namespace Spot

/-- The column and the row of the raster that the pixel falls on. -/
def position (spot : Spot) : Nat × Nat :=
  (side * spot.column + spot.k, side * spot.row + spot.l)

/-- The pixel that falls on a column and a row of the raster. -/
def ofPosition (position : Nat × Nat) : Spot :=
  ⟨position.2 / side, position.1 / side, position.1 % side, position.2 % side⟩

/-- The tile is one of those that cover a raster of the given size, and the pixel is inside it. -/
def InRaster (width height : Nat) (spot : Spot) : Prop :=
  (spot.row < count height ∧ spot.column < count width) ∧
    spot.k < extent spot.column width ∧ spot.l < extent spot.row height

end Spot

/-- A pixel of a tile along one side: it is inside the length, and the tile and the place in the
tile are quotient and remainder. -/
theorem place_of_lt_extent {index k length : Nat} (hk : k < extent index length) :
    side * index + k < length ∧ (side * index + k) / side = index ∧
      (side * index + k) % side = k := by
  unfold extent side at *
  omega

variable (width height : Nat)

/-- **Pixels and positions.** Every position of a raster is that of one pixel of one tile. -/
theorem bijOn_position :
    Set.BijOn Spot.position {spot | spot.InRaster width height}
      {position | position.1 < width ∧ position.2 < height} := by
  have hinverse : Set.InvOn Spot.ofPosition Spot.position {spot | spot.InRaster width height}
      {position | position.1 < width ∧ position.2 < height} := by
    constructor
    · -- No pixel is in two tiles: its position tells which one it is in, and where.
      rintro ⟨row, column, k, l⟩ ⟨-, hk, hl⟩
      obtain ⟨-, hcolumn, hk⟩ := place_of_lt_extent hk
      obtain ⟨-, hrow, hl⟩ := place_of_lt_extent hl
      rw [Spot.position, Spot.ofPosition, hcolumn, hk, hrow, hl]
    · rintro ⟨x, y⟩ -
      exact Prod.ext (Nat.div_add_mod x side) (Nat.div_add_mod y side)
  -- Both ways stay inside: a spot of the raster has a position in it, and the other way round.
  refine hinverse.bijOn ?_ ?_
  · rintro ⟨row, column, k, l⟩ ⟨-, hk, hl⟩
    exact ⟨(place_of_lt_extent hk).1, (place_of_lt_extent hl).1⟩
  · rintro ⟨x, y⟩ ⟨hx, hy⟩
    exact ⟨⟨div_lt_count hy, div_lt_count hx⟩, mod_lt_extent hx, mod_lt_extent hy⟩

/-- The number of tiles is the quotient by the side, rounded up. -/
theorem count_eq_ceilDiv (length : Nat) : count length = length ⌈/⌉ side := by
  rw [Nat.ceilDiv_eq_add_pred_div, count, Nat.add_sub_assoc (by decide)]

end Tile

namespace TileGrid

variable {α β : Type} {grid : TileGrid α}

/-! ### Row by row -/

/-- Numbers in order give rows and columns in order. -/
theorem map_range_div_mod (rows columns : Nat) :
    (List.range (rows * columns)).map (fun i => (i / columns, i % columns)) =
      List.range rows ×ˢ List.range columns := by
  induction rows with
  | zero => rw [Nat.zero_mul]; rfl
  | succ rows ih =>
    -- The last row begins where the others end.
    have hrow : (List.range columns).map
        (fun k => ((rows * columns + k) / columns, (rows * columns + k) % columns)) =
        (List.range columns).map fun k => (rows, k) := by
      refine List.map_congr_left fun k hk => ?_
      have hk : k < columns := List.mem_range.mp hk
      rw [place_div hk, place_mod hk]
    have hlast : List.range (rows + 1) ×ˢ List.range columns =
        List.range rows ×ˢ List.range columns ++
          (List.range columns).map fun k => (rows, k) := by
      change (List.range (rows + 1)).flatMap _ = _
      rw [List.range_succ, List.flatMap_append, List.flatMap_singleton]
      rfl
    rw [Nat.succ_mul, List.range_add, List.map_append, List.map_map, ih, hlast, ← hrow]
    rfl

section

variable (hsize : grid.tiles.size = grid.rows * grid.columns)
include hsize

/-- **All places, row by row.** -/
theorem positions_toList :
    grid.toList.map (fun p => (p.row, p.column)) =
      List.range grid.rows ×ˢ List.range grid.columns := by
  calc grid.toList.map (fun p => (p.row, p.column))
      = (grid.tiles.toList.zipIdx.map Prod.snd).map
          (fun i => (i / grid.columns, i % grid.columns)) := by
        rw [toList, List.map_map, List.map_map]
        rfl
    _ = (List.range (grid.rows * grid.columns)).map
          (fun i => (i / grid.columns, i % grid.columns)) := by
        rw [List.zipIdx_map_snd, Array.length_toList, hsize, List.range_eq_range']
    _ = List.range grid.rows ×ˢ List.range grid.columns := map_range_div_mod _ _

/-- What comes up at a place is what lies there. -/
theorem mem_toList_iff {row column : Nat} {a : α} :
    ⟨row, column, a⟩ ∈ grid.toList ↔ grid.get? row column = some a := by
  rw [toList, List.mem_map]
  constructor
  · rintro ⟨⟨b, i⟩, hmem, hplaced⟩
    cases hplaced
    exact get?_of_mem_zipIdx hsize hmem
  · intro h
    obtain ⟨-, hcolumn⟩ := lt_of_get? h
    -- The number of a place gives its row and its column back.
    refine ⟨(a, row * grid.columns + column), ?_, ?_⟩
    · rw [List.mk_mem_zipIdx_iff_getElem?, Array.getElem?_toList]
      unfold get? at h
      split at h
      · exact h
      · cases h
    · dsimp only
      rw [place_div hcolumn, place_mod hcolumn]

/-- There is a tile exactly at the places within the grid. -/
theorem isSome_get?_iff {row column : Nat} :
    (grid.get? row column).isSome ↔ row < grid.rows ∧ column < grid.columns := by
  constructor
  · intro h
    obtain ⟨a, ha⟩ := Option.isSome_iff_exists.mp h
    exact lt_of_get? ha
  · rintro ⟨hrow, hcolumn⟩
    obtain ⟨a, ha⟩ := exists_get? hsize hrow hcolumn
    exact Option.isSome_of_eq_some ha

end

/-- Changing what lies in a grid goes over the same places. -/
theorem toList_mapPlaced (f : Nat → Nat → α → β) (grid : TileGrid α) :
    (grid.mapPlaced f).toList =
      grid.toList.map fun p => ⟨p.row, p.column, f p.row p.column p.value⟩ := by
  apply List.ext_getElem?
  intro i
  simp only [toList, mapPlaced, List.getElem?_map, List.getElem?_zipIdx, Array.toList_mapIdx,
    List.getElem?_mapIdx, Option.map_map, Nat.zero_add]
  rfl

/-! ### Divisions -/

/-- The grid's contents with their rows and columns, where a division by zero is a fault. -/
def checkedToList (grid : TileGrid α) : Except Fault (List (Placed α)) :=
  grid.tiles.toList.zipIdx.mapM fun (a, i) => Checked.placed grid a i

/-- Where there is something to divide for, there are columns. -/
theorem checked_toList (hsize : grid.tiles.size = grid.rows * grid.columns) :
    grid.checkedToList = .ok grid.toList :=
  Checked.mapM_eq fun _ hmem => Checked.placed_eq hsize hmem

/-! ### Partitions -/

/-- A grid cuts a raster of the given size into tiles. -/
structure Partitions (grid : TileGrid α) (width height : Nat) : Prop where
  /-- Each row and column comes up once, row by row. -/
  positions : grid.toList.map (fun p => (p.row, p.column)) =
    List.range (height ⌈/⌉ Tile.side) ×ˢ List.range (width ⌈/⌉ Tile.side)
  /-- What comes up there is what lies there. -/
  mem_iff : ∀ {row column a}, ⟨row, column, a⟩ ∈ grid.toList ↔ grid.get? row column = some a
  /-- Nothing lies anywhere else. -/
  isSome_iff : ∀ {row column}, (grid.get? row column).isSome ↔
    row < height ⌈/⌉ Tile.side ∧ column < width ⌈/⌉ Tile.side
  /-- Changes go over the same places. -/
  mapPlaced : ∀ {β : Type} (f : Nat → Nat → α → β), (grid.mapPlaced f).toList =
    grid.toList.map fun p => ⟨p.row, p.column, f p.row p.column p.value⟩
  /-- The pixels of the tiles are those of the raster. -/
  bijOn : Set.BijOn Tile.Spot.position {spot | spot.InRaster width height}
    {position | position.1 < width ∧ position.2 < height}
  /-- Nothing is divided by zero. -/
  checked : grid.checkedToList = .ok grid.toList
  /-- Sides can be rounded up in 32 bits, and tiles begin before the end of the raster. -/
  fits : (width + Tile.side < 2 ^ 32 ∧ height + Tile.side < 2 ^ 32) ∧ Tile.GridFits width height

/-- **Grids partition rasters.** Every grid over a raster whose size is within the default caps, an
empty one included. -/
theorem partitions_of_ofArray? {width height : Nat} (hadmits : ({} : Limits).Admits width height)
    {tiles : Array α} (hgrid : ofArray? width height tiles = some grid) :
    grid.Partitions width height := by
  have hrows : grid.rows = height ⌈/⌉ Tile.side ∧ grid.columns = width ⌈/⌉ Tile.side ∧
      grid.tiles.size = grid.rows * grid.columns := by
    unfold ofArray? at hgrid
    split at hgrid
    · next hsize =>
      cases hgrid
      exact ⟨Tile.count_eq_ceilDiv height, Tile.count_eq_ceilDiv width, hsize⟩
    · cases hgrid
  obtain ⟨hrows, hcolumns, hsize⟩ := hrows
  -- The default caps keep every number far below 32 bits.
  have hcaps : width ≤ 32767 ∧ height ≤ 32767 ∧ width * height ≤ 0x10000000 := hadmits
  have hpixels : width * height < 2 ^ 32 := Nat.lt_of_le_of_lt hcaps.2.2 (by decide)
  constructor
  case positions => rw [positions_toList hsize, hrows, hcolumns]
  case mem_iff => exact mem_toList_iff hsize
  case isSome_iff =>
    intro row column
    rw [isSome_get?_iff hsize, hrows, hcolumns]
  case mapPlaced => exact fun f => toList_mapPlaced f grid
  case bijOn => exact Tile.bijOn_position width height
  case checked => exact checked_toList hsize
  case fits =>
    refine ⟨?_, Tile.gridFits_of_lt (by omega) (by omega) hpixels⟩
    unfold Tile.side
    omega

/-- A raster that takes two rows and two columns of tiles. -/
theorem partitions_twoByTwo :
    ({} : Limits).Admits 100 65 ∧
      ofArray? 100 65 #['a', 'b', 'c', 'd'] = some ⟨2, 2, #['a', 'b', 'c', 'd']⟩ ∧
      (⟨2, 2, #['a', 'b', 'c', 'd']⟩ : TileGrid Char).Partitions 100 65 := by
  have hadmits : ({} : Limits).Admits 100 65 := by decide
  have hgrid : ofArray? 100 65 #['a', 'b', 'c', 'd'] = some ⟨2, 2, #['a', 'b', 'c', 'd']⟩ := rfl
  exact ⟨hadmits, hgrid, partitions_of_ofArray? hadmits hgrid⟩

end TileGrid

end XcfFlatten
