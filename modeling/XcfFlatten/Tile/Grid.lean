import XcfFlatten.Tile

/-!
# Tile grids

The tiles that cover a layer or a mask, row by row and addressed by row and column.
-/

namespace XcfFlatten

/-- As many things as it takes tiles to cover a raster, row by row. -/
structure TileGrid (α : Type) where
  rows : Nat
  columns : Nat
  tiles : Array α

/-- Something that lies at a place in a grid. -/
structure Placed (α : Type) where
  row : Nat
  column : Nat
  value : α

namespace TileGrid

variable {α β : Type}

/-- The grid over a raster of the given size. There is none unless the array holds exactly as many
things as there are tiles. -/
def ofArray? (width height : Nat) (tiles : Array α) : Option (TileGrid α) :=
  if tiles.size = Tile.count height * Tile.count width then
    some ⟨Tile.count height, Tile.count width, tiles⟩
  else none

/-- What lies at a row and a column. -/
def get? (grid : TileGrid α) (row column : Nat) : Option α :=
  if row < grid.rows ∧ column < grid.columns then grid.tiles[row * grid.columns + column]? else none

/-- Everything in the grid with its row and column, row by row. -/
def toList (grid : TileGrid α) : List (Placed α) :=
  grid.tiles.toList.zipIdx.map fun (tile, i) => ⟨i / grid.columns, i % grid.columns, tile⟩

/-- Applies a function of the row, the column and what lies there to everything in the grid. -/
def mapPlaced (f : Nat → Nat → α → β) (grid : TileGrid α) : TileGrid β where
  rows := grid.rows
  columns := grid.columns
  tiles := grid.tiles.mapIdx fun i tile => f (i / grid.columns) (i % grid.columns) tile

end TileGrid

end XcfFlatten
