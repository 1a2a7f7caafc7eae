/-!
# Rasters

A rectangle of cells stored row by row. Columns are counted from the left and rows from the top. The
number of stored cells is part of the type.
-/

namespace XcfFlatten

/-- A rectangle of cells, row by row. -/
structure Raster (α : Type) where
  width : Nat
  height : Nat
  cells : Array α
  size_eq : cells.size = width * height

namespace Raster

variable {α β : Type}

/-- The raster with the same value in every cell. -/
def filled (width height : Nat) (value : α) : Raster α where
  width
  height
  cells := Array.replicate (width * height) value
  size_eq := Array.size_replicate

/-- The place of a cell in the row by row order. -/
def offset (r : Raster α) (x y : Nat) : Nat := y * r.width + x

/-- The cell at a position. A column past the end of its row counts on in the next row. -/
def get? (r : Raster α) (x y : Nat) : Option α := r.cells[r.offset x y]?

/-- Applies a function to the cell at a position, if the raster has one there. -/
def modify (r : Raster α) (x y : Nat) (f : α → α) : Raster α where
  width := r.width
  height := r.height
  cells := r.cells.modify (r.offset x y) f
  size_eq := by rw [Array.size_modify, r.size_eq]

/-- Applies a function to every cell. -/
def map (f : α → β) (r : Raster α) : Raster β where
  width := r.width
  height := r.height
  cells := r.cells.map f
  size_eq := by rw [Array.size_map, r.size_eq]

/-- The raster's rows, from the top. -/
def rows (r : Raster α) : List (List α) :=
  (List.range r.height).map fun y => (r.cells.extract (y * r.width) ((y + 1) * r.width)).toList

end Raster

end XcfFlatten
