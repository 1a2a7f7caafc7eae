import Mathlib.Algebra.Group.Nat.Defs
import XcfFlatten.File.Stored
import XcfFlatten.Proofs.Layer.Shape
import XcfFlatten.Render

/-!
# Tile grids in 32 bits

Sizes are stored in 32 bits, and so a machine reckons with 32 bits where it cuts a raster into tiles:
it rounds the sides up to whole tiles, multiplies rows by columns, and goes from the place of a tile
to its first pixel and to what is left of the side. The limits are looked at once, before that. One of
them caps the product of the sides, and the cap on each of them is up to the user.

Behind the check, everything in the grid fits (`Tile.GridFits`): there are no more tiles than pixels,
and a tile begins inside its raster. Rounding up does not always fit. A raster without rows has no
pixels however wide it is, so that a side close to the end of 32 bits gets through
(`Limits.checkSize_widest`). That is the only case (`Limits.gridFits_of_checkSize`), and there is none
while the cap on the sides stays a tile below that end.
-/

namespace XcfFlatten

namespace Tile

/-- It takes no more tiles than pixels to cover a length. -/
theorem count_le (length : Nat) : count length ≤ length := by
  unfold count side
  omega

theorem extent_le (index length : Nat) : extent index length ≤ side := Nat.min_le_right _ _

/-- What is reckoned in the tile grid of a raster fits in 32 bits: how many tiles there are, where each
of them begins, which is before the end of the raster, and how many pixels it has. -/
structure GridFits (width height : Nat) : Prop where
  tiles_lt : count height * count width < 2 ^ 32
  row_lt : ∀ row < count height, row * side < 2 ^ 32 ∧ 0 < height - row * side
  column_lt : ∀ column < count width, column * side < 2 ^ 32 ∧ 0 < width - column * side
  pixels_lt : ∀ row < count height, ∀ column < count width,
    extent column width * extent row height < 2 ^ 32

/-- A tile begins before the end of the length that it is a part of. -/
theorem place_lt_of_lt_count {index length : Nat} (hlength : length < 2 ^ 32)
    (hindex : index < count length) : index * side < 2 ^ 32 ∧ 0 < length - index * side := by
  have hplace : index * side < length := lt_count_iff.mp hindex
  exact ⟨Nat.lt_trans hplace hlength, Nat.sub_pos_of_lt hplace⟩

/-- The grid fits if the pixels can be counted in 32 bits. -/
theorem gridFits_of_lt {width height : Nat} (hwidth : width < 2 ^ 32) (hheight : height < 2 ^ 32)
    (hpixels : width * height < 2 ^ 32) : GridFits width height where
  -- There are no more tiles than pixels.
  tiles_lt := by
    calc count height * count width ≤ height * width :=
          Nat.mul_le_mul (count_le height) (count_le width)
      _ = width * height := Nat.mul_comm _ _
      _ < 2 ^ 32 := hpixels
  row_lt := fun _ hrow => place_lt_of_lt_count hheight hrow
  column_lt := fun _ hcolumn => place_lt_of_lt_count hwidth hcolumn
  pixels_lt := fun row _ column _ => by
    calc extent column width * extent row height ≤ side * side :=
          Nat.mul_le_mul (extent_le column width) (extent_le row height)
      _ < 2 ^ 32 := by decide

end Tile

namespace Limits

variable {limits : Limits} {what : String} {width height : Nat}

/-- What the check lets through is within the caps. -/
theorem admits_of_checkSize (h : limits.checkSize what width height = .ok ()) :
    limits.Admits width height := by
  unfold checkSize at h
  by_cases hrefused : limits.maxDimension < width ∨ limits.maxDimension < height ∨
      limits.maxPixels < width * height
  · rw [if_pos hrefused] at h
    cases h
  · unfold Admits
    omega

/-- Where there is anything to the other side, a side is no longer than there may be pixels. -/
theorem Admits.width_le (h : limits.Admits width height) (hheight : height ≠ 0) :
    width ≤ limits.maxPixels :=
  Nat.le_trans (Nat.le_mul_of_pos_right width (Nat.pos_of_ne_zero hheight)) h.2.2

theorem Admits.height_le (h : limits.Admits width height) (hwidth : width ≠ 0) :
    height ≤ limits.maxPixels :=
  Nat.le_trans (Nat.le_mul_of_pos_left height (Nat.pos_of_ne_zero hwidth)) h.2.2

/-- **Tile grids in 32 bits.** Behind the check of a size, whatever caps on the layers and the sides it
goes by, the tile grid fits in 32 bits. Rounding up the sides does so too unless one of them is less
than a tile short of the end and the other is zero, which takes a cap on the sides that is itself as
close to the end. -/
theorem gridFits_of_checkSize {maxLayers maxDimension : Option Nat} (hwidth : width < 2 ^ 32)
    (hheight : height < 2 ^ 32)
    (h : (withCaps maxLayers maxDimension).checkSize what width height = .ok ()) :
    Tile.GridFits width height ∧
      (width + (Tile.side - 1) < 2 ^ 32 ∧ height + (Tile.side - 1) < 2 ^ 32 ↔
        ¬ (2 ^ 32 - Tile.side < width ∧ height = 0 ∨ 2 ^ 32 - Tile.side < height ∧ width = 0)) ∧
      ((∀ cap ∈ maxDimension, cap ≤ 2 ^ 32 - Tile.side) →
        width + (Tile.side - 1) < 2 ^ 32 ∧ height + (Tile.side - 1) < 2 ^ 32) := by
  have hadmits := admits_of_checkSize h
  -- The caps that can be set leave the one on the pixels as it is.
  have hpixels : (withCaps maxLayers maxDimension).maxPixels = 0x10000000 := rfl
  have hproduct := hadmits.2.2
  have hwide := hadmits.width_le
  have htall := hadmits.height_le
  rw [hpixels] at hproduct hwide htall
  refine ⟨Tile.gridFits_of_lt hwidth hheight (by omega), ?_, fun hcap => ?_⟩
  · unfold Tile.side
    omega
  · have hdimension : (withCaps maxLayers maxDimension).maxDimension ≤ 2 ^ 32 - Tile.side := by
      change maxDimension.getD 32767 ≤ _
      cases maxDimension with
      | none => decide
      | some cap => exact hcap cap rfl
    have hwidth := Nat.le_trans hadmits.1 hdimension
    have hheight := Nat.le_trans hadmits.2.1 hdimension
    unfold Tile.side at hwidth hheight ⊢
    omega

/-- The tallest raster of one column: its grid fits, and its sides can be rounded up. -/
theorem gridFits_tallest :
    (withCaps none (some (2 ^ 32 - 1))).checkSize "layer" 1 0x10000000 = .ok () ∧
      Tile.GridFits 1 0x10000000 ∧ 0x10000000 + (Tile.side - 1) < 2 ^ 32 := by
  have hcheck : (withCaps none (some (2 ^ 32 - 1))).checkSize "layer" 1 0x10000000 = .ok () :=
    rfl
  obtain ⟨hfits, hround, -⟩ := gridFits_of_checkSize (by decide) (by decide) hcheck
  exact ⟨hcheck, hfits, (hround.mpr (by decide)).2⟩

/-- The widest raster of all gets through if it has no rows, and its width cannot be rounded up. -/
theorem checkSize_widest :
    (withCaps none (some (2 ^ 32 - 1))).checkSize "layer" (2 ^ 32 - 1) 0 = .ok () ∧
      ¬ (2 ^ 32 - 1) + (Tile.side - 1) < 2 ^ 32 :=
  ⟨rfl, by decide⟩

end Limits

end XcfFlatten
