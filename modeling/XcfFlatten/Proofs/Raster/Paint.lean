import Mathlib.Data.List.Basic
import XcfFlatten.Layer
import XcfFlatten.Raster

/-!
# Changing the cells of a raster one by one

A layer changes a raster by a list of placements, each of which modifies the cell at its own
position. What is left at one position then depends on the placements there alone:

* `Raster.get?_modify` — modifying a cell leaves every other position as it was;
* `Raster.get?_modifyAll` — a list of placements acts on a position by those of them that are at it,
  in order.

A column past the end of a row counts on in the next row, so both ask for columns inside the raster.
-/

namespace XcfFlatten

/-- Whether a placement is at a position. -/
def Placement.isAt (x y : Nat) (p : Placement) : Bool := p.x = x ∧ p.y = y

@[simp] theorem Placement.isAt_iff {x y : Nat} {p : Placement} :
    p.isAt x y = true ↔ p.x = x ∧ p.y = y := by
  simp [Placement.isAt]

namespace Raster

variable {α : Type}

@[simp] theorem modify_width (r : Raster α) (x y : Nat) (f : α → α) :
    (r.modify x y f).width = r.width := rfl

@[simp] theorem modify_height (r : Raster α) (x y : Nat) (f : α → α) :
    (r.modify x y f).height = r.height := rfl

/-- Inside the rows, the place of a cell tells its column and its row. -/
theorem offset_inj {r : Raster α} {x y x' y' : Nat} (hx : x < r.width) (hx' : x' < r.width) :
    r.offset x y = r.offset x' y' ↔ x = x' ∧ y = y' := by
  refine ⟨fun h => ?_, fun ⟨hx, hy⟩ => by rw [hx, hy]⟩
  unfold offset at h
  -- Quotient and remainder by the width give the row and the column back.
  have hw : 0 < r.width := by omega
  have hcol : (y * r.width + x) % r.width = (y' * r.width + x') % r.width := by rw [h]
  have hrow : (y * r.width + x) / r.width = (y' * r.width + x') / r.width := by rw [h]
  rw [Nat.mul_add_mod_of_lt hx, Nat.mul_add_mod_of_lt hx'] at hcol
  rw [Nat.mul_comm y, Nat.mul_comm y', Nat.mul_add_div hw, Nat.mul_add_div hw,
    Nat.div_eq_of_lt hx, Nat.div_eq_of_lt hx'] at hrow
  exact ⟨hcol, hrow⟩

/-- There is a cell at every position. -/
theorem exists_get? (r : Raster α) {x y : Nat} (hx : x < r.width) (hy : y < r.height) :
    ∃ a, r.get? x y = some a := by
  have hlt : r.offset x y < r.cells.size := by
    rw [r.size_eq]
    -- The last cell of row `y` lies before the first of the next row, and that within the raster.
    calc r.offset x y = y * r.width + x := rfl
      _ < y * r.width + r.width := by omega
      _ = (y + 1) * r.width := by rw [Nat.succ_mul]
      _ ≤ r.height * r.width := Nat.mul_le_mul_right _ hy
      _ = r.width * r.height := Nat.mul_comm _ _
  exact ⟨r.cells[r.offset x y], Array.getElem?_eq_getElem hlt⟩

/-- Rasters of the same size are the same if all of their cells are. -/
theorem ext_get? {r s : Raster α} (hwidth : r.width = s.width) (hheight : r.height = s.height)
    (h : ∀ x < r.width, ∀ y < r.height, r.get? x y = s.get? x y) : r = s := by
  obtain ⟨width, height, cells, hsize⟩ := r
  obtain ⟨width', height', cells', hsize'⟩ := s
  obtain rfl : width = width' := hwidth
  obtain rfl : height = height' := hheight
  have hcells : cells = cells' := by
    apply Array.ext
    · rw [hsize, hsize']
    · intro i hi hi'
      -- The place of a cell gives its row and its column.
      have hpos : 0 < width := by
        refine Nat.pos_of_ne_zero ?_
        rintro rfl
        omega
      have hrow : i / width < height := Nat.div_lt_of_lt_mul (hsize ▸ hi)
      have hcell : cells[i / width * width + i % width]? = cells'[i / width * width + i % width]? :=
        h (i % width) (Nat.mod_lt i hpos) (i / width) hrow
      rw [Nat.div_add_mod', Array.getElem?_eq_getElem hi, Array.getElem?_eq_getElem hi'] at hcell
      exact Option.some.inj hcell
  subst hcells
  rfl

/-- A filled raster holds the same cell everywhere. -/
theorem get?_filled {w h x y : Nat} {a : α} (hx : x < w) (hy : y < h) :
    (filled w h a).get? x y = some a := by
  obtain ⟨b, hb⟩ := exists_get? (filled w h a) hx hy
  have hmem : b ∈ Array.replicate (w * h) a := Array.mem_of_getElem? hb
  rw [hb, Array.eq_of_mem_replicate hmem]

/-- **Modifying a cell.** The function is applied at its own position and nowhere else. -/
theorem get?_modify (r : Raster α) {x y x' y' : Nat} (f : α → α)
    (hx : x < r.width) (hx' : x' < r.width) :
    (r.modify x' y' f).get? x y = if x' = x ∧ y' = y then (r.get? x y).map f else r.get? x y := by
  change (r.cells.modify (r.offset x' y') f)[r.offset x y]? = _
  rw [Array.getElem?_modify]
  by_cases h : x' = x ∧ y' = y
  · rw [if_pos h, if_pos ((offset_inj hx' hx).mpr h)]
    rfl
  · rw [if_neg h, if_neg (fun h' => h ((offset_inj hx' hx).mp h'))]
    rfl

/-- Modifies the cell of each placement in turn. -/
def modifyAll (rule : Sample → α → α) (r : Raster α) (ps : List Placement) : Raster α :=
  ps.foldl (fun r p => r.modify p.x p.y (rule p.sample)) r

@[simp] theorem modifyAll_cons (rule : Sample → α → α) (r : Raster α) (p : Placement)
    (ps : List Placement) :
    r.modifyAll rule (p :: ps) = (r.modify p.x p.y (rule p.sample)).modifyAll rule ps :=
  rfl

@[simp] theorem modifyAll_width (rule : Sample → α → α) (r : Raster α) (ps : List Placement) :
    (r.modifyAll rule ps).width = r.width := by
  induction ps generalizing r with
  | nil => rfl
  | cons p ps ih => rw [modifyAll_cons, ih, modify_width]

@[simp] theorem modifyAll_height (rule : Sample → α → α) (r : Raster α) (ps : List Placement) :
    (r.modifyAll rule ps).height = r.height := by
  induction ps generalizing r with
  | nil => rfl
  | cons p ps ih => rw [modifyAll_cons, ih, modify_height]

/-- **Modifying many cells.** What is left at a position is what the placements there make of it one
after another. -/
theorem get?_modifyAll (rule : Sample → α → α) (r : Raster α) (ps : List Placement) {x y : Nat}
    (hx : x < r.width) (hps : ∀ p ∈ ps, p.x < r.width) :
    (r.modifyAll rule ps).get? x y =
      (r.get? x y).map fun a =>
        (ps.filter (Placement.isAt x y)).foldl (fun a p => rule p.sample a) a := by
  induction ps generalizing r with
  | nil =>
    -- Nothing is modified, and nothing is made of what is there.
    change r.get? x y = (r.get? x y).map fun a => a
    rw [Option.map_id_fun', id]
  | cons p ps ih =>
    have hp : p.x < r.width := hps p List.mem_cons_self
    have hrest : ∀ q ∈ ps, q.x < r.width := fun q hq => hps q (List.mem_cons_of_mem _ hq)
    rw [modifyAll_cons, ih (r.modify p.x p.y (rule p.sample)) hx hrest, get?_modify r _ hx hp]
    -- The head modifies its own cell only, so it joins the fold exactly where the filter keeps it.
    by_cases h : p.x = x ∧ p.y = y
    · rw [if_pos h, List.filter_cons_of_pos (Placement.isAt_iff.mpr h), Option.map_map]
      rfl
    · rw [if_neg h, List.filter_cons_of_neg (fun h' => h (Placement.isAt_iff.mp h'))]

end Raster

end XcfFlatten
