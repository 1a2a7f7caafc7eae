import XcfFlatten.Proofs.Canvas.Invariant

/-!
# Layers that do not overlap

Layers that lie over different places of a canvas can be merged in any order
(`Canvas.run_merges_perm`). A layer changes the cells that it lies over, each by a rule that reads
that cell alone, and whether it is merged at all depends on the format of the canvas, which no layer
changes. So two layers of which no cell sees both do the same to each cell in either order. They may
well overlap beside the canvas: of what is clipped away, nothing is asked.

* `Raster.paint_comm` — two layers that land on different cells, by any rules;
* `Canvas.mergeDown_comm` — two layers that are merged one after the other.
-/

namespace XcfFlatten

/-! ### Two layers -/

/-- No place of a canvas of this size has both layers over it. -/
def Layer.ApartOn (layer other : Layer) (width height : Nat) : Prop :=
  ∀ x < width, ∀ y < height, ¬ (layer.LiesOver x y ∧ other.LiesOver x y)

instance (layer other : Layer) (width height : Nat) :
    Decidable (layer.ApartOn other width height) :=
  inferInstanceAs (Decidable (∀ x < width, ∀ y < height, _))

theorem Layer.ApartOn.symm {layer other : Layer} {width height : Nat}
    (h : layer.ApartOn other width height) : other.ApartOn layer width height := by
  intro x hx y hy hboth
  exact h x hx y hy hboth.symm

section TwoLayers

variable {layer other : Layer} (h : layer.WellShaped) (hother : other.WellShaped)
include h hother

/-- **Painting apart.** Where at most one of two layers lands on each cell, the order in which they
are painted does not matter. -/
theorem Raster.paint_comm {α : Type} (r : Raster α) (rule otherRule : Sample → α → α)
    (hapart : ∀ x < r.width, ∀ y < r.height,
      layer.landing? x y = none ∨ other.landing? x y = none) :
    (r.paint layer rule).paint other otherRule = (r.paint other otherRule).paint layer rule := by
  refine ext_get? (by simp) (by simp) ?_
  intro x hx y hy
  rw [paint_width, paint_width] at hx
  rw [paint_height, paint_height] at hy
  obtain ⟨cell, hcell⟩ := r.exists_get? hx hy
  rw [get?_paint hother _ _ (by simpa using hx) (by simpa using hy), get?_paint h _ _ hx hy,
    get?_paint h _ _ (by simpa using hx) (by simpa using hy), get?_paint hother _ _ hx hy, hcell]
  -- One of the two rules is not applied here, and the other one meets the cell as it was.
  rcases hapart x hx y hy with hnone | hnone
  · rw [hnone]
    rfl
  · rw [hnone]
    rfl

namespace Canvas

/-- What lands of two layers that are apart lands apart, thinned out or not. -/
theorem repaint_comm (canvas : Canvas) (hapart : layer.ApartOn other canvas.width canvas.height)
    (indexRule otherIndexRule : Array Pixel → Sample → UInt8 → UInt8)
    (pixelRule otherPixelRule : Bool → Sample → Pixel → Pixel) :
    (canvas.repaint layer indexRule pixelRule).repaint other otherIndexRule otherPixelRule =
      (canvas.repaint other otherIndexRule otherPixelRule).repaint layer indexRule pixelRule := by
  -- At each pixel of the canvas one layer at most lands.
  have hlands : ∀ x < canvas.width, ∀ y < canvas.height,
      layer.dissolved.landing? x y = none ∨ other.dissolved.landing? x y = none := by
    intro x hx y hy
    by_cases hover : layer.LiesOver x y
    · have hbeside : ¬ other.LiesOver x y := fun hboth => hapart x hx y hy ⟨hover, hboth⟩
      exact Or.inr (hother.landing?_dissolved_eq_none hbeside)
    · exact Or.inl (h.landing?_dissolved_eq_none hover)
  cases canvas with
  | indexed format entries cells =>
    exact congrArg (indexed format entries)
      (cells.paint_comm h.dissolved hother.dissolved _ _ hlands)
  | color hasAlpha cells =>
    exact congrArg (color hasAlpha) (cells.paint_comm h.dissolved hother.dissolved _ _ hlands)

/-- **Merging apart.** A layer that is passed over is passed over in either order. -/
theorem mergeDown_comm (canvas : Canvas) (hapart : layer.ApartOn other canvas.width canvas.height)
    (palette otherPalette : Palette) :
    (canvas.mergeDown layer palette).mergeDown other otherPalette =
      (canvas.mergeDown other otherPalette).mergeDown layer palette := by
  -- Whether a layer is accepted depends on the format of the canvas, which no merge changes.
  have haccepts : ∀ (merged : Layer) (document : Palette) (kind : LayerKind),
      (canvas.mergeDown merged document).accepts kind = canvas.accepts kind := by
    intro merged document kind
    rw [accepts, accepts, mergeDown_format]
  rw [mergeDown_eq (canvas.mergeDown layer palette), mergeDown_eq (canvas.mergeDown other _),
    haccepts, haccepts, mergeDown_eq canvas layer, mergeDown_eq canvas other]
  by_cases hpassed : (layer.props.opacity = 0 || !canvas.accepts layer.kind) = true
  · rw [if_pos hpassed, if_pos hpassed]
  by_cases hpassed' : (other.props.opacity = 0 || !canvas.accepts other.kind) = true
  · rw [if_pos hpassed', if_pos hpassed']
  rw [if_neg hpassed, if_neg hpassed, if_neg hpassed', if_neg hpassed']
  exact repaint_comm h hother canvas hapart _ _ _ _

end Canvas

end TwoLayers

namespace Canvas

/-! ### Any number of layers -/

/-- **Layers apart.** On every canvas, merge well-shaped layers of any kinds, modes, opacities and
masks, each with any palette, no two of which lie over one place of the canvas. Whatever their order
is, the same canvas comes of it. With two layers, these are the two orders in which they can be
merged. -/
theorem run_merges_perm {calls reordered : List (Layer × Palette)} (hperm : calls.Perm reordered)
    (canvas : Canvas) (hshaped : ∀ call ∈ calls, call.1.WellShaped)
    (hapart : calls.Pairwise fun call other =>
      call.1.ApartOn other.1 canvas.width canvas.height) :
    canvas.run (merges calls) = canvas.run (merges reordered) := by
  -- By induction on how the order comes about, for every canvas: no merge changes the size.
  induction hperm generalizing canvas with
  | nil => rfl
  | cons call hperm ih =>
    rw [run_merges_cons, run_merges_cons]
    refine ih _ (fun other hmem => hshaped other (List.mem_cons_of_mem _ hmem)) ?_
    rw [mergeDown_width, mergeDown_height]
    exact (List.pairwise_cons.mp hapart).2
  | swap lower upper calls =>
    have hboth : upper.1.ApartOn lower.1 canvas.width canvas.height :=
      (List.pairwise_cons.mp hapart).1 lower List.mem_cons_self
    have hupper : upper.1.WellShaped := hshaped upper List.mem_cons_self
    have hlower : lower.1.WellShaped := hshaped lower (List.mem_cons_of_mem _ List.mem_cons_self)
    simp only [run_merges_cons]
    rw [mergeDown_comm hupper hlower canvas hboth]
  | trans hperm hperm' ih ih' =>
    calc canvas.run (merges _)
        = canvas.run (merges _) := ih canvas hshaped hapart
      _ = canvas.run (merges _) :=
        ih' canvas (fun call hmem => hshaped call (hperm.mem_iff.mpr hmem))
          ((hperm.pairwise_iff fun hsymm => hsymm.symm).mp hapart)

/-- A layer that multiplies, placed beyond the right edge and above the top edge of a small
canvas. -/
def protrudingLayer : Layer where
  width := 2
  height := 2
  kind := .rgba
  props := { opacity := 200, xOffset := 1, yOffset := -1, mode := ⟨3, .multiply, false⟩ }
  tiles := ⟨1, 1, #[⟨2, 2, .color
    #[⟨⟨1, 2, 3⟩, 4⟩, ⟨⟨5, 6, 7⟩, 8⟩, ⟨⟨100, 50, 25⟩, 255⟩, ⟨⟨9, 10, 11⟩, 12⟩]⟩]⟩
  mask := none

/-- It can be merged before or after a layer that is thinned out on its left. -/
theorem mergeDown_comm_protrudingLayer :
    (overhangingLayer.WellShaped ∧ protrudingLayer.WellShaped ∧ overhangingLayer.LiesOver 0 0 ∧
      protrudingLayer.LiesOver 1 0 ∧ overhangingLayer.ApartOn protrudingLayer 2 1) ∧
      ((filledColor 2 1 true Pixel.white).mergeDown overhangingLayer #[]).mergeDown
          protrudingLayer #[] =
        ((filledColor 2 1 true Pixel.white).mergeDown protrudingLayer #[]).mergeDown
          overhangingLayer #[] := by
  have hleft : overhangingLayer.WellShaped := by decide
  have hright : protrudingLayer.WellShaped := by decide
  have hapart : overhangingLayer.ApartOn protrudingLayer 2 1 := by decide
  have hshaped : ∀ call ∈ [(overhangingLayer, (#[] : Palette)), (protrudingLayer, #[])],
      call.1.WellShaped := by
    intro call hmem
    rcases List.mem_cons.mp hmem with rfl | hmem
    · exact hleft
    · rw [List.mem_singleton.mp hmem]
      exact hright
  refine ⟨⟨hleft, hright, by decide, by decide, hapart⟩, ?_⟩
  exact run_merges_perm (List.Perm.swap _ _ []) (filledColor 2 1 true Pixel.white) hshaped
    (List.pairwise_pair.mpr hapart)

end Canvas

end XcfFlatten
