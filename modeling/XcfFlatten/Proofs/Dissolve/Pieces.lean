import XcfFlatten.Proofs.Canvas.Checked

/-!
# Dissolving does not see the tiles

A layer may be dissolved in the tiles of its grid or in any other pieces that it is cut into. A
piece finds its random bytes from where it lies in the layer, and so the same pixel meets the same
byte in whatever piece it is (`Piece.texelAt?_thinned`). Nothing has to be assumed of how the pieces
fit together: they may be of any size, come in any order and lie over one another, as long as they
show the pixels of the layer.

The byte at a position is drawn from the seed of its row (`Dissolve.exists_noise`). A pixel that has
less alpha than its byte loses all of it, one that has as much keeps it. Either way the same byte
makes no difference to it any more, so that a layer that is dissolved already stays as it is
(`TileGrid.dissolve_dissolve`).

* `Layer.WellShaped.dissolve_at_position` — all three together.
-/

namespace XcfFlatten

/-! ### Random bytes -/

namespace Dissolve

/-- **Noise by position.** The byte at column `x` of row `y` is the low byte of the output with the
number `x`, from the seed that the table holds for the row. -/
theorem exists_noise (x y : Nat) :
    ∃ seed word, rowSeeds[y % seedCount]? = some seed ∧
      (outputs (x + 1) seed)[x]? = some word ∧ noise x y = word.toUInt8 := by
  have hlt : y % seedCount < rowSeeds.size := by
    rw [size_rowSeeds]
    exact Nat.mod_lt y (by decide)
  have hseed : rowSeeds[y % seedCount]? = some (rowSeed y) := by
    rw [Array.getElem?_eq_getElem hlt, rowSeed, Array.getD_eq_getD_getElem?,
      Array.getElem?_eq_getElem hlt, Option.getD_some]
  exact ⟨rowSeed y, draw (skip x (rowSeed y)), hseed, getElem?_outputs (Nat.lt_succ_self x) _, rfl⟩

/-- A byte that has thinned out an alpha leaves the rest as it is. -/
theorem keep_keep (alpha random : UInt8) : keep (keep alpha random) random = keep alpha random := by
  unfold keep
  by_cases h : alpha < random
  · rw [if_pos h, ite_self]
  · rw [if_neg h, if_neg h]

end Dissolve

/-! ### Pixels and tiles -/

/-- The pixel with another alpha, where it stores one. Its colour, level or index stays. -/
def Texel.setAlpha (alpha : UInt8) : Texel → Texel
  | color pixel => color { pixel with alpha }
  | level v => level v
  | levelAlpha v _ => levelAlpha v alpha

/-- Thinning out changes alphas only. -/
theorem Texel.thin_eq (texel : Texel) (random : UInt8) :
    texel.thin random =
      texel.setAlpha (if random ≤ texel.alpha then texel.alpha else 0) := by
  -- A byte that is not above the alpha keeps it.
  have hkeep (alpha : UInt8) :
      Dissolve.keep alpha random = if random ≤ alpha then alpha else 0 := by
    unfold Dissolve.keep
    by_cases h : alpha < random
    · rw [if_pos h, if_neg (UInt8.not_le.mpr h)]
    · rw [if_neg h, if_pos (UInt8.not_lt.mp h)]
  cases texel with
  | color pixel => rw [thin, hkeep]; rfl
  | level v => rfl
  | levelAlpha v alpha => rw [thin, hkeep]; rfl

/-- Combining with the same entries twice is combining with them once, if that is so entry by
entry. -/
theorem zipWith_zipWith {α β : Type} {f : α → β → α} (hf : ∀ a b, f (f a b) b = f a b)
    (as : Array α) (bs : Array β) :
    Array.zipWith f (Array.zipWith f as bs) bs = Array.zipWith f as bs := by
  refine Array.ext_getElem? fun i => ?_
  rw [Array.getElem?_zipWith, Array.getElem?_zipWith]
  -- The operation is repeated entry by entry.
  cases as[i]? with
  | none => rfl
  | some a =>
    cases bs[i]? with
    | none => rfl
    | some b => exact congrArg some (hf a b)

/-- A tile that has been dissolved is not changed by dissolving it again. -/
theorem Tile.dissolve_dissolve (tile : Tile) (x y : Nat) :
    (tile.dissolve x y).dissolve x y = tile.dissolve x y := by
  obtain ⟨width, height, pixels⟩ := tile
  unfold dissolve
  cases pixels with
  | color pixels =>
    dsimp only
    rw [zipWith_zipWith]
    intro pixel random
    rw [Dissolve.keep_keep]
  -- Levels without alpha are not thinned out at all.
  | level levels => rfl
  | levelAlpha levels alphas =>
    dsimp only
    rw [zipWith_zipWith Dissolve.keep_keep]

/-- **Dissolving twice** is dissolving once. -/
theorem TileGrid.dissolve_dissolve (grid : TileGrid Tile) :
    grid.dissolve.dissolve = grid.dissolve := by
  unfold dissolve mapPlaced
  dsimp only
  rw [Array.mapIdx_mapIdx]
  congr 2
  funext i tile
  exact tile.dissolve_dissolve _ _

/-! ### Pieces of a layer -/

/-- A tile cut out of a layer, and the column and the row of its first pixel there. -/
structure Piece where
  left : Nat
  top : Nat
  tile : Tile

namespace Piece

/-- Whether a position of the layer is inside the piece. -/
def Holds (piece : Piece) (x y : Nat) : Prop :=
  (piece.left ≤ x ∧ x < piece.left + piece.tile.width) ∧
    piece.top ≤ y ∧ y < piece.top + piece.tile.height

instance (piece : Piece) (x y : Nat) : Decidable (piece.Holds x y) :=
  inferInstanceAs (Decidable (_ ∧ _))

/-- The pixel that the piece has for a position of the layer. -/
def texelAt? (piece : Piece) (x y : Nat) : Option Texel :=
  if piece.Holds x y then
    piece.tile.texel? ((y - piece.top) * piece.tile.width + (x - piece.left))
  else none

/-- Dissolves the piece where it lies in the layer. A piece without any width cannot be walked row
by row. -/
def dissolve (piece : Piece) : Except Fault Piece := do
  pure { piece with tile := ← Checked.dissolveTile piece.tile piece.left piece.top }

/-- The pixel at a position of a layer that has been cut into pieces: that of the first piece that
has one. -/
def texelIn? (pieces : List Piece) (x y : Nat) : Option Texel :=
  pieces.findSome? fun piece => piece.texelAt? x y

/-- The piece after it has been dissolved. -/
def thinned (piece : Piece) : Piece :=
  { piece with tile := piece.tile.dissolve piece.left piece.top }

/-- A piece of some width can be dissolved. -/
theorem dissolve_eq {piece : Piece} (h : piece.tile.width ≠ 0) :
    piece.dissolve = .ok piece.thinned := by
  rw [dissolve, Checked.dissolveTile_eq h]
  rfl

/-- **Dissolving a piece.** The byte that thins out a pixel depends on its position in the layer,
and not on the piece. -/
theorem texelAt?_thinned (piece : Piece) (x y : Nat) :
    piece.thinned.texelAt? x y =
      (piece.texelAt? x y).map (Texel.thin (Dissolve.noise x y)) := by
  unfold texelAt?
  by_cases h : piece.Holds x y
  · have hthinned : piece.thinned.Holds x y := h
    obtain ⟨⟨hleft, hx⟩, htop, hy⟩ := h
    have hk : x - piece.left < piece.tile.width := by omega
    have hl : y - piece.top < piece.tile.height := by omega
    have htexel := piece.tile.texel?_dissolve piece.left piece.top hk hl
    -- From the corner of the piece on, the place in it leads back to the position.
    rw [Nat.add_sub_cancel' hleft, Nat.add_sub_cancel' htop] at htexel
    rw [if_pos hthinned, if_pos ⟨⟨hleft, hx⟩, htop, hy⟩]
    exact htexel
  · have hthinned : ¬ piece.thinned.Holds x y := h
    rw [if_neg hthinned, if_neg h]
    rfl

/-- Thinning out the pieces thins out the texel that they show at a position. -/
theorem texelIn?_thinned (pieces : List Piece) (x y : Nat) :
    texelIn? (pieces.map thinned) x y =
      (texelIn? pieces x y).map (Texel.thin (Dissolve.noise x y)) := by
  unfold texelIn?
  -- By induction on the pieces: the first that has the position shows its texel.
  induction pieces with
  | nil => rfl
  | cons piece pieces ih =>
    rw [List.map_cons, List.findSome?_cons, List.findSome?_cons, texelAt?_thinned]
    cases piece.texelAt? x y with
    | none => exact ih
    | some texel => rfl

end Piece

/-! ### Layers -/

/-- **Dissolving a layer.** Take a layer of any size and kind, each of its tiles dissolved at its
place in the layer, as compositing does it in dissolve mode. A pixel keeps its alpha if that is not
below the random byte at its position and has alpha 0 otherwise, and nothing else about it changes.
The byte is the low one of the output numbered by the column, from the seed numbered by the row
modulo 4096. So the layer may be cut into pieces of any other widths and heights as well, other than
0: dissolved piece by piece it looks the same. And dissolving it a second time changes nothing. -/
theorem Layer.WellShaped.dissolve_at_position {layer : Layer} (h : layer.WellShaped) :
    (layer.thinsOut = true →
        Checked.dissolved layer = .ok { layer with tiles := layer.tiles.dissolve }) ∧
      (∀ x < layer.width, ∀ y < layer.height, ∃ texel seed word,
        layer.tiles.texelAt? x y = some texel ∧
        Dissolve.rowSeeds[y % 4096]? = some seed ∧
        (Dissolve.outputs (x + 1) seed)[x]? = some word ∧
        layer.tiles.dissolve.texelAt? x y =
          some (texel.setAlpha (if word.toUInt8 ≤ texel.alpha then texel.alpha else 0))) ∧
      (∀ pieces : List Piece,
        (∀ piece ∈ pieces, piece.tile.width ≠ 0 ∧ piece.tile.height ≠ 0) →
        (∀ x < layer.width, ∀ y < layer.height,
          Piece.texelIn? pieces x y = layer.tiles.texelAt? x y) →
        ∃ after, pieces.mapM Piece.dissolve = .ok after ∧
          ∀ x < layer.width, ∀ y < layer.height,
            Piece.texelIn? after x y = layer.tiles.dissolve.texelAt? x y) ∧
      layer.tiles.dissolve.dissolve = layer.tiles.dissolve := by
  refine ⟨?_, ?_, ?_, layer.tiles.dissolve_dissolve⟩
  · intro hthins
    rw [h.checked_dissolved, dissolved_of_thinsOut hthins]
  · intro x hx y hy
    obtain ⟨texel, htexel⟩ := h.covers.exists_texel hx hy
    obtain ⟨seed, word, hseed, hword, hnoise⟩ := Dissolve.exists_noise x y
    refine ⟨texel, seed, word, htexel, hseed, hword, ?_⟩
    rw [h.covers.texelAt?_dissolve hx hy, htexel, Option.map_some, Texel.thin_eq, hnoise]
  · intro pieces hsizes hsame
    -- Every piece is dissolved by the same noise, wherever it was cut.
    have hdissolve : ∀ piece ∈ pieces, piece.dissolve = .ok piece.thinned :=
      fun piece hmem => Piece.dissolve_eq (hsizes piece hmem).1
    refine ⟨pieces.map Piece.thinned, Checked.mapM_eq hdissolve, ?_⟩
    intro x hx y hy
    rw [Piece.texelIn?_thinned, hsame x hx y hy, h.covers.texelAt?_dissolve hx hy]

/-- `overhangingLayer` cut into two pieces that do not end where its tiles do. -/
def overhangingPieces : List Piece :=
  [⟨40, 0, 25, 1, .levelAlpha (Array.replicate 24 7 ++ #[9]) (Array.replicate 24 255 ++ #[200])⟩,
    ⟨0, 0, 40, 1, .levelAlpha (Array.replicate 40 7) (Array.replicate 40 255)⟩]

/-- The last pixel of `overhangingLayer` is the first one of a tile, and far inside a piece. -/
theorem Layer.dissolve_overhangingPieces :
    (Canvas.overhangingLayer.WellShaped ∧ Canvas.overhangingLayer.thinsOut = true ∧
      (∀ piece ∈ overhangingPieces, piece.tile.width ≠ 0 ∧ piece.tile.height ≠ 0) ∧
      ∀ x < 65, ∀ y < 1,
        Piece.texelIn? overhangingPieces x y = Canvas.overhangingLayer.tiles.texelAt? x y) ∧
      ∃ after, overhangingPieces.mapM Piece.dissolve = .ok after ∧
        Checked.dissolved Canvas.overhangingLayer = .ok
          { Canvas.overhangingLayer with tiles := Canvas.overhangingLayer.tiles.dissolve } ∧
        Piece.texelIn? after 64 0 = Canvas.overhangingLayer.tiles.dissolve.texelAt? 64 0 := by
  have hshaped : Canvas.overhangingLayer.WellShaped := by decide
  have hthins : Canvas.overhangingLayer.thinsOut = true := by decide
  have hsizes : ∀ piece ∈ overhangingPieces, piece.tile.width ≠ 0 ∧ piece.tile.height ≠ 0 := by
    decide
  -- The pieces show the same texels as the two tiles of the layer.
  have hsame : ∀ x < 65, ∀ y < 1,
      Piece.texelIn? overhangingPieces x y = Canvas.overhangingLayer.tiles.texelAt? x y := by
    decide
  obtain ⟨hchecked, -, hpieces, -⟩ := hshaped.dissolve_at_position
  obtain ⟨after, hafter, hlook⟩ := hpieces overhangingPieces hsizes hsame
  exact ⟨⟨hshaped, hthins, hsizes, hsame⟩, after, hafter, hchecked hthins,
    hlook 64 (by decide) 0 (by decide)⟩

end XcfFlatten
