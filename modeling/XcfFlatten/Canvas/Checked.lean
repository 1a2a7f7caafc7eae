import XcfFlatten.Canvas.Flatten

/-!
# Flattening with every access checked

Compositing looks up pixels, mask values, cells and seeds by number, walks tiles in rows and divides
by sizes, levels and alphas. `Canvas.paintBase` and `Canvas.mergeDown` pass over whatever is not
there, as if there were nothing to do. The operations of this module do the same work, but stop at
anything that ought not to happen (`Fault`):

* `Checked.paintBase` puts the lowest visible layer onto a fresh canvas;
* `Checked.mergeDown` composites a further layer onto what lies below.

Each operation here is named like the one that it checks.
-/

namespace XcfFlatten

/-- What ought not to happen while layers are composited. -/
inductive Fault where
  /-- A pixel that is not in its tile. -/
  | pixel
  /-- A mask value that is not in the mask's tile. -/
  | maskValue
  /-- A cell that is not on the canvas. -/
  | cell
  /-- A seed that is not in the table of seeds. -/
  | seed
  /-- A walk along rows without any width. -/
  | rowWidth
  | zeroDivisor
  /-- A source with more alpha than what it is mixed into ends up with. -/
  | alpha
  deriving DecidableEq, Inhabited, Repr

namespace Checked

/-- Goes on if the condition holds. -/
def require (fault : Fault) (condition : Prop) [Decidable condition] : Except Fault Unit :=
  if condition then pure () else throw fault

/-- Goes on with what was looked up, if it was there. -/
def found {α : Type} (fault : Fault) : Option α → Except Fault α
  | some a => pure a
  | none => throw fault

/-- The quotient, rounded down. -/
def quotient (a b : Nat) : Except Fault Nat := do
  require .zeroDivisor (b ≠ 0)
  pure (a / b)

/-- The remainder. -/
def remainder (a b : Nat) : Except Fault Nat := do
  require .zeroDivisor (b ≠ 0)
  pure (a % b)

/-! ### Blending -/

/-- The level a mode gives over the level `below`, for the modes that work channel by channel. Three
of them divide. -/
def channel? : BlendMode → Option (Nat → Nat → Except Fault Nat)
  | .divide => some fun below source => do
    pure (min 255 (← quotient (below * 256) (1 + source)))
  | .dodge => some fun below source => do
    pure (min 255 (← quotient (below * 256) (256 - source)))
  | .burn => some fun below source => do
    pure (255 - min 255 (← quotient ((255 - below) * 256) (source + 1)))
  | mode => mode.channel?.map fun f below source => pure (f below source)

/-- The level a mode gives in one channel. -/
def blendChannel (mode : BlendMode) (source below : UInt8) : Except Fault UInt8 :=
  match channel? mode with
  | some f => do pure (UInt8.ofNat (← f below.toNat source.toNat))
  | none => pure source

/-- Hue, saturation and value. Unless the colour is gray, its largest channel and the spread of its
channels are divided by. -/
def hsvOfRgb (c : Rgb) : Except Fault Hsv := do
  if c.top ≠ c.bottom then
    require .zeroDivisor (c.top.toNat ≠ 0)
    require .zeroDivisor (c.top.toNat - c.bottom.toNat ≠ 0)
  pure (Hsv.ofRgb c)

/-- Hue, lightness and saturation. Unless the colour is gray, the spread of its channels is divided
by, and either the sum of the largest and the smallest or what is left of 511. -/
def hlsOfRgb (c : Rgb) : Except Fault Hls := do
  if c.top ≠ c.bottom then
    require .zeroDivisor (c.top.toNat - c.bottom.toNat ≠ 0)
    require .zeroDivisor (c.top.toNat + c.bottom.toNat ≠ 0)
    require .zeroDivisor (511 - c.top.toNat - c.bottom.toNat ≠ 0)
  pure (Hls.ofRgb c)

/-- The colour a source colour contributes over the colour `below`. -/
def blendColor (mode : BlendMode) (source below : Rgb) : Except Fault Rgb :=
  match mode with
  | .hue => do
    let s ← hsvOfRgb source
    let d ← hsvOfRgb below
    pure { d with hue := s.hue }.toRgb
  | .saturation => do
    let s ← hsvOfRgb source
    let d ← hsvOfRgb below
    pure { d with saturation := s.saturation }.toRgb
  | .value => do
    let s ← hsvOfRgb source
    let d ← hsvOfRgb below
    pure { d with value := s.value }.toRgb
  | .color => do
    let s ← hlsOfRgb source
    let d ← hlsOfRgb below
    pure { s with lightness := d.lightness }.toRgb
  | mode => do
    let red ← blendChannel mode source.red below.red
    let green ← blendChannel mode source.green below.green
    let blue ← blendChannel mode source.blue below.blue
    pure ⟨red, green, blue⟩

/-- One channel of a source of alpha `alpha` over the level `below`, where the result has alpha
`total`. -/
def mix (source below alpha total : UInt8) : Except Fault UInt8 := do
  if total = 0 then pure source
  else
    require .alpha (alpha ≤ total)
    let mean ← quotient
      (alpha.toNat * source.toNat + (total.toNat - alpha.toNat) * below.toNat) total.toNat
    pure (UInt8.ofNat mean)

/-- A source colour of alpha `alpha` laid over a pixel. -/
def overPixel (source : Rgb) (alpha : UInt8) (below : Pixel) (affectsAlpha : Bool) :
    Except Fault Pixel := do
  let total := overAlpha alpha below.alpha
  let red ← mix source.red below.color.red alpha total
  let green ← mix source.green below.color.green alpha total
  let blue ← mix source.blue below.color.blue alpha total
  pure ⟨⟨red, green, blue⟩, if affectsAlpha then total else below.alpha⟩

/-! ### Rules

The rules of the lowest layer neither divide nor mix. -/

/-- The index that remains of the index `below` under a sample. -/
def mergedIndex (layer : Layer) (entries : Array Pixel) (sample : Sample) (below : UInt8) :
    Except Fault UInt8 :=
  let texel := sample.texel
  if layer.kind.isIndexed then pure (layer.mergedIndex entries sample below)
  else if texel.alpha = 0 then pure below
  else do
    let blended ← blendChannel layer.props.mode.blend texel.value below
    let alpha := UInt8.ofNat (layer.alphaOf sample texel.alpha)
    let mixed ← mix blended below alpha 255
    pure (Canvas.writeIndex entries mixed below)

/-- What a gray sample leaves of the pixel `below`. -/
def mergedGray (layer : Layer) (sample : Sample) (below : Pixel) : Except Fault Pixel := do
  let mode := layer.props.mode
  let texel := sample.texel
  let level := below.color.luma
  let blended ← blendChannel mode.blend texel.value level
  let clipped := if mode.blend.mixesGray then min texel.alpha below.alpha else texel.alpha
  let alpha := UInt8.ofNat (layer.alphaOf sample clipped)
  let total := overAlpha alpha below.alpha
  let mixed ← mix blended level alpha total
  pure ⟨Rgb.gray mixed, if mode.affectsAlpha then total else below.alpha⟩

/-- What a colour sample leaves of the pixel `below`. -/
def mergedColor (layer : Layer) (palette : Palette) (sample : Sample) (below : Pixel) :
    Except Fault Pixel := do
  let mode := layer.props.mode
  let texel := sample.texel
  let blended ← blendColor mode.blend (layer.colorOf palette sample) below.color
  let clipped := if mode.blend.mixesColor then min texel.alpha below.alpha else texel.alpha
  overPixel blended (UInt8.ofNat (layer.alphaOf sample clipped)) below mode.affectsAlpha

/-- The pixel that remains of the pixel `below` under a sample. -/
def mergedPixel (layer : Layer) (palette : Palette) (hasAlpha : Bool) (sample : Sample)
    (below : Pixel) : Except Fault Pixel :=
  if layer.kind.isIndexed then pure (layer.mergedPixel palette hasAlpha sample below)
  else if sample.texel.alpha = 0 then pure below
  else if layer.kind.isGray then do
    pure (Canvas.writePixel hasAlpha (← mergedGray layer sample below))
  else do
    pure (Canvas.writePixel hasAlpha (← mergedColor layer palette sample below))

/-! ### Dissolving -/

/-- Dissolves a tile whose first pixel is at column `x` and row `y` of its layer. -/
def dissolveTile (tile : Tile) (x y : Nat) : Except Fault Tile :=
  match tile.pixels with
  | .level _ => pure tile
  | .color _ | .levelAlpha _ _ => do
    require .rowWidth (tile.width ≠ 0)
    (List.range tile.height).forM fun l => do
      let _ ← found .seed Dissolve.rowSeeds[(y + l) % Dissolve.seedCount]?
    pure (tile.dissolve x y)

/-- What has the number `i` in a grid, at the row and the column that follow from the number. -/
def placed {α : Type} (grid : TileGrid α) (a : α) (i : Nat) : Except Fault (Placed α) := do
  let row ← quotient i grid.columns
  let column ← remainder i grid.columns
  pure ⟨row, column, a⟩

/-- The layer as it is composited: thinned out if its mode is dissolve. -/
def dissolved (layer : Layer) : Except Fault Layer :=
  if layer.props.mode.isDissolve && (layer.kind = .rgba || layer.kind = .grayAlpha) then do
    let tiles ← layer.tiles.tiles.toList.zipIdx.mapM fun (tile, i) => do
      let tile ← placed layer.tiles tile i
      dissolveTile tile.value (tile.column * Tile.side) (tile.row * Tile.side)
    pure { layer with tiles := { layer.tiles with tiles := tiles.toArray } }
  else pure layer

/-! ### Painting -/

/-- The `i`-th pixel of a tile, and the mask's value there if the mask applies. -/
def sampleOf (layer : Layer) (tile : Placed Tile) (i : Nat) : Except Fault Sample := do
  let texel ← found .pixel (tile.value.texel? i)
  match layer.maskTile? tile.row tile.column with
  | none => pure ⟨texel, none⟩
  | some mask =>
    let value ← found .maskValue (mask.texel? i)
    pure ⟨texel, some value.value⟩

section Paint

variable {α : Type} (layer : Layer) (rule : Sample → α → Except Fault α) (width height : Nat)

/-- Applies a rule to the cell that pixel `k` in row `l` of a tile falls on, if it falls on the
canvas. -/
def paintPixel (tile : Placed Tile) (l k : Nat) (cells : Raster α) : Except Fault (Raster α) := do
  let (left, top) := layer.tileOrigin tile.row tile.column
  let x : Int := left + k
  let y : Int := top + l
  if (0 ≤ y ∧ y < height) ∧ 0 ≤ x ∧ x < width then
    let sample ← sampleOf layer tile (l * tile.value.width + k)
    let below ← found .cell (cells.get? x.toNat y.toNat)
    let above ← rule sample below
    pure (cells.modify x.toNat y.toNat fun _ => above)
  else pure cells

/-- Applies a rule to every cell that a pixel of the tile falls on. -/
def paintTile (tile : Placed Tile) (cells : Raster α) : Except Fault (Raster α) :=
  (List.range tile.value.height).foldlM
    (fun cells l =>
      (List.range tile.value.width).foldlM
        (fun cells k => paintPixel layer rule width height tile l k cells) cells)
    cells

/-- Applies a rule to every cell that a pixel of the layer falls on. -/
def paint (cells : Raster α) : Except Fault (Raster α) :=
  layer.tiles.tiles.toList.zipIdx.foldlM
    (fun after (tile, i) => do
      paintTile layer rule cells.width cells.height (← placed layer.tiles tile i) after)
    cells

end Paint

/-- Puts the lowest visible layer onto a fresh canvas. -/
def paintBase (canvas : Canvas) (layer : Layer) (palette : Palette) : Except Fault Canvas := do
  let layer ← dissolved layer
  match canvas with
  | .indexed format entries cells =>
    let after ← paint layer (fun sample below => pure (layer.baseIndex entries sample below)) cells
    pure (.indexed format entries after)
  | .color hasAlpha cells =>
    let after ←
      paint layer (fun sample below => pure (layer.basePixel palette hasAlpha sample below)) cells
    pure (.color hasAlpha after)

/-- Composites a layer onto what lies below. -/
def mergeDown (canvas : Canvas) (layer : Layer) (palette : Palette) : Except Fault Canvas :=
  if layer.props.opacity = 0 || !canvas.accepts layer.kind then pure canvas
  else do
    let layer ← dissolved layer
    match canvas with
    | .indexed format entries cells =>
      let after ← paint layer (mergedIndex layer entries) cells
      pure (.indexed format entries after)
    | .color hasAlpha cells =>
      let after ← paint layer (mergedPixel layer palette hasAlpha) cells
      pure (.color hasAlpha after)

end Checked

end XcfFlatten
