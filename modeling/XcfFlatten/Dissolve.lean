import XcfFlatten.Tile

/-!
# Dissolving

Layers in dissolve mode are thinned out: a pixel is kept with a chance that grows with its alpha.
The random byte at a pixel depends on its place in the layer alone (`Dissolve.noise`), so that a
layer looks the same however it is cut into tiles.

The generator has a word of state and draws three times from a linear congruential sequence for each
output.
-/

namespace XcfFlatten

namespace Dissolve

/-- The linear congruential step. -/
def advance (state : UInt32) : UInt32 := state * 1103515245 + 12345

/-- The state after one output. -/
def nextState (state : UInt32) : UInt32 := advance (advance (advance state))

/-- The output drawn from a state: 11 bits of the first step, then 10 each of the next two. -/
def draw (state : UInt32) : UInt32 :=
  let first := advance state
  let second := advance first
  let third := advance second
  let high := first / 65536 % 2048
  let middle := (high <<< 10) ^^^ (second / 65536 % 1024)
  (middle <<< 10) ^^^ (third / 65536 % 1024)

/-- The state after `n` outputs. -/
def skip : Nat → UInt32 → UInt32
  | 0, state => state
  | n + 1, state => skip n (nextState state)

/-- How many rows have a seed of their own. Later rows begin again with the first. -/
def seedCount : Nat := 4096

/-- The first `n` outputs from a state. -/
def outputs : Nat → UInt32 → List UInt32
  | 0, _ => []
  | n + 1, state => draw state :: outputs n (nextState state)

/-- One step of the shuffle: swaps entry `i` with one at or after it that is drawn from the
state. -/
def shuffleStep (table : Array UInt32 × UInt32) (i : Nat) : Array UInt32 × UInt32 :=
  let (seeds, state) := table
  let other := i + (draw state).toNat % (seedCount - i)
  (seeds.swapIfInBounds i other, nextState state)

/-- The seeds of the rows: outputs from a fixed state, shuffled with the outputs that follow. -/
def rowSeeds : Array UInt32 :=
  let start : UInt32 := 314159265
  let seeds := (outputs seedCount start).toArray
  ((List.range seedCount).foldl shuffleStep (seeds, skip seedCount start)).1

/-- The seed of a layer's row. -/
def rowSeed (y : Nat) : UInt32 := rowSeeds.getD (y % seedCount) 0

/-- The random byte at column `x` and row `y` of a layer. -/
def noise (x y : Nat) : UInt8 := (draw (skip x (rowSeed y))).toUInt8

/-- The random bytes of the rectangle of a layer whose first pixel is at column `x` and row `y`, row
by row. -/
def noiseBlock (x y width height : Nat) : Array UInt8 :=
  ((List.range height).flatMap fun l =>
    (outputs width (skip x (rowSeed (y + l)))).map UInt32.toUInt8).toArray

/-- The alpha of a pixel after dissolving: kept if the random byte is at most the alpha. -/
def keep (alpha random : UInt8) : UInt8 := if alpha < random then 0 else alpha

end Dissolve

/-- Dissolves a tile whose first pixel is at column `x` and row `y` of its layer. A tile without
alpha stays as it is. -/
def Tile.dissolve (tile : Tile) (x y : Nat) : Tile :=
  let random := Dissolve.noiseBlock x y tile.width tile.height
  { tile with
    pixels :=
      match tile.pixels with
      | .color pixels =>
        .color
          (Array.zipWith (fun p r => { p with alpha := Dissolve.keep p.alpha r }) pixels random)
      | .levelAlpha levels alphas => .levelAlpha levels (Array.zipWith Dissolve.keep alphas random)
      | .level levels => .level levels }

end XcfFlatten
