import Mathlib.Data.List.Forall2
import XcfFlatten.File.LayerPixels
import XcfFlatten.Proofs.Canvas.Checked
import XcfFlatten.Proofs.File.Closed

/-!
# The shape of layers that are read

A file says how large a layer is, how many bytes there are to its pixels, where its tiles are and
what they hold, and it may say anything. But the tiles are cut along the size that the layer's
record gives, and each is put together from whatever bytes there are. So every layer that is read
has the same shape (`Layer.Decoded`): it is well-shaped, its indices have entries in the palette,
and its mask is as large as the layer. With `Proofs.Canvas.Checked`, no file makes the compositor
reach for anything that is not there (`LayerRecord.decoded_readLayer`). And where the kind of a
layer stores no alpha, its pixels are opaque, with missing bytes too (`LayerRecord.solid_readLayer`).

What readers give is followed from the bytes of one tile up to the layer (`Reader.Gives`).
-/

namespace XcfFlatten

/-! ### What readers give -/

namespace Reader

variable {α β : Type}

/-- Whatever the reader gives has the property. -/
def Gives (P : α → Prop) (reader : Reader α) : Prop :=
  ∀ ⦃data cursor a after⦄, reader data cursor = .ok (a, after) → P a

namespace Gives

variable {P : β → Prop} {Q : α → Prop} {x y : Reader β}

theorem pure {b : β} (h : P b) : Gives P (pure b) := by
  intro data cursor a after hb
  cases hb
  exact h

theorem throw (error : ReadError) : Gives P (throw error) := by
  intro data cursor a after h
  cases h

/-- What is read first has a property that is of use for the rest. -/
theorem bind_of {first : Reader α} {f : α → Reader β} (hfirst : Gives Q first)
    (hf : ∀ a, Q a → Gives P (f a)) : Gives P (first >>= f) := by
  intro data cursor b after h
  obtain ⟨a, middle, ha, hb⟩ := bind_eq_ok.mp h
  exact hf a (hfirst ha) hb

/-- What is read first may be of no use for the result. -/
theorem bind {first : Reader α} {f : α → Reader β} (hf : ∀ a, Gives P (f a)) :
    Gives P (first >>= f) := by
  intro data cursor b after h
  obtain ⟨a, middle, -, hb⟩ := bind_eq_ok.mp h
  exact hf a hb

/-- In either case the condition may be used. -/
theorem ite {c : Prop} [Decidable c] (hx : c → Gives P x) (hy : ¬ c → Gives P y) :
    Gives P (if c then x else y) := by
  split
  · next hc => exact hx hc
  · next hc => exact hy hc

end Gives

end Reader

/-! ### One tile -/

/-- An index that a tile may hold: one with an entry in the palette, or 0 if there are no entries at
all. -/
def Tile.HasEntry (paletteSize : Nat) (index : UInt8) : Prop :=
  index.toNat < paletteSize ∨ paletteSize = 0 ∧ index = 0

/-- An index that has been checked has an entry. -/
theorem Tile.hasEntry_checkedIndex (paletteSize : Nat) (index : UInt8) :
    HasEntry paletteSize (checkedIndex paletteSize index) := by
  unfold checkedIndex
  split
  · next hlt => exact Or.inl hlt
  · rcases Nat.eq_zero_or_pos paletteSize with hzero | hpos
    · exact Or.inr ⟨hzero, rfl⟩
    · exact Or.inl hpos

namespace TileContent

/-- The kind whose way of storing pixels the content uses. A mask is stored like gray levels. -/
def kind : TileContent → LayerKind
  | layer kind _ => kind
  | mask => .gray

/-- How large the palette is that indices refer to. -/
def paletteSize : TileContent → Nat
  | layer _ paletteSize => paletteSize
  | mask => 0

/-- A tile of the given size with the given content. -/
structure Holds (content : TileContent) (width height : Nat) (tile : Tile) : Prop where
  width_eq : tile.width = width
  height_eq : tile.height = height
  complete : tile.pixels.Complete content.kind (width * height)
  hasEntry : content.kind.isIndexed = true → ∀ i texel, tile.texel? i = some texel →
    Tile.HasEntry content.paletteSize texel.value
  solid : content.kind = .rgb ∨ content.kind = .gray → tile.pixels.Solid

/-- Indices beyond the palette do not get into a tile, whatever bytes it is put together from. -/
theorem hasEntry_texel?_assemble {kind : LayerKind} (hkind : kind.isIndexed = true)
    (width height : Nat) (data : Bytes) (stride paletteSize : Nat) {i : Nat} {texel : Texel}
    (htexel : (Tile.assemble kind width height data stride paletteSize).texel? i = some texel) :
    Tile.HasEntry paletteSize texel.value := by
  -- With alpha or without, an index is stored only after it has been checked.
  rcases LayerKind.isIndexed_iff.mp hkind with rfl | rfl
  · obtain ⟨v, hv, rfl⟩ := Option.map_eq_some_iff.mp htexel
    obtain ⟨hlt, hv⟩ := Array.getElem?_eq_some_iff.mp hv
    rw [Array.getElem_ofFn] at hv
    rw [Texel.value, ← hv]
    exact Tile.hasEntry_checkedIndex _ _
  · unfold Tile.texel? Tile.assemble at htexel
    dsimp only at htexel
    split at htexel
    · next v a hv ha =>
      cases htexel
      obtain ⟨hlt, hv⟩ := Array.getElem?_eq_some_iff.mp hv
      rw [Array.getElem_ofFn] at hv
      rw [Texel.value, ← hv]
      exact Tile.hasEntry_checkedIndex _ _
    · cases htexel

/-- A tile has a value for each of its pixels, and an alpha value if its kind has. -/
theorem complete_assemble (kind : LayerKind) (width height : Nat) (data : Bytes)
    (stride paletteSize : Nat) :
    (Tile.assemble kind width height data stride paletteSize).pixels.Complete kind
      (width * height) := by
  cases kind
  -- Every kind fills as many entries as there are pixels, in the channels that it has.
  case rgb => exact ⟨Or.inl rfl, Array.size_ofFn⟩
  case rgba => exact ⟨Or.inr rfl, Array.size_ofFn⟩
  case gray => exact ⟨Or.inl rfl, Array.size_ofFn⟩
  case indexed => exact ⟨Or.inr rfl, Array.size_ofFn⟩
  case grayAlpha => exact ⟨Or.inl rfl, Array.size_ofFn, Array.size_ofFn⟩
  case indexedAlpha => exact ⟨Or.inr rfl, Array.size_ofFn, Array.size_ofFn⟩

/-- **Tiles of any bytes.** A tile has the shape of its place, and the same depth and order of pixels,
however many bytes it is put together from and whatever they are. -/
theorem holds_assemble (content : TileContent) (width height : Nat) (data : Bytes)
    (stride : Nat) : content.Holds width height (content.assemble width height data stride) := by
  cases content with
  | layer kind paletteSize =>
    exact ⟨rfl, rfl, complete_assemble kind width height data stride paletteSize,
      fun hkind i texel => hasEntry_texel?_assemble hkind width height data stride paletteSize,
      fun hkind => Tile.solid_assemble hkind width height data stride paletteSize⟩
  | mask =>
    exact ⟨rfl, rfl, ⟨Or.inl rfl, Array.size_ofFn⟩, fun hkind => absurd hkind Bool.false_ne_true,
      fun _ => trivial⟩

/-- A blank tile has the shape of its place too. All its indices are 0. -/
theorem holds_blank (content : TileContent) (width height : Nat) :
    content.Holds width height (content.blank width height) := by
  cases content with
  | layer kind paletteSize =>
    refine ⟨rfl, rfl, complete_assemble kind width height _ _ 0, fun hkind i texel htexel => ?_,
      fun hkind => Tile.solid_assemble hkind width height _ _ 0⟩
    -- Put together from nothing, checked against no palette at all: only 0 is left, which is
    -- checked against the right palette again.
    have hzero : texel.value = 0 := by
      rcases hasEntry_texel?_assemble hkind width height _ _ 0 htexel with hlt | ⟨-, hzero⟩
      · exact absurd hlt (Nat.not_lt_zero _)
      · exact hzero
    have hchecked : Tile.checkedIndex paletteSize 0 = 0 := ite_self _
    rw [hzero, ← hchecked]
    exact Tile.hasEntry_checkedIndex paletteSize 0
  | mask => exact holds_assemble .mask width height #[] 1

end TileContent

/-! ### All tiles of a raster -/

namespace Hierarchy

/-- There is a size for each tile. -/
theorem length_tileSizes (width height : Nat) :
    (tileSizes width height).length = Tile.count height * Tile.count width := by
  rw [Nat.mul_comm]
  refine Dissolve.length_flatMap_lines _ (fun row => ?_) (Tile.count height)
  rw [List.length_map, List.length_range]

/-- The sizes of tiles are listed row by row. -/
theorem getElem?_tileSizes {width height row column : Nat} (hrow : row < Tile.count height)
    (hcolumn : column < Tile.count width) :
    (tileSizes width height)[row * Tile.count width + column]? =
      some (Tile.extent column width, Tile.extent row height) := by
  -- Each row of tiles has as many of them as the raster has columns of tiles.
  have hline : ∀ row, ((List.range (Tile.count width)).map fun column =>
      (Tile.extent column width, Tile.extent row height)).length = Tile.count width := by
    intro row
    rw [List.length_map, List.length_range]
  rw [tileSizes, Dissolve.getElem?_flatMap_lines _ hline hcolumn hrow, List.getElem?_map,
    List.getElem?_range hcolumn]
  rfl

/-- Every tile holds the content at the size that is listed for it. -/
def Tiled (content : TileContent) : List (Nat × Nat) → List Tile → Prop :=
  List.Forall₂ fun size tile => content.Holds size.1 size.2 tile

/-- Tiles are read one by one, each at the size that is due. -/
theorem readTiles_gives (window : Window) (content : TileContent) (compression : Compression)
    (channels total : Nat) (sizes : List (Nat × Nat)) (offset : Nat) (done : Array Tile) :
    Reader.Gives
      (fun tiles : Array Tile => ∃ new, tiles.toList = done.toList ++ new ∧ Tiled content sizes new)
      (readTiles window content compression channels total offset done sizes) := by
  -- By induction on the sizes still to come. What is done already has been put together before.
  induction sizes generalizing offset done with
  | nil =>
    have hall : done.toList = done.toList ++ [] ∧ Tiled content [] [] :=
      ⟨(List.append_nil _).symm, .nil⟩
    exact Reader.Gives.pure ⟨[], hall⟩
  | cons size sizes ih =>
    obtain ⟨width, height⟩ := size
    unfold readTiles
    refine Reader.Gives.ite (fun _ => Reader.Gives.throw _) fun _ => ?_
    refine Reader.Gives.bind fun next => Reader.Gives.bind fun resume => ?_
    refine Reader.Gives.bind fun bytes => Reader.Gives.bind fun _ => ?_
    intro data cursor tiles after htiles
    obtain ⟨new, hnew, hrest⟩ := ih next _ htiles
    refine ⟨content.assemble width height bytes channels :: new, ?_,
      .cons (content.holds_assemble width height bytes channels) hrest⟩
    rw [hnew, Array.toList_push, List.append_assoc]
    rfl

end Hierarchy

/-- A grid covers a raster of the given size with tiles of the given content. -/
structure TileContent.Fills (content : TileContent) (width height : Nat)
    (grid : TileGrid Tile) : Prop where
  covers : grid.Covers width height content.kind
  hasEntry : content.kind.isIndexed = true → ∀ {row column tile},
    grid.get? row column = some tile → ∀ {i texel}, tile.texel? i = some texel →
      Tile.HasEntry content.paletteSize texel.value
  solid : content.kind = .rgb ∨ content.kind = .gray → ∀ tile ∈ grid.tiles, tile.pixels.Solid

/-- **Tiles of a raster.** Tiles of the sizes that are listed for a raster cover it. -/
theorem Hierarchy.Tiled.fills {content : TileContent} {width height : Nat} {tiles : Array Tile}
    (h : Tiled content (tileSizes width height) tiles.toList) :
    content.Fills width height ⟨Tile.count height, Tile.count width, tiles⟩ := by
  have hholds : ∀ {row column tile},
      TileGrid.get? ⟨Tile.count height, Tile.count width, tiles⟩ row column = some tile →
      content.Holds (Tile.extent column width) (Tile.extent row height) tile := by
    intro row column tile htile
    obtain ⟨hrow, hcolumn⟩ := TileGrid.lt_of_get? htile
    have hplace : tiles.toList[row * Tile.count width + column]? = some tile := by
      rw [TileGrid.get?, if_pos ⟨hrow, hcolumn⟩] at htile
      rw [Array.getElem?_toList]
      exact htile
    have hsize := getElem?_tileSizes hrow hcolumn
    obtain ⟨hlt, hat⟩ := List.getElem?_eq_some_iff.mp hplace
    obtain ⟨hlt', hat'⟩ := List.getElem?_eq_some_iff.mp hsize
    -- The tile at a place goes with the size at this place.
    have hpair := h.get hlt' hlt
    rw [List.get_eq_getElem, List.get_eq_getElem, hat, hat'] at hpair
    exact hpair
  have hsize : tiles.size = Tile.count height * Tile.count width := by
    rw [← Array.length_toList, ← h.length_eq, length_tileSizes]
  constructor
  case covers =>
    refine ⟨rfl, rfl, hsize, fun htile => (hholds htile).width_eq,
      fun htile => (hholds htile).height_eq, fun htile => ?_⟩
    rw [(hholds htile).width_eq, (hholds htile).height_eq]
    exact (hholds htile).complete
  case hasEntry =>
    intro hkind row column tile htile i texel htexel
    exact (hholds htile).hasEntry hkind i texel htexel
  case solid =>
    intro hkind tile htile
    obtain ⟨row, column, hat⟩ := TileGrid.exists_get?_of_mem hsize htile
    exact (hholds hat).solid hkind

/-- A level covers its raster, whether its tiles are stored or blank. -/
theorem Hierarchy.readLevel_gives (window : Window) (width height channels : Nat)
    (content : TileContent) (compression : Compression) :
    Reader.Gives (content.Fills width height)
      (readLevel window width height channels content compression) := by
  unfold readLevel
  refine Reader.Gives.bind fun _ => Reader.Gives.bind fun _ => Reader.Gives.bind fun offset => ?_
  -- Stored or blank, there is a tile for every size.
  refine Reader.Gives.ite (fun _ => Reader.Gives.pure ?_) fun _ => ?_
  · apply Tiled.fills
    rw [Tiled, List.toList_toArray, List.forall₂_map_right_iff]
    exact List.forall₂_same.mpr fun size _ => content.holds_blank size.1 size.2
  · have htiles := readTiles_gives window content compression channels (tileSizes width height).length
      (tileSizes width height) offset #[]
    refine htiles.bind_of fun tiles ⟨new, hnew, hall⟩ => Reader.Gives.pure ?_
    apply Tiled.fills
    rw [hnew]
    exact hall

/-- A hierarchy is its first level. -/
theorem readHierarchy_gives (width height : Nat) (content : TileContent) (compression : Compression)
    (limits : Limits) (window : Window) :
    Reader.Gives (content.Fills width height)
      (readHierarchy width height content compression limits window) := by
  unfold readHierarchy
  refine Reader.Gives.bind fun _ => Reader.Gives.bind fun _ => ?_
  refine Reader.Gives.bind fun channels => Reader.Gives.bind fun level => ?_
  refine Reader.Gives.ite (fun _ => Reader.Gives.throw _) fun _ => ?_
  refine Reader.Gives.bind fun _ => Reader.Gives.bind fun resume => Reader.Gives.bind fun _ => ?_
  -- Where the reader goes on does not matter for what the level gave.
  refine (Hierarchy.readLevel_gives window width height channels content compression).bind_of ?_
  exact fun grid hgrid => Reader.Gives.bind fun _ => Reader.Gives.pure hgrid

/-! ### Masks and layers -/

/-- A mask is as large as its layer and cut the same way. -/
theorem readMask_gives (width height : Nat) (compression : Compression) (limits : Limits)
    (window : Window) :
    Reader.Gives
      (fun mask : Mask => (mask.width = width ∧ mask.height = height) ∧
        mask.tiles.Covers width height .gray)
      (readMask width height compression limits window) := by
  unfold readMask
  refine Reader.Gives.bind fun maskWidth => Reader.Gives.bind fun maskHeight => ?_
  refine Reader.Gives.bind fun name => Reader.Gives.bind fun props => ?_
  refine Reader.Gives.ite (fun _ => Reader.Gives.throw _) fun hsize => ?_
  -- A mask of another size has been refused.
  obtain ⟨rfl, rfl⟩ : maskWidth = width ∧ maskHeight = height := by
    constructor
    · exact Decidable.byContradiction fun hne => hsize (Or.inl hne)
    · exact Decidable.byContradiction fun hne => hsize (Or.inr hne)
  refine Reader.Gives.bind fun _ => Reader.Gives.bind fun _ => ?_
  refine (readHierarchy_gives _ _ .mask compression limits window).bind_of fun tiles htiles => ?_
  exact Reader.Gives.pure ⟨⟨rfl, rfl⟩, htiles.covers⟩

/-- What every layer is like that is read from a file whose palette has the given size. -/
structure Layer.Decoded (layer : Layer) (paletteSize : Nat) : Prop where
  /-- The tiles cover the layer, and those of the mask do so too. -/
  shaped : layer.WellShaped
  /-- No tile is empty, nor larger than a full one. -/
  tile_extents : ∀ {row column tile}, layer.tiles.get? row column = some tile →
    (1 ≤ tile.width ∧ tile.width ≤ 64) ∧ 1 ≤ tile.height ∧ tile.height ≤ 64
  /-- Every index has an entry in the palette, or is 0 if the palette is empty. -/
  hasEntry : layer.kind.isIndexed = true → ∀ {row column tile},
    layer.tiles.get? row column = some tile → ∀ {i texel}, tile.texel? i = some texel →
      Tile.HasEntry paletteSize texel.value
  /-- The mask is as large as the layer. -/
  mask_size : ∀ mask, layer.mask = some mask →
    mask.width = layer.width ∧ mask.height = layer.height
  /-- Only a mask that is there applies. -/
  mask_of_applies : layer.props.applyMask = .on → layer.mask.isSome = true

/-- A mask is applied only where there is one. -/
theorem MaskApply.hasMask_of_resolve {flag : MaskApply} {hasMask : Bool}
    (h : flag.resolve hasMask = .on) : hasMask = true := by
  cases hasMask with
  | true => rfl
  | false => cases h

namespace LayerRecord

variable (record : LayerRecord) (compression : Compression) (paletteSize : Nat) (limits : Limits)
  (window : Window)

/-- If a mask is read, it is as large as the layer. -/
theorem readMask?_gives :
    Reader.Gives
      (fun mask? : Option Mask => ∀ mask, mask? = some mask →
        (mask.width = record.width ∧ mask.height = record.height) ∧
          mask.tiles.Covers record.width record.height .gray)
      (record.readMask? compression limits window) := by
  unfold readMask?
  refine Reader.Gives.ite (fun _ => Reader.Gives.pure ?_) fun _ => Reader.Gives.bind fun _ => ?_
  · -- Without a place there is no mask.
    intro mask hmask
    cases hmask
  · refine (readMask_gives _ _ compression limits window).bind_of fun found hfound => ?_
    refine Reader.Gives.pure fun mask hmask => ?_
    cases hmask
    exact hfound

/-- What is read as a layer has the size and the kind of its record, and the shape of a decoded
layer. -/
theorem readLayer_gives :
    Reader.Gives
      (fun layer : Layer => (layer.width = record.width ∧ layer.height = record.height ∧
        layer.kind = record.kind) ∧ layer.Decoded paletteSize)
      (record.readLayer compression paletteSize limits window) := by
  unfold readLayer
  refine Reader.Gives.bind fun _ => Reader.Gives.bind fun _ => ?_
  refine (readHierarchy_gives _ _ _ compression limits window).bind_of fun tiles htiles => ?_
  refine (record.readMask?_gives compression limits window).bind_of fun mask hmask => ?_
  refine Reader.Gives.pure ⟨⟨rfl, rfl, rfl⟩, ?_⟩
  exact {
    shaped := ⟨htiles.covers, fun m hm => (hmask m hm).2⟩
    tile_extents := fun htile => htiles.covers.tile_extents htile
    hasEntry := htiles.hasEntry
    mask_size := fun m hm => (hmask m hm).1
    mask_of_applies := MaskApply.hasMask_of_resolve }

/-- Whatever a file holds, the pixels of a layer without alpha are opaque. -/
theorem solid_readLayer :
    Reader.Gives
      (fun layer : Layer => record.kind = .rgb ∨ record.kind = .gray → layer.Solid)
      (record.readLayer compression paletteSize limits window) := by
  unfold readLayer
  refine Reader.Gives.bind fun _ => Reader.Gives.bind fun _ => ?_
  refine (readHierarchy_gives _ _ _ compression limits window).bind_of fun tiles htiles => ?_
  exact Reader.Gives.bind fun _ => Reader.Gives.pure htiles.solid

/-- **Layers of any file.** Whatever a file holds, a layer that is read from it has the size and the
kind of its record, is well-shaped, has no index without an entry in the palette, and has a mask of
its own size or none. Compositing it onto any canvas, with every access, every divisor and every
alpha checked, therefore meets no fault. -/
theorem decoded_readLayer {data : Bytes} {cursor after : Cursor} {layer : Layer}
    (h : record.readLayer compression paletteSize {} Reader.bytesPadded data cursor =
      .ok (layer, after)) :
    (layer.width = record.width ∧ layer.height = record.height ∧ layer.kind = record.kind) ∧
      layer.Decoded paletteSize ∧
      ∀ (canvas : Canvas) (palette : Palette),
        Checked.paintBase canvas layer palette = .ok (canvas.paintBase layer palette) ∧
          Checked.mergeDown canvas layer palette = .ok (canvas.mergeDown layer palette) := by
  -- Its shape is all that the compositor asks for.
  obtain ⟨hrecord, hdecoded⟩ := record.readLayer_gives compression paletteSize {} _ h
  refine ⟨hrecord, hdecoded, fun canvas palette => ⟨?_, ?_⟩⟩
  · exact hdecoded.shaped.checked_paintBase canvas palette
  · exact hdecoded.shaped.checked_mergeDown canvas palette

/-- The pixels and the mask of a layer of one pixel. The hierarchy claims another size and one byte to
the pixel, the index in it has no entry in a palette of one colour, and the mask uses the same
hierarchy. -/
def misfitData : Bytes :=
  #[0, 0, 0, 9, 0, 0, 0, 9, 0, 0, 0, 1, 0, 0, 0, 20, 0, 0, 0, 0,
    0, 0, 0, 9, 0, 0, 0, 9, 0, 0, 0, 36, 0, 0, 0, 0,
    7,
    0, 0, 0, 1, 0, 0, 0, 1, 0, 0, 0, 0, 0, 0, 0, 0, 0, 0, 0, 0, 0, 0, 0, 0]

/-- The record of that layer. -/
def misfitRecord : LayerRecord where
  width := 1
  height := 1
  kind := .indexedAlpha
  props := {}
  hierarchyOffset := 0
  maskOffset := 37

/-- The layer is read, it has the size and the kind of the record, and it is composited without a
fault. -/
theorem decoded_readLayer_misfit :
    ∃ layer after, misfitRecord.readLayer .none 1 {} Reader.bytesPadded misfitData {} =
        .ok (layer, after) ∧
      (layer.width = 1 ∧ layer.height = 1 ∧ layer.kind = .indexedAlpha) ∧ layer.Decoded 1 ∧
      Checked.mergeDown (Canvas.filledColor 1 1 true Pixel.clear) layer #[Rgb.black] =
        .ok ((Canvas.filledColor 1 1 true Pixel.clear).mergeDown layer #[Rgb.black]) := by
  have hsome : (misfitRecord.readLayer .none 1 {} Reader.bytesPadded misfitData {}).toBool = true := by
    decide +kernel
  cases hread : misfitRecord.readLayer .none 1 {} Reader.bytesPadded misfitData {} with
  | error error =>
    rw [hread] at hsome
    cases hsome
  | ok found =>
    obtain ⟨hsize, hdecoded, hchecked⟩ := decoded_readLayer misfitRecord .none 1 hread
    exact ⟨found.1, found.2, rfl, hsize, hdecoded, (hchecked _ _).2⟩

end LayerRecord

end XcfFlatten
