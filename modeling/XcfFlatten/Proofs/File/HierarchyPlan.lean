import XcfFlatten.Proofs.File.Appended
import XcfFlatten.Proofs.File.CutTiles
import XcfFlatten.Proofs.File.LayerShape
import XcfFlatten.Proofs.File.RunGrammar
import XcfFlatten.Proofs.File.Takes

/-!
# Stored hierarchies

A file says where the parts of a hierarchy are: where the level is that counts, and where each of its
tiles is. The parts may be anywhere, with anything between them, as long as each tile ends before the
next one begins and not too far from it. The sizes next to them are of no consequence.

A `HierarchyPlan` is what the file says, and `HierarchyPlan.IsAt` that there is what it says. Reading
goes through the table of tiles: at each of its entries it looks at the next one, which says how long
the tile may be, goes to the tile and comes back (`Hierarchy.takes_tiles`). So the raster is read back
(`HierarchyPlan.texelAt?_readHierarchy`), whichever way its tiles are split into runs.
-/

namespace XcfFlatten

/-! ### Tiles in a file -/

/-- The bytes as which a tile may be stored: its own as they are, or records for each of its
channels. -/
def CutTile.StoredAs (compression : Compression) (channels : Nat) (tile : CutTile)
    (part : List UInt8) : Prop :=
  match compression with
  | .none => part = tile.bytes.toList
  | .rle => ∃ planes, RunRecord.Planes (tile.width * tile.height) channels tile.bytes planes ∧
      part = planes.flatMap RunRecord.storedAll
  | .zlib | .fractal => False

/-- Runs at a place do not reach the next tile, and that is not too far away. The last tile has no
next one, and its runs must not be too long. -/
def Hierarchy.Spaced (place length : Nat) : (next : Option Nat) → Prop
  | none => length ≤ maxTileLength
  | some next => place + length ≤ next ∧ next ≤ place + maxTileLength

instance (place length : Nat) : (next : Option Nat) → Decidable (Hierarchy.Spaced place length next)
  | none => inferInstanceAs (Decidable (length ≤ _))
  | some next => inferInstanceAs (Decidable (place + length ≤ next ∧ next ≤ _))

/-- The data has tiles at the places of a table. -/
inductive Hierarchy.TilesAt (data : Bytes) (version : Nat) (compression : Compression)
    (channels : Nat) : List Nat → List CutTile → Prop
  | nil : TilesAt data version compression channels [] []
  | cons {place : Nat} {places : List Nat} {tile : CutTile} {tiles : List CutTile}
      {part : List UInt8} (hplace : place ≠ 0 ∧ Layout.FitsOffset version place)
      (hstored : tile.StoredAs compression channels part) (hat : data.HasAt place part)
      (hspaced : compression = .rle → Spaced place part.length places.head?)
      (h : TilesAt data version compression channels places tiles) :
      TilesAt data version compression channels (place :: places) (tile :: tiles)

/-- Where the parts of a hierarchy are, and the sizes next to them. -/
structure HierarchyPlan where
  width : UInt32
  height : UInt32
  /-- Where the level is that counts. -/
  level : Nat
  /-- Where the other levels are. -/
  others : List Nat
  levelWidth : UInt32
  levelHeight : UInt32
  /-- Where the tiles of the level are, row by row. -/
  tiles : List Nat

namespace HierarchyPlan

/-- The beginning of the hierarchy: sizes, depth and the list of levels. -/
def head (plan : HierarchyPlan) (version channels : Nat) : List UInt8 :=
  Layout.word plan.width.toNat ++ (Layout.word plan.height.toNat ++ (Layout.word channels ++
    (Layout.offset version plan.level ++
      (plan.others.flatMap (Layout.offset version) ++ Layout.offset version 0))))

/-- The beginning of the level: sizes and the table of tiles. -/
def table (plan : HierarchyPlan) (version : Nat) : List UInt8 :=
  Layout.word plan.levelWidth.toNat ++ (Layout.word plan.levelHeight.toNat ++
    (plan.tiles.flatMap (Layout.offset version) ++ Layout.offset version 0))

/-- The data has a hierarchy of the given tiles at a place, with its parts where the plan says. -/
structure IsAt (plan : HierarchyPlan) (data : Bytes) (version place : Nat)
    (compression : Compression) (channels : Nat) (tiles : List CutTile) : Prop where
  head_at : data.HasAt place (plan.head version channels)
  level_fits : Layout.FitsOffset version plan.level
  others_fit : ∀ other ∈ plan.others, other ≠ 0 ∧ Layout.FitsOffset version other
  table_at : data.HasAt plan.level (plan.table version)
  tiles_at : Hierarchy.TilesAt data version compression channels plan.tiles tiles

end HierarchyPlan

/-! ### Reading tiles -/

section

variable {compression : Compression} {data : Bytes} {version start place channels : Nat}

namespace Hierarchy

/-- A tile is read back from its place, be it the last one or followed by another. -/
theorem takes_tileData (hchannels : 0 < channels) {tile : CutTile} (hfits : tile.Fits channels)
    {part : List UInt8} (hstored : tile.StoredAs compression channels part)
    (h : data.HasAt place part) {next : Option Nat} (hnext : next ≠ some 0)
    (hspaced : compression = .rle → Spaced place part.length next) :
    ∃ stop, (readTileData Reader.bytesPadded compression (tile.width * tile.height) channels place
      (next.getD 0)).Takes data version start stop tile.bytes := by
  cases compression with
  | none =>
    -- Without compression, the number of bytes follows from the size of the tile.
    obtain rfl : part = tile.bytes.toList := hstored
    have hbytes := Reader.Takes.bytes h version
    rw [Array.length_toList, hfits.size_eq, Array.toArray_toList] at hbytes
    exact ⟨_, (Reader.Takes.seek place).bind hbytes⟩
  | rle =>
    obtain ⟨planes, hplanes, rfl⟩ := hstored
    have hpos := hplanes.length_flatMap_pos (Nat.mul_pos hfits.width_pos hfits.height_pos) hchannels
    have hdecode := RunLength.decodeTile_planes hplanes hfits.size_eq
    generalize planes.flatMap RunRecord.storedAll = runs at h hspaced hpos hdecode
    have hspaced := hspaced rfl
    -- Up to the next tile, or as far as a tile may reach, the runs come first.
    generalize hstop : (if next.getD 0 = 0 then place + maxTileLength else next.getD 0) = stop
    have hroom : runs.length ≤ stop - place ∧ stop - place ≤ maxTileLength := by
      cases next with
      | none =>
        have hlength : runs.length ≤ maxTileLength := hspaced
        rw [Option.getD_none, if_pos rfl] at hstop
        omega
      | some next =>
        have hlength : place + runs.length ≤ next ∧ next ≤ place + maxTileLength := hspaced
        rw [Option.getD_some, if_neg (fun hzero => hnext (congrArg some hzero))] at hstop
        omega
    obtain ⟨more, found, after, hfound, hwindow⟩ := Reader.Takes.bytesPadded h hroom.1
    refine ⟨after, ?_⟩
    unfold Reader.Takes
    rw [readTileData_rle Reader.bytesPadded (tile.width * tile.height) channels hstop (by omega)
      hwindow (Or.inl (by omega)), hdecode more]
    rfl
  | zlib => exact hstored.elim
  | fractal => exact hstored.elim

/-- Reading a tile: the reader looks at the next entry of the table, goes to the tile and comes
back. -/
theorem takes_tiles_cons {content : TileContent} {total resume after stop next : Nat}
    {done result : Array Tile} {tile : CutTile} {sizes : List (Nat × Nat)} (hplace : place ≠ 0)
    (hoffset : Reader.offset.Takes data version start resume next)
    (htile : (readTileData Reader.bytesPadded compression (tile.width * tile.height) channels place
      next).Takes data version resume after tile.bytes)
    (hrest : (readTiles Reader.bytesPadded content compression channels total next
      (done.push (content.assemble tile.width tile.height tile.bytes channels)) sizes).Takes data
        version resume stop result) :
    (readTiles Reader.bytesPadded content compression channels total place done
      ((tile.width, tile.height) :: sizes)).Takes data version start stop result := by
  unfold readTiles
  rw [if_neg hplace]
  refine hoffset.bind ?_
  refine Reader.Takes.position.bind ?_
  refine htile.bind ?_
  -- The table is gone on with where it was left for the tile.
  exact (Reader.Takes.seek resume).bind hrest

/-- Tiles are read one after another, each from its place in the table. The reader stands at the
table's second entry: the first is known. -/
theorem takes_tiles (hchannels : 0 < channels) (content : TileContent) (total : Nat)
    {places : List Nat} {tile : CutTile} {tiles : List CutTile}
    (h : TilesAt data version compression channels (place :: places) (tile :: tiles))
    (hfits : ∀ t ∈ tile :: tiles, t.Fits channels)
    (htable : data.HasAt start
      (places.flatMap (Layout.offset version) ++ Layout.offset version 0))
    (done : Array Tile) :
    ∃ stop, (readTiles Reader.bytesPadded content compression channels total place done
      ((tile :: tiles).map fun t => (t.width, t.height))).Takes data version start stop
        (done ++ (tile :: tiles).map fun t =>
          content.assemble t.width t.height t.bytes channels) := by
  -- The induction goes along the table; the first tile of what is left is the one that is known.
  induction places generalizing tile tiles place start done with
  | nil =>
    -- Behind the last tile comes the zero that ends the table.
    cases h with
    | cons hplace hstored hat hspaced hrest =>
      cases hrest
      have hoffset := Reader.Takes.offset htable (Nat.two_pow_pos 32)
      have hend : (none : Option Nat) ≠ some 0 := nofun
      obtain ⟨after, htile⟩ := takes_tileData hchannels (hfits tile List.mem_cons_self) hstored hat
        hend hspaced
      exact ⟨_, takes_tiles_cons hplace.1 hoffset htile (Reader.Takes.pure _)⟩
  | cons next places ih =>
    cases h with
    | cons hplace hstored hat hspaced hrest =>
      have hsecond := hrest
      cases hsecond with
      | cons hnext _ _ _ _ =>
        rw [List.flatMap_cons, List.append_assoc] at htable
        have hoffset := Reader.Takes.offset_of_fits htable.left hnext.2
        obtain ⟨after, htile⟩ := takes_tileData hchannels (hfits tile List.mem_cons_self) hstored
          hat (fun hzero => hnext.1 (Option.some.inj hzero)) hspaced
        obtain ⟨stop, hread⟩ := ih hrest (fun t ht => hfits t (List.mem_cons_of_mem _ ht))
          htable.right (done.push (content.assemble tile.width tile.height tile.bytes channels))
        have hdone : ∀ (t : Tile) (more : List Tile), done.push t ++ more = done ++ t :: more :=
          fun t more => rfl
        rw [hdone] at hread
        exact ⟨stop, takes_tiles_cons hplace.1 hoffset htile hread⟩

/-- A level is read back as the tiles of its raster. -/
theorem takes_level (hchannels : 0 < channels) (content : TileContent) {width height : Nat}
    {pixels : Bytes} (hpixels : pixels.size = width * height * channels) {plan : HierarchyPlan}
    (htable : data.HasAt plan.level (plan.table version))
    (htiles : TilesAt data version compression channels plan.tiles
      (TileGrid.cuts width height channels pixels)) :
    ∃ stop, (readLevel Reader.bytesPadded width height channels content compression).Takes data
      version plan.level stop (TileGrid.cut width height channels pixels fun w h bytes =>
        content.assemble w h bytes channels) := by
  have hfits : ∀ tile ∈ TileGrid.cuts width height channels pixels, tile.Fits channels :=
    fun tile => TileGrid.fits_of_mem_cuts hpixels
  have hsizes := tileSizes_eq_map_cuts width height channels pixels
  rw [TileGrid.cut_eq]
  -- From here on only the sizes of the cut tiles matter, not how they were cut.
  generalize TileGrid.cuts width height channels pixels = tiles at htiles hfits hsizes
  unfold HierarchyPlan.table at htable
  have hplaces := htable.right.right
  unfold readLevel
  rw [hsizes]
  generalize plan.tiles = places at htiles hplaces
  refine (Reader.Takes.int32 htable.left plan.levelWidth.toNat_lt).exists_bind ?_
  refine (Reader.Takes.int32 htable.right.left plan.levelHeight.toNat_lt).exists_bind ?_
  cases htiles with
  | nil =>
    -- A raster without pixels has no tiles, and its level is taken for a blank one.
    have hoffset := Reader.Takes.offset hplaces (Nat.two_pow_pos 32)
    exact ⟨_, hoffset.bind (Reader.Takes.pure _)⟩
  | @cons place places tile tiles part hplace hstored hat hspaced hrest =>
    rw [List.flatMap_cons, List.append_assoc] at hplaces
    refine (Reader.Takes.offset_of_fits hplaces.left hplace.2).exists_bind ?_
    obtain ⟨stop, hread⟩ := takes_tiles hchannels content
      ((tile :: tiles).map fun tile => (tile.width, tile.height)).length
      (.cons hplace hstored hat hspaced hrest) hfits hplaces.right #[]
    rw [List.toArray_appendList, List.nil_append] at hread
    dsimp only
    rw [if_neg hplace.1]
    exact ⟨stop, hread.bind (Reader.Takes.pure _)⟩

/-- The list of levels is passed over, if there are not too many of them. -/
theorem takes_skipLevels (limits : Limits) {others : List Nat}
    (hothers : ∀ other ∈ others, other ≠ 0 ∧ Layout.FitsOffset version other) {room : Nat}
    (hroom : others.length ≤ room)
    (h : data.HasAt start (others.flatMap (Layout.offset version) ++ Layout.offset version 0)) :
    (skipLevels limits room).Takes data version start
      (start + (others.flatMap (Layout.offset version) ++ Layout.offset version 0).length) () := by
  induction others generalizing room start with
  | nil =>
    have hend := Reader.Takes.offset h (Nat.two_pow_pos 32)
    -- The zero at the end is read even where no further level is allowed.
    cases room with
    | zero => exact hend.bind (Reader.Takes.pure ())
    | succ room => exact hend.bind (Reader.Takes.pure ())
  | cons other others ih =>
    obtain ⟨room, rfl⟩ := Nat.exists_eq_add_one_of_ne_zero (Nat.ne_zero_of_lt hroom)
    obtain ⟨hne, hfits⟩ := hothers other List.mem_cons_self
    rw [List.flatMap_cons, List.append_assoc] at h ⊢
    rw [List.length_append, ← Nat.add_assoc]
    refine (Reader.Takes.offset_of_fits h.left hfits).bind ?_
    rw [if_pos hne]
    exact ih (fun o ho => hothers o (List.mem_cons_of_mem _ ho)) (Nat.le_of_succ_le_succ hroom)
      h.right

/-- A longer list of levels is refused. -/
theorem skipLevels_of_lt (limits : Limits) {others : List Nat}
    (hothers : ∀ other ∈ others, other ≠ 0 ∧ Layout.FitsOffset version other) {room : Nat}
    (hroom : room < others.length)
    (h : data.HasAt start (others.flatMap (Layout.offset version) ++ Layout.offset version 0)) :
    skipLevels limits room data ⟨start, version⟩ = .error (.tooManyLevels limits.maxLevels) := by
  induction others generalizing room start with
  | nil => exact absurd hroom (Nat.not_lt_zero room)
  | cons other others ih =>
    obtain ⟨hne, hfits⟩ := hothers other List.mem_cons_self
    rw [List.flatMap_cons, List.append_assoc] at h
    have hoffset := Reader.Takes.offset_of_fits h.left hfits
    cases room with
    | zero =>
      -- There is room for none, and the list has one.
      refine hoffset.bind_eq ?_
      rw [if_pos hne]
      rfl
    | succ room =>
      refine hoffset.bind_eq ?_
      rw [if_pos hne]
      exact ih (fun o ho => hothers o (List.mem_cons_of_mem _ ho)) (Nat.lt_of_succ_lt_succ hroom)
        h.right

/-- What is left of reading a hierarchy behind its list of levels: to read the level at a place, and
to come back. -/
def readLevelAt (window : Window) (width height channels : Nat) (content : TileContent)
    (compression : Compression) (level resume : Nat) : Reader (TileGrid Tile) := do
  Reader.seek level
  let grid ← readLevel window width height channels content compression
  Reader.seek resume
  pure grid

end Hierarchy

namespace HierarchyPlan

variable {plan : HierarchyPlan}

section Head

variable (window : Window) (content : TileContent) (limits : Limits) (width height : Nat)
  (hchannels : 1 ≤ channels ∧ channels ≤ 4) (hlevel : Layout.FitsOffset version plan.level)
  (hothers : ∀ other ∈ plan.others, other ≠ 0 ∧ Layout.FitsOffset version other)
  (h : data.HasAt place (plan.head version channels))

include hchannels hlevel h

/-- The head of a hierarchy is read up to its list of levels, and what the rest does decides. -/
theorem readHierarchy_eq_of_skipLevels {result : Except ReadError (TileGrid Tile × Cursor)}
    (hrest : ∀ start, data.HasAt start
        (plan.others.flatMap (Layout.offset version) ++ Layout.offset version 0) →
      start + (plan.others.flatMap (Layout.offset version) ++ Layout.offset version 0).length =
        place + (plan.head version channels).length →
      (do
        Hierarchy.skipLevels limits (limits.maxLevels - 1)
        let resume ← Reader.position
        Hierarchy.readLevelAt window width height channels content compression plan.level resume)
          data ⟨start, version⟩ = result) :
    readHierarchy width height content compression limits window data ⟨place, version⟩ = result := by
  have hplace := h.right.right.right
  refine (Reader.Takes.int32 h.left plan.width.toNat_lt).bind_eq ?_
  refine (Reader.Takes.int32 h.right.left plan.height.toNat_lt).bind_eq ?_
  refine (Reader.Takes.word h.right.right.left (by omega)).bind_eq ?_
  refine (Reader.Takes.offset_of_fits hplace.left hlevel).bind_eq ?_
  rw [if_neg (by omega)]
  -- Size, depth and first level have been read; the further levels come next.
  refine hrest _ hplace.right ?_
  unfold head
  simp only [List.length_append, ← Nat.add_assoc]

include hothers

/-- If there are not too many levels, the one that counts is read. -/
theorem readHierarchy_of_le (hlevels : plan.others.length ≤ limits.maxLevels - 1) :
    readHierarchy width height content compression limits window data ⟨place, version⟩ =
      Hierarchy.readLevelAt window width height channels content compression plan.level
        (place + (plan.head version channels).length) data
        ⟨place + (plan.head version channels).length, version⟩ := by
  refine readHierarchy_eq_of_skipLevels window content limits width height hchannels hlevel h
    fun start hlist hstop => ?_
  have hskip := Hierarchy.takes_skipLevels limits hothers hlevels hlist
  rw [hstop] at hskip
  exact hskip.bind_eq (Reader.Takes.position.bind_eq rfl)

/-- If there are more, the hierarchy is refused. -/
theorem readHierarchy_of_lt (hlevels : limits.maxLevels - 1 < plan.others.length) :
    readHierarchy width height content compression limits window data ⟨place, version⟩ =
      .error (.tooManyLevels limits.maxLevels) := by
  refine readHierarchy_eq_of_skipLevels window content limits width height hchannels hlevel h
    fun start hlist _ => ?_
  rw [Reader.bind_apply, Hierarchy.skipLevels_of_lt limits hothers hlevels hlist]
  rfl

end Head

/-- The hierarchy is read back as the raster cut into tiles, and the reader goes on behind its list
of levels. -/
theorem takes_readHierarchy (content : TileContent) (limits : Limits)
    (hlevels : plan.others.length ≤ limits.maxLevels - 1)
    (hchannels : 1 ≤ channels ∧ channels ≤ 4) {width height : Nat} {pixels : Bytes}
    (hpixels : pixels.size = width * height * channels)
    (h : plan.IsAt data version place compression channels
      (TileGrid.cuts width height channels pixels)) :
    (readHierarchy width height content compression limits).Takes data version place
      (place + (plan.head version channels).length)
      (TileGrid.cut width height channels pixels fun w h bytes =>
        content.assemble w h bytes channels) := by
  obtain ⟨stop, hread⟩ := Hierarchy.takes_level hchannels.1 content hpixels h.table_at h.tiles_at
  unfold Reader.Takes
  rw [readHierarchy_of_le _ content limits width height hchannels h.level_fits h.others_fit
    h.head_at hlevels]
  -- The level is sought, read, and left again for the end of the head.
  refine (Reader.Takes.seek plan.level).bind ?_
  exact hread.bind ((Reader.Takes.seek _).bind (Reader.Takes.pure _))

/-- **Stored hierarchies.** Reading gives a grid that covers the raster, and the pixel of the grid at
every position is what the raster's bytes there stand for. The reader goes on behind the list of
levels. -/
theorem texelAt?_readHierarchy (content : TileContent) (hlevels : plan.others.length ≤ 31)
    (hchannels : 1 ≤ channels ∧ channels ≤ 4) {width height : Nat} {pixels : Bytes}
    (hpixels : pixels.size = width * height * channels)
    (h : plan.IsAt data version place compression channels
      (TileGrid.cuts width height channels pixels)) :
    ∃ grid, (readHierarchy width height content compression {}).Takes data version place
        (place + (plan.head version channels).length) grid ∧
      grid.Covers width height content.kind ∧
      ∀ x < width, ∀ y < height,
        grid.texelAt? x y = some (content.texel (pixelBytes pixels channels (y * width + x))) := by
  have hread := takes_readHierarchy content {} hlevels hchannels hpixels h
  -- The shape of the grid holds for every hierarchy that is read, stored after a plan or not.
  have hfills := readHierarchy_gives width height content compression {} _ hread
  exact ⟨_, hread, hfills.covers, fun x hx y hy =>
    TileGrid.texelAt?_cut content hchannels.1 hpixels hx hy⟩

/-- A hierarchy of two tiles, the second of which is one pixel wide, with gaps between its parts. -/
def gapped : HierarchyPlan where
  width := 3
  height := 9
  level := 40
  others := [5]
  levelWidth := 0
  levelHeight := 1
  tiles := [75, 80]

/-- Its data: the first tile repeats a byte, the second is a literal run. -/
def gappedData : Bytes :=
  (gapped.head 11 1 ++ [1, 2, 3, 4] ++ gapped.table 11 ++ [5, 6, 7] ++ [63, 7] ++ [8, 9, 10] ++
    [255, 9]).toArray

/-- The raster of 65 pixels that is stored. -/
def gappedRaster : Bytes := Array.replicate 64 7 ++ #[9]

/-- The data follow the plan: both tiles stand where the table says, with unused bytes between them.
-/
theorem gapped_isAt :
    gapped.IsAt gappedData 11 0 .rle 1 (TileGrid.cuts 65 1 1 gappedRaster) := by
  have hcuts : TileGrid.cuts 65 1 1 gappedRaster =
      [⟨64, 1, Array.replicate 64 7⟩, ⟨1, 1, #[9]⟩] := by decide +kernel
  -- The first tile is a run of one byte, the second a literal one.
  have hfirst : RunRecord.Planes (64 * 1) 1 (Array.replicate 64 7)
      [[.repeated 64 7 (by decide)]] := by
    refine ⟨fun records h => ?_, by decide +kernel⟩
    cases List.mem_singleton.mp h
    exact ⟨rfl, fun record h => by cases h; decide⟩
  have hsecond : RunRecord.Planes (1 * 1) 1 #[9] [[.literal [9] (by decide)]] := by
    refine ⟨fun records h => ?_, by decide +kernel⟩
    cases List.mem_singleton.mp h
    exact ⟨rfl, fun record h => by cases h; decide⟩
  rw [hcuts]
  refine ⟨⟨[], _, rfl, rfl⟩, by decide, by decide,
    ⟨gapped.head 11 1 ++ [1, 2, 3, 4], _, rfl, rfl⟩, ?_⟩
  refine .cons (by decide) ⟨_, hfirst, rfl⟩
    ⟨gapped.head 11 1 ++ [1, 2, 3, 4] ++ gapped.table 11 ++ [5, 6, 7], _, rfl, rfl⟩
    (fun _ => by decide) (.cons (by decide) ⟨_, hsecond, rfl⟩ ?_ (fun _ => by decide) .nil)
  exact ⟨gapped.head 11 1 ++ [1, 2, 3, 4] ++ gapped.table 11 ++ [5, 6, 7] ++ [63, 7] ++ [8, 9, 10],
    _, rfl, rfl⟩

/-- The pixels on either side of the edge between the two tiles are read back. -/
theorem texelAt?_readHierarchy_gapped :
    ∃ grid, (readHierarchy 65 1 (.layer .gray 0) .rle {}).Takes gappedData 11 0 36 grid ∧
      grid.texelAt? 63 0 = some (.level 7) ∧ grid.texelAt? 64 0 = some (.level 9) := by
  obtain ⟨grid, hread, -, hpixels⟩ := texelAt?_readHierarchy (.layer .gray 0) (by decide) (by decide)
    (by decide +kernel) gapped_isAt
  refine ⟨grid, hread, ?_, ?_⟩
  · rw [hpixels 63 (by decide) 0 (by decide)]
    decide +kernel
  · rw [hpixels 64 (by decide) 0 (by decide)]
    decide +kernel

end HierarchyPlan

end

end XcfFlatten
