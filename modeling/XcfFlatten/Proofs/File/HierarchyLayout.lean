import XcfFlatten.Proofs.File.HierarchyPlan
import XcfFlatten.Proofs.File.LiteralRuns

/-!
# Hierarchies that are laid out

The tiles of a raster are laid out one behind the other with a table of their places in front. This
is a plan with one level next to the one that counts (`HierarchyPlan.isAt_laidOut`). So the hierarchy
of a raster is read back as the raster cut into tiles (`takes_hierarchy`), whether the tiles hold
literal runs or their bytes as they are.
-/

namespace XcfFlatten

/-! ### Tables of tiles -/

namespace Layout

/-- The places of tiles that are one behind the other. -/
def tilePlaces : (place : Nat) → List (List UInt8) → List Nat
  | _, [] => []
  | place, tile :: tiles => place :: tilePlaces (place + tile.length) tiles

/-- A table of tiles holds their places and a zero behind them. -/
theorem tileTable_eq (version place : Nat) (tiles : List (List UInt8)) :
    tileTable version place tiles =
      (tilePlaces place tiles).flatMap (offset version) ++ offset version 0 := by
  induction tiles generalizing place with
  | nil => rfl
  | cons tile tiles ih => rw [tileTable, ih, tilePlaces, List.flatMap_cons, List.append_assoc]

/-- A table of tiles has an offset for each of them and one for the end. -/
theorem length_tileTable (version place : Nat) (tiles : List (List UInt8)) :
    (tileTable version place tiles).length = (tiles.length + 1) * offsetWidth version := by
  induction tiles generalizing place with
  | nil => rw [tileTable, length_offset, List.length_nil, Nat.zero_add, Nat.one_mul]
  | cons tile tiles ih =>
    rw [tileTable, List.length_append, length_offset, ih, List.length_cons, Nat.add_comm,
      ← Nat.succ_mul]

end Layout

/-! ### Tiles -/

/-- The tile as it is laid out. -/
def CutTile.stored (compression : Compression) (channels : Nat) (tile : CutTile) : List UInt8 :=
  Layout.tile compression (tile.width * tile.height) channels tile.bytes

/-- The tiles that are laid out are those that the raster is cut into. -/
theorem Layout.tiles_eq_map_cuts (compression : Compression) (width height channels : Nat)
    (data : Bytes) :
    tiles compression width height channels data =
      (TileGrid.cuts width height channels data).map (CutTile.stored compression channels) := by
  rw [TileGrid.cuts, List.map_flatMap]
  simp only [List.map_map]
  rfl

section

variable {compression : Compression} {data : Bytes} {version place channels : Nat}
  (hcompression : compression = .none ∨ compression = .rle)
  (hchannels : 0 < channels ∧ channels ≤ 4) (hsize : data.size < 2 ^ 32)

namespace CutTile

variable {tile : CutTile}

include hcompression in
/-- What is laid out for a tile is an encoding of it. -/
theorem storedAs_stored : tile.StoredAs compression channels (tile.stored compression channels) := by
  rcases hcompression with rfl | rfl
  · rfl
  · exact exists_planes_tile tile.bytes (tile.width * tile.height) channels

include hchannels in
/-- As literal runs, a tile takes no more bytes than tiles are allowed to. -/
theorem Fits.length_stored (h : tile.Fits channels) :
    (tile.stored .rle channels).length ≤ Hierarchy.maxTileLength :=
  Layout.length_tile_le tile.bytes (Nat.mul_le_mul h.width_le h.height_le) hchannels.2

end CutTile

include hcompression hchannels hsize in
/-- Tiles that are laid out one behind the other are at their places. -/
theorem Hierarchy.tilesAt_tilePlaces {tiles : List CutTile} (hfits : ∀ t ∈ tiles, t.Fits channels)
    (hplace : 0 < place)
    (h : data.HasAt place (tiles.map (CutTile.stored compression channels)).flatten) :
    TilesAt data version compression channels
      (Layout.tilePlaces place (tiles.map (CutTile.stored compression channels))) tiles := by
  induction tiles generalizing place with
  | nil => exact .nil
  | cons tile tiles ih =>
    rw [List.map_cons, List.flatten_cons] at h
    rw [List.map_cons, Layout.tilePlaces]
    have hlt : place < 2 ^ 32 :=
      Nat.lt_of_le_of_lt (Nat.le_of_add_right_le h.left.le_size) hsize
    refine .cons ⟨Nat.ne_of_gt hplace, Layout.fitsOffset_of_lt version hlt⟩
      (CutTile.storedAs_stored hcompression) h.left (fun hrle => ?_)
      (ih (fun t ht => hfits t (List.mem_cons_of_mem _ ht)) (Nat.add_pos_left hplace _) h.right)
    -- The next tile begins right where this one ends.
    subst hrle
    have hlength := (hfits tile List.mem_cons_self).length_stored hchannels
    cases tiles with
    | nil => exact hlength
    | cons next tiles => exact ⟨Nat.le_refl _, Nat.add_le_add_left hlength place⟩

/-! ### Plans -/

namespace HierarchyPlan

/-- The plan of a hierarchy that is laid out at a place. -/
def laidOut (version place width height : Nat) (tiles : List (List UInt8)) : HierarchyPlan :=
  let first := place + 12 + 3 * Layout.offsetWidth version
  { width := .ofNat width
    height := .ofNat height
    level := first
    others := [first + (Layout.level version first width height tiles).length]
    levelWidth := .ofNat width
    levelHeight := .ofNat height
    tiles := Layout.tilePlaces (first + 8 + (tiles.length + 1) * Layout.offsetWidth version) tiles }

section

variable {width height : Nat} (hwidth : width < 2 ^ 32) (hheight : height < 2 ^ 32)
  (tiles : List (List UInt8))

include hwidth hheight

/-- A hierarchy that is laid out is the head of its plan, the level that counts, and a level of one
pixel. -/
theorem hierarchy_eq_head_append :
    Layout.hierarchy version place width height channels tiles =
      (laidOut version place width height tiles).head version channels ++
        (Layout.level version (laidOut version place width height tiles).level width height tiles ++
          (Layout.word 1 ++ Layout.word 1 ++ Layout.offset version 0)) := by
  rw [head, laidOut, UInt32.toNat_ofNat_of_lt' hwidth, UInt32.toNat_ofNat_of_lt' hheight,
    List.flatMap_singleton, Layout.hierarchy]
  simp only [List.append_assoc]

/-- The level that counts is the table of its plan and the tiles. -/
theorem level_eq_table_append :
    Layout.level version (laidOut version place width height tiles).level width height tiles =
      (laidOut version place width height tiles).table version ++ tiles.flatten := by
  rw [table, laidOut, UInt32.toNat_ofNat_of_lt' hwidth, UInt32.toNat_ofNat_of_lt' hheight,
    ← Layout.tileTable_eq, Layout.level]
  simp only [List.append_assoc]

end

theorem length_head_laidOut (width height : Nat) (tiles : List (List UInt8)) :
    ((laidOut version place width height tiles).head version channels).length =
      12 + 3 * Layout.offsetWidth version := by
  rw [head, laidOut, List.flatMap_singleton]
  simp only [List.length_append, Layout.length_word, Layout.length_offset]
  omega

theorem length_table_laidOut (width height : Nat) (tiles : List (List UInt8)) :
    ((laidOut version place width height tiles).table version).length =
      8 + (tiles.length + 1) * Layout.offsetWidth version := by
  rw [table, laidOut, ← Layout.tileTable_eq]
  simp only [List.length_append, Layout.length_word, Layout.length_tileTable]
  omega

include hcompression hchannels hsize in
/-- A hierarchy that is laid out is where its plan says. -/
theorem isAt_laidOut {width height : Nat} (hwidth : width < 2 ^ 32) (hheight : height < 2 ^ 32)
    {tiles : List CutTile} (hfits : ∀ t ∈ tiles, t.Fits channels)
    (h : data.HasAt place (Layout.hierarchy version place width height channels
      (tiles.map (CutTile.stored compression channels)))) :
    (laidOut version place width height (tiles.map (CutTile.stored compression channels))).IsAt data
      version place compression channels tiles := by
  rw [hierarchy_eq_head_append hwidth hheight] at h
  have hbehind := h.right
  rw [length_head_laidOut, ← Nat.add_assoc] at hbehind
  have hlevel := hbehind.left
  have hend := hlevel.le_size
  -- Every place lies within the data, which is shorter than the range of an offset.
  have hfirst : place + 12 + 3 * Layout.offsetWidth version < 2 ^ 32 := by omega
  have hsecond := Nat.lt_of_le_of_lt hend hsize
  rw [level_eq_table_append hwidth hheight] at hlevel
  have htiles := hlevel.right
  rw [length_table_laidOut, List.length_map, ← Nat.add_assoc] at htiles
  refine ⟨h.left, Layout.fitsOffset_of_lt version hfirst, fun other hother => ?_, hlevel.left, ?_⟩
  · cases List.mem_singleton.mp hother
    exact ⟨by omega, Layout.fitsOffset_of_lt version hsecond⟩
  · dsimp only [laidOut]
    rw [List.length_map]
    exact Hierarchy.tilesAt_tilePlaces hcompression hchannels hsize hfits (by omega) htiles

end HierarchyPlan

include hcompression hchannels hsize in
/-- **Hierarchies.** The hierarchy of a raster is read back as the raster cut into tiles. -/
theorem takes_hierarchy (content : TileContent) {width height : Nat} (hwidth : width < 2 ^ 32)
    (hheight : height < 2 ^ 32) {pixels : Bytes} (hpixels : pixels.size = width * height * channels)
    (h : data.HasAt place (Layout.hierarchy version place width height channels
      (Layout.tiles compression width height channels pixels))) :
    ∃ stop, (readHierarchy width height content compression {}).Takes data version place stop
      (TileGrid.cut width height channels pixels fun w h bytes =>
        content.assemble w h bytes channels) := by
  rw [Layout.tiles_eq_map_cuts] at h
  have hplan := HierarchyPlan.isAt_laidOut hcompression hchannels hsize hwidth hheight
    (fun tile => TileGrid.fits_of_mem_cuts hpixels) h
  refine ⟨_, HierarchyPlan.takes_readHierarchy content {} ?_ hchannels hpixels hplan⟩
  -- There is one other level.
  change 1 ≤ ({} : Limits).maxLevels - 1
  decide

end

end XcfFlatten
