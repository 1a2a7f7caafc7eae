import Mathlib.Tactic.Choose
import XcfFlatten.File.Hierarchy
import XcfFlatten.Proofs.Dissolve.Position
import XcfFlatten.Proofs.File.RunGrammar

/-!
# Literal runs

A tile may be laid out as literal runs, channel by channel. They are records of its channels
(`exists_planes_tile`), and they are not so long as to be taken for damage (`Layout.length_tile_le`).
-/

namespace XcfFlatten

/-! ### Pieces -/

namespace Layout

variable {size : Nat} {bytes : List UInt8}

/-- The pieces are the bytes, put in a row. -/
theorem flatten_chunks (hsize : 0 < size) (bytes : List UInt8) :
    (chunks size bytes).flatten = bytes := by
  -- So many pieces are so many bytes from the beginning on.
  have hpieces : ∀ count, ((List.range count).map fun i => (bytes.drop (size * i)).take size).flatten =
      bytes.take (size * count) := by
    intro count
    induction count with
    | zero => rfl
    | succ count ih =>
      rw [List.range_succ, List.map_append, List.flatten_append, ih, Nat.mul_succ, List.take_add,
        List.map_singleton, List.flatten_singleton]
  have hall : bytes.length ≤ size * ((bytes.length + (size - 1)) / size) := by
    have hdiv := Nat.div_add_mod (bytes.length + (size - 1)) size
    have hmod := Nat.mod_lt (bytes.length + (size - 1)) hsize
    omega
  rw [chunks, hpieces, List.take_of_length_le hall]

/-- The number of pieces is the number of bytes over the size of a piece, rounded up. -/
theorem length_chunks (size : Nat) (bytes : List UInt8) :
    (chunks size bytes).length = (bytes.length + (size - 1)) / size := by
  rw [chunks, List.length_map, List.length_range]

/-- No piece is empty or longer than asked for. -/
theorem length_of_mem_chunks (hsize : 0 < size) {piece : List UInt8} (h : piece ∈ chunks size bytes) :
    0 < piece.length ∧ piece.length ≤ size := by
  obtain ⟨i, hi, rfl⟩ := List.mem_map.mp h
  have hlt : i + 1 ≤ (bytes.length + (size - 1)) / size := List.mem_range.mp hi
  have hstart : (i + 1) * size ≤ bytes.length + (size - 1) := (Nat.le_div_iff_mul_le hsize).mp hlt
  rw [Nat.succ_mul, Nat.mul_comm] at hstart
  rw [List.length_take, List.length_drop]
  omega

/-! ### Lengths -/

/-- Each literal run has a byte more than it stands for. -/
theorem length_flatMap_literalRun (pieces : List (List UInt8)) :
    (pieces.flatMap literalRun).length = pieces.flatten.length + pieces.length := by
  induction pieces with
  | nil => rfl
  | cons piece pieces ih =>
    rw [List.flatMap_cons, List.length_append, ih, List.flatten_cons, List.length_append,
      List.length_cons, literalRun, List.length_cons]
    omega

/-- So bytes stored as literal runs grow by one for each 127 of them. -/
theorem length_literalRuns (bytes : List UInt8) :
    (literalRuns bytes).length = bytes.length + (bytes.length + 126) / 127 := by
  rw [literalRuns, length_flatMap_literalRun, flatten_chunks (by decide), length_chunks]

/-- And a tile does so channel by channel. -/
theorem length_tile_rle (count channels : Nat) (bytes : Bytes) :
    (tile .rle count channels bytes).length = channels * (count + (count + 126) / 127) := by
  change ((List.range channels).flatMap fun c => literalRuns (plane bytes count channels c)).length = _
  rw [Nat.mul_comm]
  refine Dissolve.length_flatMap_lines _ (fun c => ?_) channels
  rw [length_literalRuns, length_plane]

/-- The runs of a tile are no longer than tiles are allowed to be. -/
theorem length_tile_le {count channels : Nat} (bytes : Bytes) (hcount : count ≤ Tile.side * Tile.side)
    (hchannels : channels ≤ 4) :
    (tile .rle count channels bytes).length ≤ Hierarchy.maxTileLength := by
  have hplane : count + (count + 126) / 127 ≤ 4129 := by
    have hcount : count ≤ 4096 := hcount
    omega
  calc (tile .rle count channels bytes).length
      = channels * (count + (count + 126) / 127) := length_tile_rle count channels bytes
    _ ≤ 4 * 4129 := Nat.mul_le_mul hchannels hplane
    _ ≤ Hierarchy.maxTileLength := by decide

end Layout

/-! ### Decoding -/

/-- Pieces of no more than 127 bytes are runs of their own. -/
theorem exists_records_of_pieces {pieces : List (List UInt8)}
    (hpieces : ∀ piece ∈ pieces, 0 < piece.length ∧ piece.length ≤ 127) :
    ∃ records, RunRecord.Fill pieces.flatten.length records ∧
      RunRecord.storedAll records = pieces.flatMap Layout.literalRun ∧
      RunRecord.expand records = pieces.flatten := by
  -- Piece by piece, each is the record of a literal run.
  induction pieces with
  | nil => exact ⟨[], RunRecord.Fill.nil, rfl, rfl⟩
  | cons piece pieces ih =>
    obtain ⟨hpos, hle⟩ := hpieces piece List.mem_cons_self
    obtain ⟨records, hfill, hstored, hexpand⟩ :=
      ih fun p hp => hpieces p (List.mem_cons_of_mem _ hp)
    refine ⟨.literal piece ⟨hpos, hle⟩ :: records, ?_, ?_, ?_⟩
    · rw [List.flatten_cons, List.length_append]
      refine RunRecord.Fill.cons_iff.mpr ⟨⟨Nat.le_add_right _ _, Nat.add_pos_left hpos _⟩, ?_⟩
      change RunRecord.Fill (piece.length + pieces.flatten.length - piece.length) records
      rwa [Nat.add_sub_cancel_left]
    · rw [RunRecord.storedAll_cons, hstored, List.flatMap_cons]
      rfl
    · rw [RunRecord.expand_cons, hexpand, List.flatten_cons]
      rfl

/-- Bytes as literal runs are records of a channel. -/
theorem exists_records_literalRuns (bytes : List UInt8) :
    ∃ records, RunRecord.Fill bytes.length records ∧
      RunRecord.storedAll records = Layout.literalRuns bytes ∧ RunRecord.expand records = bytes := by
  have hpieces : ∀ piece ∈ Layout.chunks 127 bytes, 0 < piece.length ∧ piece.length ≤ 127 := by
    intro piece hpiece
    exact Layout.length_of_mem_chunks (by decide) hpiece
  obtain ⟨records, hfill, hstored, hexpand⟩ := exists_records_of_pieces hpieces
  rw [Layout.flatten_chunks (by decide)] at hfill hexpand
  exact ⟨records, hfill, hstored, hexpand⟩

/-- **Literal runs of a tile.** Its channels are laid out as records. -/
theorem exists_planes_tile (bytes : Bytes) (count channels : Nat) :
    ∃ planes, RunRecord.Planes count channels bytes planes ∧
      Layout.tile .rle count channels bytes = planes.flatMap RunRecord.storedAll := by
  -- Records for the bytes of each channel, put one behind the other.
  choose records hrecords using fun c =>
    exists_records_literalRuns (Layout.plane bytes count channels c)
  refine ⟨(List.range channels).map records, ⟨fun plane hplane => ?_, ?_⟩, ?_⟩
  · obtain ⟨c, -, rfl⟩ := List.mem_map.mp hplane
    have hfill := (hrecords c).1
    rwa [Layout.length_plane] at hfill
  · rw [List.map_map]
    exact List.map_congr_left fun c _ => (hrecords c).2.2
  · rw [List.flatMap_map]
    exact List.flatMap_congr fun c _ => (hrecords c).2.1.symm

end XcfFlatten
