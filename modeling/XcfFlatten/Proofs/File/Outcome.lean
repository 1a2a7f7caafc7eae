import XcfFlatten.File.LayerPixels
import XcfFlatten.Proofs.File.Closed

/-!
# How readers end

The records of a file are read at places that the file gives, and pixels may be read in between.
What a record says must not depend on that. A reader may stop anywhere, but it is tame
(`Reader.Tame`) if it keeps the version, on which the width of offsets depends, and if it does not
fail for lack of visible layers, which is for the document as a whole to say.

Apart from the header, which sets the version, and the document itself, every reader is tame:

* `Applied.AtOnce` — what one record may do: but for the two offsets of a layer, it is stored as a
  whole or not at all;
* `Property.tame_readAll` — property lists, whatever their records say;
* `LayerRecord.tame_read`, `ImageProperties.tame_read` and `tame_readLayerTable` — the records of a
  file;
* `LayerRecord.tame_readLayer` — the pixels and the mask of a layer.
-/

namespace XcfFlatten

namespace Reader

variable {α β : Type}

/-- How a tame reader may end: with the version it began with, or with an error that says nothing
about visible layers. -/
def MayEnd (version : Nat) : Except ReadError Cursor → Prop
  | .ok after => after.version = version
  | .error error => error ≠ .noVisibleLayers

/-- Wherever the reader begins, it keeps the version, and it does not fail for lack of visible
layers. -/
def Tame (reader : Reader α) : Prop :=
  ∀ data cursor, MayEnd cursor.version ((reader data cursor).map Prod.snd)

variable {x : Reader α} {f : α → Reader β}

/-- A sequence that fails for lack of visible layers does so in its second part. -/
theorem FailsOnly.bind_eq_noVisibleLayers_iff (hx : FailsOnly (· ≠ .noVisibleLayers) x)
    {data : Bytes} {cursor : Cursor} :
    (x >>= f) data cursor = .error .noVisibleLayers ↔
      ∃ a after, x data cursor = .ok (a, after) ∧ f a data after = .error .noVisibleLayers :=
  hx.bind_eq_error_iff (not_not_intro rfl)

namespace Tame

/-- Behind a tame reader the version is still the one it began with. -/
theorem version_eq (h : Tame x) {data : Bytes} {cursor after : Cursor} {a : α}
    (hread : x data cursor = .ok (a, after)) : after.version = cursor.version := by
  have hend := h data cursor
  rwa [hread] at hend

/-- A tame reader has other reasons to fail than a lack of visible layers. -/
theorem failsOnly (h : Tame x) : FailsOnly (· ≠ .noVisibleLayers) x := by
  intro data cursor error hread
  have hend := h data cursor
  rwa [hread] at hend

theorem pure (a : α) : Tame (pure a) := fun _ _ => rfl

theorem throw {error : ReadError} (h : error ≠ .noVisibleLayers) : Tame (throw error : Reader α) :=
  fun _ _ => h

/-- The version is handed on from one reader to the next. -/
theorem bind (hx : Tame x) (hf : ∀ a, Tame (f a)) : Tame (x >>= f) := by
  intro data cursor
  have hend := hx data cursor
  rw [bind_apply]
  cases h : x data cursor with
  | error error =>
    rw [h] at hend
    exact hend
  | ok p =>
    -- The second reader begins with the version that the first one began with.
    rw [h] at hend
    have hversion : p.2.version = cursor.version := hend
    rw [← hversion]
    exact hf p.1 data p.2

/-- Taking bytes moves the position alone, and fails for lack of data if at all. -/
theorem bytes (length : Nat) : Tame (bytes length) := by
  intro data cursor
  rw [bytes_apply]
  split
  · rfl
  · show ReadError.truncated ≠ .noVisibleLayers
    nofun

/-- Missing bytes are made up for, so there is no error at all. -/
theorem bytesPadded (length : Nat) : Tame (bytesPadded length) := fun _ _ => rfl

/-- **What is put together from tame readers is tame.** -/
theorem closed : Closed @Tame (· ≠ .noVisibleLayers) where
  pure := pure
  throw := throw
  bind := bind
  get _ _ := rfl
  seek _ _ _ := rfl
  bytes := bytes

theorem offset : Tame offset := closed.offset nofun

/-- A check is tame if it does not ask for visible layers. -/
theorem liftM {result : Except ReadError α} (h : result ≠ .error .noVisibleLayers) :
    Tame (MonadLiftT.monadLift result : Reader α) :=
  closed.liftM fun _ herror heq => h (heq ▸ herror)

end Tame

end Reader

open Reader (Tame FailsOnly)

/-! ### Property lists -/

/-- A record is harmless if it does not fail for lack of visible layers when it is applied. -/
def Applied.Harmless {σ : Type} (applied : Applied σ) : Prop :=
  applied.failure ≠ some .noVisibleLayers

namespace Applied

variable {α σ : Type}

/-- A record is applied at once: it is stored as a whole, or it is refused and leaves the state. -/
inductive AtOnce (state : σ) : Applied σ → Prop
  | stored (next : σ) : AtOnce state { state := next }
  | refused {error : ReadError} (h : error ≠ .noVisibleLayers) :
      AtOnce state { state, failure := some error }

namespace AtOnce

variable {state : σ} {x y : Applied σ}

/-- What is applied at once is harmless. -/
theorem harmless (h : x.AtOnce state) : x.Harmless := by
  cases h with
  | stored next => exact nofun
  | refused h => exact fun heq => h (Option.some.inj heq)

theorem ite {c : Prop} [Decidable c] (hx : x.AtOnce state) (hy : y.AtOnce state) :
    (if c then x else y).AtOnce state := by
  split
  · exact hx
  · exact hy

/-- What is read before anything is stored is stored at once. -/
theorem set {reader : Reader α} (h : reader.Tame) (payload : Bytes) (update : α → σ) (state : σ) :
    (set payload reader update state).AtOnce state := by
  unfold Applied.set
  cases hparse : reader.parse payload with
  | ok a => exact stored _
  | error error => exact refused (h.failsOnly.parse hparse)

end AtOnce

end Applied

namespace Property

/-- Records are tame, whatever their tags are. -/
theorem tame_read? (limits : Limits) : Tame (read? limits) := by
  refine Tame.closed.word.bind fun code => ?_
  -- A record is read in one of four ways: by its size alone if it is not known, as a colour map, as
  -- a unit, or as a payload of the given size.
  split
  · exact Tame.closed.word.bind fun _ => (Tame.closed.skip nofun _).bind fun _ => Tame.pure _
  · refine Tame.closed.word.bind fun _ => (Tame.bytes 4).bind fun count => ?_
    refine Tame.closed.ite ?_ ?_
    · exact Tame.closed.throw_bind (by nofun) _
    · exact (Tame.bytesPadded _).bind fun _ => Tame.pure _
  · refine Tame.closed.word.bind fun _ => Tame.closed.float32.bind fun _ => ?_
    refine Tame.closed.int32.bind fun _ => ?_
    refine (Tame.closed.forIn (fun _ _ => ?_) _ _).bind fun _ => Tame.pure _
    exact Tame.closed.string.bind fun _ => Tame.pure _
  · refine Tame.closed.word.bind fun size => ?_
    refine Tame.closed.ite ?_ ?_
    · exact Tame.closed.throw_bind (by nofun) _
    · exact (Tame.bytesPadded _).bind fun _ => Tame.pure _

section

variable {σ : Type} (limits : Limits) {apply : Property → σ → Applied σ}
  (happly : ∀ property state, (apply property state).Harmless)
include happly

/-- Record by record, a list keeps the version. -/
theorem mayEnd_foldRecords (data : Bytes) (remaining : Nat) (cursor : Cursor) (state : σ) :
    Reader.MayEnd cursor.version (foldRecords limits apply data remaining cursor state).2 := by
  -- By induction on how many records may still come. Each leaves the version to the rest of the
  -- list.
  induction remaining generalizing cursor state with
  | zero => exact nofun
  | succ remaining ih =>
    have hrecord := tame_read? limits data cursor
    unfold foldRecords
    cases hread : read? limits data cursor with
    | error error =>
      rw [hread] at hrecord
      exact hrecord
    | ok p =>
      obtain ⟨record?, middle⟩ := p
      have hversion : middle.version = cursor.version := (tame_read? limits).version_eq hread
      have hrest : ∀ state, Reader.MayEnd cursor.version
          (foldRecords limits apply data remaining middle state).2 := by
        intro state
        rw [← hversion]
        exact ih middle state
      cases record? with
      | none => exact hrest state
      | some property =>
        dsimp only
        split
        · -- The terminator, where the list ends.
          exact hversion
        · have hharmless := happly property state
          -- Whether or not the record could be applied whole, what follows is read from its end.
          generalize apply property state = applied at hharmless ⊢
          obtain ⟨next, failure⟩ := applied
          cases failure with
          | none => exact hrest next
          | some error =>
            dsimp only
            split
            · exact hrest next
            · -- An error that ends the list is that of a record, which is harmless.
              intro heq
              exact hharmless (congrArg some heq)

/-- A list of harmless records is tame. -/
theorem tame_readAll (state : σ) : Tame (readAll limits apply state) := by
  intro data cursor
  have hend := mayEnd_foldRecords limits happly data limits.maxProperties cursor state
  unfold readAll run
  generalize foldRecords limits apply data limits.maxProperties cursor state = result at hend
  obtain ⟨state, outcome⟩ := result
  cases outcome with
  | error error => exact hend
  | ok after => exact hend

end

end Property

/-! ### Records and tables -/

/-- The records of a layer are applied at once, apart from its offsets. -/
theorem LayerProperties.atOnce_apply {property : Property} (htag : property.tag ≠ .offsets)
    (props : LayerProperties) : (apply property props).AtOnce props := by
  unfold apply
  dsimp only
  split
  -- The opacity as a number with a fraction counts only in four bytes.
  case h_3 => exact .ite (.set Tame.closed.float32 _ _ _) (.stored _)
  case h_10 hoffsets => exact absurd hoffsets htag
  all_goals first
    | exact .set Tame.closed.word _ _ _
    | exact .set Tame.closed.flag _ _ _
    | exact .set Tame.closed.int32 _ _ _
    | exact .stored _

/-- No record of a layer speaks of visible layers, its offsets included. -/
theorem LayerProperties.harmless_apply (property : Property) (props : LayerProperties) :
    (apply property props).Harmless := by
  by_cases htag : property.tag = .offsets
  · -- The first offset is stored before the second one is read.
    unfold apply
    dsimp only
    rw [htag]
    dsimp only
    split
    · next error hparse =>
      exact (Applied.AtOnce.refused (Tame.closed.int32.failsOnly.parse hparse)).harmless
    · have htame : Tame (do let _ ← Reader.int32; Reader.int32) :=
        Tame.closed.int32.bind fun _ => Tame.closed.int32
      exact (Applied.AtOnce.set htame _ _ _).harmless
  · exact (atOnce_apply htag props).harmless

/-- The records of a channel are all applied at once. -/
theorem ChannelProperties.atOnce_apply (property : Property) (props : ChannelProperties) :
    (apply property props).AtOnce props := by
  unfold apply
  dsimp only
  split
  case h_2 => exact .ite (.set Tame.closed.float32 _ _ _) (.stored _)
  -- A colour has three parts, and none of them is stored before all are read.
  case h_5 =>
    refine .set ?_ _ _ _
    exact Tame.closed.byte.bind fun _ => Tame.closed.byte.bind fun _ =>
      Tame.closed.byte.bind fun _ => Tame.pure _
  case h_6 =>
    refine .set ?_ _ _ _
    exact Tame.closed.float32.bind fun _ => Tame.closed.float32.bind fun _ =>
      Tame.closed.float32.bind fun _ => Tame.pure _
  all_goals first
    | exact .set Tame.closed.word _ _ _
    | exact .set Tame.closed.flag _ _ _
    | exact .stored _

theorem ChannelProperties.harmless_apply (property : Property) (props : ChannelProperties) :
    (apply property props).Harmless := (atOnce_apply property props).harmless

/-- So are those of an image. -/
theorem ImageProperties.atOnce_apply (property : Property) (props : ImageProperties) :
    (apply property props).AtOnce props := by
  unfold apply
  dsimp only
  split
  -- The compression may be one that is not known.
  case h_1 =>
    split
    · next error hparse =>
      exact .refused (Tame.closed.byte.failsOnly.parse hparse)
    · split
      · exact .stored _
      · exact .refused nofun
  case h_2 =>
    refine .set ?_ _ _ _
    exact Tame.closed.float32.bind fun _ => Tame.closed.float32.bind fun _ => Tame.pure _
  -- A palette is checked against the number of its colours before it is stored.
  case h_6 =>
    refine .set ?_ _ _ _
    refine Tame.closed.word.bind fun colors => ?_
    refine Tame.closed.ite ?_ ?_
    · exact Tame.closed.throw_bind (by nofun) _
    · exact (Tame.bytes _).bind fun _ => Tame.pure _
  all_goals first
    | exact .set Tame.closed.word _ _ _
    | exact .stored _

theorem ImageProperties.harmless_apply (property : Property) (props : ImageProperties) :
    (apply property props).Harmless := (atOnce_apply property props).harmless

theorem ImageProperties.tame_read (limits : Limits) : Tame (read limits) :=
  Property.tame_readAll limits harmless_apply {}

/-- The record of a layer is tame, and so the next one is read with the same version. -/
theorem LayerRecord.tame_read (limits : Limits) : Tame (read limits) := by
  refine Tame.closed.word.bind fun width => Tame.closed.word.bind fun height => ?_
  refine Tame.closed.word.bind fun id => ?_
  split
  · exact Tame.throw nofun
  · refine Tame.closed.string.bind fun name => ?_
    refine (Property.tame_readAll limits LayerProperties.harmless_apply _).bind fun props => ?_
    exact Tame.offset.bind fun _ => Tame.offset.bind fun _ => Tame.pure _

theorem tame_readLayerTable (limits : Limits) (room : Nat) (done : List Nat) :
    Tame (readLayerTable limits room done) := Tame.closed.readLayerTable id limits room done

/-- The header sets the version, but it does not fail for lack of visible layers either. -/
theorem Header.failsOnly_read : FailsOnly (· ≠ .noVisibleLayers) read :=
  (FailsOnly.closed nofun).readHeader id FailsOnly.modify

/-! ### Pixels -/

/-- A size may be refused for being too large, and for nothing else. -/
theorem Limits.checkSize_ne (limits : Limits) (what : String) (width height : Nat) :
    limits.checkSize what width height ≠ .error .noVisibleLayers := by
  unfold checkSize
  split
  · exact nofun
  · exact nofun

section

variable {window : Window} (hwindow : ∀ length, (window length).Tame)

namespace Hierarchy

theorem tame_skipLevels (limits : Limits) (room : Nat) : Tame (skipLevels limits room) :=
  Tame.closed.skipLevels id limits room

include hwindow

/-- The data of a tile is read where the table says, in a way that depends on the compression. -/
theorem tame_readTileData (compression : Compression) (count channels offset next : Nat) :
    Tame (readTileData window compression count channels offset next) := by
  refine (Tame.closed.seek offset).bind fun _ => ?_
  cases compression with
  | none => exact Tame.bytes _
  | zlib => exact Tame.throw nofun
  | fractal => exact Tame.throw nofun
  | rle =>
    -- Runs are decoded from a window, which is tame by assumption.
    refine Tame.closed.ite ?_ ?_
    · exact Tame.closed.throw_bind (by nofun) _
    · refine (hwindow _).bind fun p => Tame.closed.ite ?_ ?_
      · exact Tame.closed.throw_bind (by nofun) _
      · dsimp only
        split
        · exact Tame.pure _
        · exact Tame.throw nofun

/-- Between two tiles the reader goes back to the table of their offsets. -/
theorem tame_readTiles (content : TileContent) (compression : Compression)
    (channels total offset : Nat) (done : Array Tile) (sizes : List (Nat × Nat)) :
    Tame (readTiles window content compression channels total offset done sizes) := by
  -- By induction on the tiles that are still to come.
  induction sizes generalizing offset done with
  | nil => exact Tame.pure done
  | cons size sizes ih =>
    refine Tame.closed.ite ?_ ?_
    · exact Tame.closed.throw_bind (by nofun) _
    · refine Tame.offset.bind fun next => Tame.closed.position.bind fun resume => ?_
      refine (tame_readTileData hwindow compression _ channels offset next).bind fun data => ?_
      exact (Tame.closed.seek resume).bind fun _ => ih next _

/-- A level is its table of tiles. -/
theorem tame_readLevel (width height channels : Nat) (content : TileContent)
    (compression : Compression) :
    Tame (readLevel window width height channels content compression) := by
  refine Tame.closed.int32.bind fun _ => Tame.closed.int32.bind fun _ => ?_
  refine Tame.offset.bind fun offset => Tame.closed.ite ?_ ?_
  · exact (Tame.pure _).bind fun _ => Tame.pure _
  · exact (tame_readTiles hwindow content compression channels _ offset #[] _).bind fun _ =>
      Tame.pure _

end Hierarchy

include hwindow

/-- The first level is read aside, and the others are passed over. -/
theorem tame_readHierarchy (width height : Nat) (content : TileContent) (compression : Compression)
    (limits : Limits) :
    Tame (readHierarchy width height content compression limits window) := by
  refine Tame.closed.int32.bind fun _ => Tame.closed.int32.bind fun _ => ?_
  refine Tame.closed.word.bind fun channels => Tame.offset.bind fun level => ?_
  refine Tame.closed.ite ?_ ?_
  · exact Tame.closed.throw_bind (by nofun) _
  · -- Nothing that is looked up on the way asks for visible layers.
    refine (Hierarchy.tame_skipLevels limits _).bind fun _ => ?_
    refine Tame.closed.position.bind fun resume => (Tame.closed.seek level).bind fun _ => ?_
    refine (Hierarchy.tame_readLevel hwindow width height channels content compression).bind
      fun grid => ?_
    exact (Tame.closed.seek resume).bind fun _ => Tame.pure grid

/-- A mask is a channel, with a property list of its own in front of its pixels. -/
theorem tame_readMask (width height : Nat) (compression : Compression) (limits : Limits) :
    Tame (readMask width height compression limits window) := by
  refine Tame.closed.word.bind fun width => Tame.closed.word.bind fun height => ?_
  refine Tame.closed.string.bind fun name => ?_
  refine (Property.tame_readAll limits ChannelProperties.harmless_apply _).bind fun props => ?_
  refine Tame.closed.ite ?_ ?_
  · exact Tame.closed.throw_bind (by nofun) _
  · refine Tame.offset.bind fun offset => (Tame.closed.seek offset).bind fun _ => ?_
    exact (tame_readHierarchy hwindow width height .mask compression limits).bind fun _ =>
      Tame.pure _

namespace LayerRecord

/-- A layer without a mask has nothing to be read for it. -/
theorem tame_readMask? (record : LayerRecord) (compression : Compression) (limits : Limits) :
    Tame (record.readMask? compression limits window) := by
  refine Tame.closed.ite (Tame.pure _) ?_
  refine (Tame.closed.seek record.maskOffset).bind fun _ => ?_
  exact (tame_readMask hwindow record.width record.height compression limits).bind fun _ =>
    Tame.pure _

/-- **Layers.** Reading the pixels and the mask of a layer keeps the version, wherever they are and
whatever stands there. -/
theorem tame_readLayer (record : LayerRecord) (compression : Compression) (paletteSize : Nat)
    (limits : Limits) :
    Tame (record.readLayer compression paletteSize limits window) := by
  refine (Tame.liftM (limits.checkSize_ne _ _ _)).bind fun _ => ?_
  refine (Tame.closed.seek record.hierarchyOffset).bind fun _ => ?_
  refine (tame_readHierarchy hwindow _ _ _ compression limits).bind fun tiles => ?_
  exact (tame_readMask? hwindow record compression limits).bind fun mask => Tame.pure _

end LayerRecord

end

end XcfFlatten
