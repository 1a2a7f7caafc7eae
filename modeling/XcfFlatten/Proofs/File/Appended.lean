import XcfFlatten.File.Document
import XcfFlatten.Proofs.Canvas.Stack
import XcfFlatten.Proofs.File.RunLength
import XcfFlatten.Proofs.File.Stable

/-!
# Bytes behind a document

A file that ends too early is refused, with one exception: bytes that are missing in the data of a
run length encoded tile are taken for zeros, as long as the data has begun. This is where bytes
appended to a file can change its document, and the only place (`Document.decode_append_iff`).

The proof compares three runs of the decoder (`Reader.Follows`): one on the data, one on the data
with more behind it, and one on the data alone through another window, which accounts for what the
second run finds. The first run has to give a result, and it fixes where every record is; pixels may
differ between the runs, but nothing that decides what is read next depends on pixels.

* `Window.follows_bytesFilled` and `Window.follows_bytesUpTo` — the two windows of interest;
* `Document.decode_follows` — what holds of the windows holds of whole documents.
-/

namespace XcfFlatten

namespace Reader

variable {α β : Type} {data more : Bytes}

/-! ### Readers that follow one another -/

/-- Wherever `x` gives a result on the data, `y` does on the data with more behind it what `z` does
on the data alone. Where these two give a result it is related to that of `x`, and they stop where
`x` stops. -/
def Follows (data more : Bytes) (R : α → α → Prop) (x y z : Reader α) : Prop :=
  ∀ ⦃cursor a after⦄, x data cursor = .ok (a, after) →
    y (data ++ more) cursor = z data cursor ∧ ∀ b after', z data cursor = .ok (b, after') →
      after' = after ∧ R a b

/-- The same without relating the results, where `y` and `z` may stop anywhere. -/
def FollowsAside (data more : Bytes) (x y z : Reader α) : Prop :=
  ∀ ⦃cursor a after⦄, x data cursor = .ok (a, after) →
    (∃ error, y (data ++ more) cursor = .error error ∧ z data cursor = .error error) ∨
      ∃ b p q, y (data ++ more) cursor = .ok (b, { after with position := p }) ∧
        z data cursor = .ok (b, { after with position := q })

/-- A stable reader does the same in all three runs. -/
theorem Stable.follows {x : Reader α} (h : Stable x) : Follows data more Eq x x x := by
  intro cursor a after hx
  refine ⟨(h hx more).trans hx.symm, fun b after' hb => ?_⟩
  rw [hx] at hb
  cases hb
  exact ⟨rfl, rfl⟩

namespace Follows

variable {R : α → α → Prop} {S : β → β → Prop} {x y z : Reader α} {f g h : α → Reader β}

/-- Results that are given are related from the start. -/
theorem pure {a b : α} (hab : R a b) : Follows data more R (pure a) (pure b) (pure b) := by
  intro cursor a' after ha
  cases ha
  refine ⟨rfl, fun b' after' hb => ?_⟩
  cases hb
  exact ⟨rfl, hab⟩

/-- Where the first run fails, nothing is said about the others. -/
theorem throw (error : ReadError) : Follows data more R (throw error) y z := by
  intro cursor a after h
  cases h

theorem throw_bind (error : ReadError) (f : β → Reader α) :
    Follows data more R (MonadExcept.throw error >>= f) y z := by
  intro cursor a after h
  cases h

/-- All three runs take the same branch. -/
theorem ite {c : Prop} [Decidable c] {x' y' z' : Reader α} (hx : Follows data more R x y z)
    (hy : Follows data more R x' y' z') :
    Follows data more R (if c then x else x') (if c then y else y') (if c then z else z') := by
  split
  · exact hx
  · exact hy

/-- The second readers have to follow one another wherever the results of the first are related. -/
theorem bind (hx : Follows data more R x y z)
    (hf : ∀ a b, R a b → Follows data more S (f a) (g b) (h b)) :
    Follows data more S (x >>= f) (y >>= g) (z >>= h) := by
  intro cursor c after hc
  obtain ⟨a, middle, ha, hc⟩ := bind_eq_ok.mp hc
  obtain ⟨hyz, hrel⟩ := hx ha
  rw [bind_apply, bind_apply, hyz]
  -- If the run through the other window stops here, so does the one on the longer data.
  cases hz : z data cursor with
  | error error =>
    refine ⟨rfl, fun b after' hb => ?_⟩
    cases hb
  | ok p =>
    obtain ⟨rfl, hR⟩ := hrel p.1 p.2 hz
    exact hf a p.1 hR hc

theorem map (hx : Follows data more R x y z) {p q : α → β} (hpq : ∀ a b, R a b → S (p a) (q b)) :
    Follows data more S (p <$> x) (q <$> y) (q <$> z) :=
  hx.bind fun a b hab => pure (hpq a b hab)

/-- Behind a stable reader all three go on from the same result. -/
theorem of_stable {x : Reader α} (hx : Stable x) (hf : ∀ a, Follows data more S (f a) (g a) (h a)) :
    Follows data more S (x >>= f) (x >>= g) (x >>= h) := by
  refine hx.follows.bind fun a b hab => ?_
  subst hab
  exact hf a

/-- So they do behind a reader that may end with the data, if something has to be read next. -/
theorem of_settles {x : Reader α} (hx : Settles x) (hf : ∀ a, Follows data more S (f a) (g a) (h a))
    (hend : ∀ a, FailsAtEnd (f a)) : Follows data more S (x >>= f) (x >>= g) (x >>= h) := by
  intro cursor c after hc
  obtain ⟨a, middle, ha, hc⟩ := bind_eq_ok.mp hc
  -- Had the first reader ended with the data, the next could not have given a result.
  have hstable := (hx ha).resolve_left fun hat => hend a hat hc
  rw [bind_apply, bind_apply, ha, hstable more]
  exact hf a hc

/-- Loops over the same list follow one another if their bodies do. -/
theorem foldlM {f g h : α → β → Reader α}
    (hf : ∀ a b i, R a b → Follows data more R (f a i) (g b i) (h b i)) (list : List β) {a b : α}
    (hab : R a b) :
    Follows data more R (list.foldlM f a) (list.foldlM g b) (list.foldlM h b) := by
  induction list generalizing a b with
  | nil => exact pure hab
  | cons i list ih => exact (hf a b i hab).bind fun a b hab => ih hab

end Follows

/-- Where the position is set anew, it is of no consequence where the readers before have
stopped. -/
theorem FollowsAside.bind_seek {S : β → β → Prop} {x y z : Reader α} {f g h : α → Reader β}
    (hx : FollowsAside data more x y z) (position : Nat)
    (hf : ∀ a b, Follows data more S (f a) (g b) (h b)) :
    Follows data more S (x >>= fun a => seek position >>= fun _ => f a)
      (y >>= fun b => seek position >>= fun _ => g b)
      (z >>= fun b => seek position >>= fun _ => h b) := by
  intro cursor c after hc
  obtain ⟨a, middle, ha, hc⟩ := bind_eq_ok.mp hc
  rw [bind_apply, bind_apply]
  -- Either both longer runs stop with the same error, or both go on from the new position.
  rcases hx ha with ⟨error, hy, hz⟩ | ⟨b, p, q, hy, hz⟩
  · rw [hy, hz]
    refine ⟨rfl, fun d after' hd => ?_⟩
    cases hd
  · rw [hy, hz]
    exact hf a b hc

/-! ### Windows at the end of the data -/

/-- The next `length` bytes, with those of `tail` for bytes past the end of the data, and zeros for
the rest. -/
def bytesFilled (tail : Bytes) (length : Nat) : Reader (Bytes × Nat) := do
  let data ← read
  let start ← position
  let found := data.extract start (start + length)
  let filled := found ++ tail.extract 0 (length - found.size)
  seek (start + found.size)
  pure (filled ++ Array.replicate (length - filled.size) 0, found.size)

/-- The next `length` bytes as far as there are any. -/
def bytesUpTo (length : Nat) : Reader (Bytes × Nat) := do
  let data ← read
  let start ← position
  let found := data.extract start (start + length)
  seek (start + found.size)
  pure (found, found.size)

end Reader

open Reader (Stable FailsAtEnd)

namespace Window

variable {data more : Bytes}

/-- Wherever a tile can be decoded from what `x` finds in the data, `y` finds in the data with more
behind it what is decoded like that which `z` finds in the data alone. -/
def Follows (x : Window) (data more : Bytes) (y z : Window) : Prop :=
  ∀ ⦃length cursor source found after⦄, x length data cursor = .ok ((source, found), after) →
    (found ≠ 0 ∨ length = 0) →
    ∀ {count channels bytes}, RunLength.decodeTile source count channels = .ok bytes →
      ∃ v m p v' m' p',
        y length (data ++ more) cursor = .ok ((v, m), { after with position := p }) ∧
        z length data cursor = .ok ((v', m'), { after with position := p' }) ∧
        (m ≠ 0 ∨ length = 0) ∧ (m' ≠ 0 ∨ length = 0) ∧
        RunLength.decodeTile v count channels = RunLength.decodeTile v' count channels

/-- What the data has of a stretch of bytes, filled up with the bytes that follow the data. -/
def filledWith (data more : Bytes) (start length : Nat) : Bytes :=
  data.extract start (start + length) ++
    more.extract 0 (length - (data.extract start (start + length)).size)

/-- In the longer data, a stretch that begins inside the data goes on with the bytes behind it. -/
theorem extract_append_of_found (more : Bytes) {start length : Nat}
    (h : (data.extract start (start + length)).size ≠ 0 ∨ length = 0) :
    (data ++ more).extract start (start + length) = filledWith data more start length := by
  have hsize : (data.extract start (start + length)).size =
      min (start + length) data.size - start :=
    Array.size_extract
  unfold filledWith
  rw [Array.extract_append]
  congr 1
  -- A stretch that begins past the end of the data is empty, as it has found nothing.
  by_cases hinside : start ≤ data.size
  · rw [show start - data.size = 0 by omega,
      show length - (data.extract start (start + length)).size =
        start + length - data.size by omega]
  · have hzero : length = 0 := h.resolve_left (by omega)
    rw [hzero, Nat.add_zero, Nat.zero_sub, Array.extract_eq_empty_of_le (Nat.min_le_left _ _),
      Array.extract_zero]

/-- With more behind the data, zeros are needed only where that ends too. -/
theorem bytesPadded_append (more : Bytes) {cursor : Cursor} {length : Nat}
    (hfound : (data.extract cursor.position (cursor.position + length)).size ≠ 0 ∨ length = 0) :
    ∃ m p, (m ≠ 0 ∨ length = 0) ∧
      Reader.bytesPadded length (data ++ more) cursor =
        .ok ((filledWith data more cursor.position length ++
          Array.replicate (length - (filledWith data more cursor.position length).size) 0, m),
          { cursor with position := p }) := by
  let filled := filledWith data more cursor.position length
  have hstretch : (data ++ more).extract cursor.position (cursor.position + length) = filled :=
    extract_append_of_found more hfound
  -- What was found before is found again, so the check that there is anything is passed as before.
  have hfilled : filled.size ≠ 0 ∨ length = 0 := by
    refine hfound.imp (fun hne hzero => hne ?_) id
    change (data.extract _ _ ++ more.extract _ _).size = 0 at hzero
    rw [Array.size_append] at hzero
    exact Nat.eq_zero_of_add_eq_zero_right hzero
  refine ⟨filled.size, cursor.position + filled.size, hfilled, ?_⟩
  change Except.ok ((_, _), _) = Except.ok ((_, _), _)
  rw [hstretch]

/-- Zeros for missing bytes are replaced by the bytes that come to stand there. -/
theorem follows_bytesFilled :
    Follows Reader.bytesPadded data more Reader.bytesPadded (Reader.bytesFilled more) := by
  intro length cursor source found after h hfound count channels bytes hdecode
  cases h
  obtain ⟨m, p, hm, hmore⟩ := bytesPadded_append more hfound
  exact ⟨_, m, p, _, _, _, hmore, rfl, hm, hfound, rfl⟩

/-- Runs that end inside the data are read to the same end with more behind it. -/
theorem follows_bytesUpTo :
    Follows Reader.bytesUpTo data more Reader.bytesPadded Reader.bytesUpTo := by
  intro length cursor source found after h hfound count channels bytes hdecode
  cases h
  obtain ⟨m, p, hm, hmore⟩ := bytesPadded_append more hfound
  refine ⟨_, m, p, _, _, _, hmore, rfl, hm, hfound, ?_⟩
  rw [filledWith, Array.append_assoc, RunLength.decodeTile_append hdecode, hdecode]

end Window

/-! ### Tiles -/

/-- What the runs of a tile are decoded to, once there are any. -/
theorem Hierarchy.readTileData_rle (window : Window) {data source : Bytes} {cursor after : Cursor}
    {offset next stop found : Nat} (count channels : Nat)
    (hstop : (if next = 0 then offset + maxTileLength else next) = stop)
    (hlength : ¬ (stop < offset ∨ maxTileLength < stop - offset))
    (hwindow : window (stop - offset) data { cursor with position := offset } =
      .ok ((source, found), after))
    (hfound : found ≠ 0 ∨ stop - offset = 0) :
    readTileData window .rle count channels offset next data cursor =
      ((RunLength.decodeTile source count channels).mapError ReadError.runs).map fun bytes =>
        (bytes, after) := by
  unfold readTileData
  dsimp only
  -- The window is asked for at its offset, and neither of the two checks stops the run.
  rw [hstop, if_neg hlength, Reader.bind_apply, Reader.seek_apply]
  dsimp only [Except.bind]
  rw [Reader.bind_apply, hwindow]
  dsimp only [Except.bind]
  rw [if_neg (by omega)]
  cases RunLength.decodeTile source count channels with
  | ok bytes => rfl
  | error error => rfl

section Tiles

variable {data more : Bytes} {x y z : Window} (h : x.Follows data more y z)
include h

namespace Hierarchy

theorem readTileData_followsAside (compression : Compression) (count channels offset next : Nat) :
    Reader.FollowsAside data more (readTileData x compression count channels offset next)
      (readTileData y compression count channels offset next)
      (readTileData z compression count channels offset next) := by
  intro cursor bytes after hx
  unfold readTileData at hx
  obtain ⟨⟨⟩, sought, hseek, hx⟩ := Reader.bind_eq_ok.mp hx
  cases hseek
  -- Uncompressed data is read whole or not at all. Of runs, the window decides what is decoded.
  cases compression with
  | none =>
    refine Or.inr ⟨bytes, after.position, after.position, ?_, hx⟩
    exact Stable.bytes _ hx more
  | zlib => cases hx
  | fractal => cases hx
  | rle =>
    dsimp only at hx
    -- The first run gives a result: its window has a proper length, is not empty, and is decoded.
    generalize hstop : (if next = 0 then offset + maxTileLength else next) = stop at hx
    by_cases hlength : stop < offset ∨ maxTileLength < stop - offset
    · rw [if_pos hlength] at hx
      cases hx
    rw [if_neg hlength] at hx
    obtain ⟨⟨source, found⟩, middle, hwindow, hx⟩ := Reader.bind_eq_ok.mp hx
    dsimp only at hx
    by_cases hnone : found = 0 ∧ offset < stop
    · rw [if_pos hnone] at hx
      cases hx
    rw [if_neg hnone] at hx
    cases hdecode : RunLength.decodeTile source count channels with
    | error error =>
      rw [hdecode] at hx
      cases hx
    | ok decoded =>
      rw [hdecode] at hx
      cases hx
      -- So the other two windows find something as well, and decode it alike.
      have hfound : found ≠ 0 ∨ stop - offset = 0 := by omega
      obtain ⟨v, m, p, v', m', p', hy, hz, hm, hm', hsame⟩ := h hwindow hfound hdecode
      rw [readTileData_rle y count channels hstop hlength hy hm,
        readTileData_rle z count channels hstop hlength hz hm', hsame]
      cases RunLength.decodeTile v' count channels with
      | error error => exact Or.inl ⟨.runs error, rfl, rfl⟩
      | ok bytes => exact Or.inr ⟨bytes, p, p', rfl, rfl⟩

/-- Tile by tile, the three runs stay in step. -/
theorem readTiles_follows (content : TileContent) (compression : Compression)
    (channels total offset : Nat) (done done' : Array Tile) (sizes : List (Nat × Nat)) :
    Reader.Follows data more (fun _ _ => True)
      (readTiles x content compression channels total offset done sizes)
      (readTiles y content compression channels total offset done' sizes)
      (readTiles z content compression channels total offset done' sizes) := by
  -- The position is set back behind each tile, so where a window leaves it is of no consequence.
  induction sizes generalizing offset done done' with
  | nil => exact Reader.Follows.pure trivial
  | cons size sizes ih =>
    obtain ⟨width, height⟩ := size
    refine Reader.Follows.ite (Reader.Follows.throw_bind _ _) ?_
    refine Reader.Follows.of_stable Stable.offset fun next => ?_
    refine Reader.Follows.of_stable Stable.closed.position fun resume => ?_
    have hdata := readTileData_followsAside h compression (width * height) channels offset next
    exact hdata.bind_seek resume fun bytes bytes' => ih next _ _

/-- They are in step at the table of a level, so they stay so behind it. -/
theorem readLevel_follows (width height channels : Nat) (content : TileContent)
    (compression : Compression) :
    Reader.Follows data more (fun _ _ => True)
      (readLevel x width height channels content compression)
      (readLevel y width height channels content compression)
      (readLevel z width height channels content compression) := by
  refine Reader.Follows.of_stable Stable.closed.int32 fun _ => ?_
  refine Reader.Follows.of_stable Stable.closed.int32 fun _ => ?_
  refine Reader.Follows.of_stable Stable.offset fun offset => ?_
  refine Reader.Follows.ite ?_ ?_
  · -- A level without tiles is blank in all three runs.
    exact (Reader.Follows.pure (R := fun _ _ => True) trivial).bind fun _ _ _ =>
      Reader.Follows.pure trivial
  · exact (readTiles_follows h content compression channels _ offset #[] #[] _).bind fun _ _ _ =>
      Reader.Follows.pure trivial

omit h in
theorem stable_skipLevels (limits : Limits) (room : Nat) : Stable (skipLevels limits room) :=
  Stable.closed.skipLevels (fun _ => trivial) limits room

end Hierarchy

/-- Where a hierarchy ends depends on its list of levels, and not on its pixels. -/
theorem readHierarchy_follows (width height : Nat) (content : TileContent)
    (compression : Compression) (limits : Limits) :
    Reader.Follows data more (fun _ _ => True)
      (readHierarchy width height content compression limits x)
      (readHierarchy width height content compression limits y)
      (readHierarchy width height content compression limits z) := by
  refine Reader.Follows.of_stable Stable.closed.int32 fun _ => ?_
  refine Reader.Follows.of_stable Stable.closed.int32 fun _ => ?_
  refine Reader.Follows.of_stable Stable.closed.word fun channels => ?_
  refine Reader.Follows.of_stable Stable.offset fun level => ?_
  refine Reader.Follows.ite (Reader.Follows.throw_bind _ _) ?_
  -- Up to the level itself nothing is read through the window.
  refine Reader.Follows.of_stable (Hierarchy.stable_skipLevels limits _) fun _ => ?_
  refine Reader.Follows.of_stable Stable.closed.position fun resume => ?_
  refine Reader.Follows.of_stable (Stable.closed.seek level) fun _ => ?_
  have hlevel := Hierarchy.readLevel_follows h width height channels content compression
  refine hlevel.bind fun _ _ _ => ?_
  exact Reader.Follows.of_stable (Stable.closed.seek resume) fun _ => Reader.Follows.pure trivial

/-! ### Layers -/

/-- Between the properties of a mask and its pixels there is an offset. -/
theorem readMask_follows (width height : Nat) (compression : Compression) (limits : Limits) :
    Reader.Follows data more (fun _ _ => True) (readMask width height compression limits x)
      (readMask width height compression limits y)
      (readMask width height compression limits z) := by
  refine Reader.Follows.of_stable Stable.closed.word fun width => ?_
  refine Reader.Follows.of_stable Stable.closed.word fun height => ?_
  refine Reader.Follows.of_stable Stable.closed.string fun name => ?_
  -- The property list may end with the data, but something is read behind it.
  refine Reader.Follows.of_settles (Property.settles_readAll limits ChannelProperties.apply _)
    (fun props => ?_) (fun props => ?_)
  · refine Reader.Follows.ite (Reader.Follows.throw_bind _ _) ?_
    refine Reader.Follows.of_stable Stable.offset fun offset => ?_
    refine Reader.Follows.of_stable (Stable.closed.seek offset) fun _ => ?_
    exact (readHierarchy_follows h width height .mask compression limits).bind fun _ _ _ =>
      Reader.Follows.pure trivial
  · exact FailsAtEnd.ite (FailsAtEnd.throw _).bind FailsAtEnd.offset.bind

namespace LayerRecord

/-- Whether there is a mask does not depend on how tiles are read. -/
theorem readMask?_follows (record : LayerRecord) (compression : Compression) (limits : Limits) :
    Reader.Follows data more (fun a b => a.isSome = b.isSome)
      (record.readMask? compression limits x) (record.readMask? compression limits y)
      (record.readMask? compression limits z) := by
  refine Reader.Follows.ite (Reader.Follows.pure rfl) ?_
  refine Reader.Follows.of_stable (Stable.closed.seek _) fun _ => ?_
  exact (readMask_follows h record.width record.height compression limits).bind fun _ _ _ =>
    Reader.Follows.pure rfl

/-- Nor does anything else about a layer but its pixels and the values of its mask. -/
theorem readLayer_follows (record : LayerRecord) (compression : Compression) (paletteSize : Nat)
    (limits : Limits) :
    Reader.Follows data more (fun a b => a.kind = b.kind ∧ a.props = b.props)
      (record.readLayer compression paletteSize limits x)
      (record.readLayer compression paletteSize limits y)
      (record.readLayer compression paletteSize limits z) := by
  refine Reader.Follows.of_stable (Stable.closed.liftM fun _ _ => trivial) fun _ => ?_
  refine Reader.Follows.of_stable (Stable.closed.seek _) fun _ => ?_
  refine (readHierarchy_follows h _ _ _ compression limits).bind fun tiles tiles' _ => ?_
  refine (readMask?_follows h record compression limits).bind fun mask mask' hmask => ?_
  refine Reader.Follows.pure ⟨rfl, ?_⟩
  -- Properties mention the mask only by whether there is one.
  dsimp only
  rw [hmask]

end LayerRecord

end Tiles

/-! ### Documents -/

namespace Document

/-- Two canvases that take the same layers, or none both. -/
def Alike (a b : Option Canvas) : Prop := a.map Canvas.format = b.map Canvas.format

/-- Adding layers that differ in their pixels only keeps canvases alike. -/
theorem addLayer_follows {data more : Bytes} (width height : Nat) (palette : Palette)
    {below below' : Option Canvas} (hbelow : Alike below below') {layer layer' : Layer}
    (hkind : layer.kind = layer'.kind) (hprops : layer.props = layer'.props) :
    Reader.Follows data more (fun a b : Canvas => a.format = b.format)
      (liftM (addLayer width height palette below layer))
        (liftM (addLayer width height palette below' layer'))
      (liftM (addLayer width height palette below' layer')) := by
  -- Whether a layer is taken depends on its kind, its opacity and the format below, not on pixels.
  cases below with
  | none =>
    cases below' with
    | some canvas' => cases hbelow
    | none =>
      unfold addLayer
      dsimp only
      rw [hkind, hprops]
      cases Canvas.forBase? width height layer'.kind layer'.props.opacity palette with
      | none => exact Reader.Follows.throw _
      | some canvas =>
        refine Reader.Follows.pure ?_
        rw [Canvas.paintBase_format, Canvas.paintBase_format]
  | some canvas =>
    cases below' with
    | none => cases hbelow
    | some canvas' =>
      -- Merging asks the canvas for its format only, which no layer changes.
      have hformat : canvas.format = canvas'.format := Option.some.inj hbelow
      have haccepts : canvas.accepts layer.kind = canvas'.accepts layer'.kind := by
        rw [Canvas.accepts, Canvas.accepts, hformat, hkind]
      unfold addLayer
      dsimp only
      rw [haccepts]
      by_cases hcan : canvas'.accepts layer'.kind = true
      · rw [if_pos hcan, if_pos hcan]
        refine Reader.Follows.pure ?_
        rw [Canvas.mergeDown_format, Canvas.mergeDown_format, hformat]
      · rw [if_neg hcan]
        exact Reader.Follows.throw _

section Tiles

variable {data more : Bytes} {x y z : Window} (h : x.Follows data more y z)
include h

/-- A layer goes onto each of two canvases that are alike, or onto neither. -/
theorem readOnto_follows (header : Header) (props : ImageProperties) (limits : Limits)
    {below below' : Option Canvas} (hbelow : Alike below below') (offset : Nat) :
    Reader.Follows data more Alike (readOnto header props limits x below offset)
      (readOnto header props limits y below' offset)
      (readOnto header props limits z below' offset) := by
  refine Reader.Follows.of_stable (Stable.closed.seek offset) fun _ => ?_
  refine Reader.Follows.of_stable (LayerRecord.stable_read limits) fun record => ?_
  -- Whether the layer is visible is told by its record, which all three runs have read.
  refine Reader.Follows.ite ?_ (Reader.Follows.pure hbelow)
  refine (LayerRecord.readLayer_follows h record props.compression props.palette.size limits).bind
    fun layer layer' hlayer => ?_
  exact (addLayer_follows header.width header.height props.palette hbelow hlayer.1 hlayer.2).map
    fun canvas canvas' hcanvas => congrArg some hcanvas

/-- The three runs are in step through the whole document. -/
theorem read_follows (limits : Limits) :
    Reader.Follows data more (fun _ _ => True) (read limits x) (read limits y) (read limits z) := by
  refine Reader.Follows.of_stable Header.stable_read fun header => ?_
  refine Reader.Follows.of_stable (Stable.closed.liftM fun _ _ => trivial) fun _ => ?_
  refine Reader.Follows.of_settles (ImageProperties.settles_read limits) (fun props => ?_)
    fun props => (failsAtEnd_readLayerTable limits _ _).bind
  refine Reader.Follows.of_stable (stable_readLayerTable limits _ _) fun offsets => ?_
  -- Layer by layer, the canvases of the three runs stay alike.
  have hlayers := Reader.Follows.foldlM
    (fun a b offset hab => readOnto_follows h header props limits hab offset) offsets
    (rfl : Alike none none)
  refine hlayers.bind fun below below' hbelow => ?_
  cases below with
  | none => exact Reader.Follows.throw _
  | some canvas =>
    cases below' with
    | none => cases hbelow
    | some canvas' =>
      refine Reader.Follows.of_stable (Stable.closed.liftM fun _ _ => trivial) fun _ => ?_
      exact Reader.Follows.pure trivial

/-- Where a document is found through one window, another finds in longer data what a third finds in
the data. -/
theorem decode_follows {limits : Limits} {document : Document}
    (hdecode : decode data limits x = .ok document) :
    decode (data ++ more) limits y = decode data limits z := by
  unfold decode Reader.parse at hdecode ⊢
  cases hread : read limits x data {} with
  | error error =>
    rw [hread] at hdecode
    cases hdecode
  | ok found => rw [(read_follows h limits hread).1]

end Tiles

/-- **Bytes behind a document.** Where a document is decoded, bytes appended to the data reach the
decoder only as the missing bytes of run length encoded tiles that the end of the data cuts off,
which are taken for zeros otherwise. So they leave the document as it is exactly if these tiles can
be filled up with them instead of zeros. In particular they do if all runs end inside the data. -/
theorem decode_append_iff {data : Bytes} {limits : Limits} {document : Document}
    (hdecode : decode data limits = .ok document) (more : Bytes) :
    (decode (data ++ more) limits = .ok document ↔
      decode data limits (Reader.bytesFilled more) = .ok document) ∧
      ((∃ found, decode data limits Reader.bytesUpTo = .ok found) →
        decode (data ++ more) limits = .ok document) := by
  refine ⟨?_, fun ⟨found, hfound⟩ => ?_⟩
  · rw [decode_follows Window.follows_bytesFilled hdecode]
  · -- With nothing appended, both readings of the data agree, so what was found is the document.
    have hempty : decode (data ++ #[]) limits = .ok found :=
      (decode_follows Window.follows_bytesUpTo hfound).trans hfound
    have hsame : found = document := by
      rw [Array.append_empty, hdecode] at hempty
      exact (Except.ok.inj hempty).symm
    rw [decode_follows Window.follows_bytesUpTo hfound, hfound, hsame]

/-- A file with a gray layer of two pixels whose data, a literal run, is cut off before the second
of them. -/
def cutFile : Bytes :=
  #[103, 105, 109, 112, 32, 120, 99, 102, 32, 102, 105, 108, 101, 0,
    0, 0, 0, 2, 0, 0, 0, 1, 0, 0, 0, 1,
    0, 0, 0, 0, 0, 0, 0, 0,
    0, 0, 0, 42, 0, 0, 0, 0,
    0, 0, 0, 2, 0, 0, 0, 1, 0, 0, 0, 2, 0, 0, 0, 0,
    0, 0, 0, 0, 0, 0, 0, 0,
    0, 0, 0, 74, 0, 0, 0, 0,
    0, 0, 0, 2, 0, 0, 0, 1, 0, 0, 0, 1, 0, 0, 0, 94, 0, 0, 0, 0,
    0, 0, 0, 2, 0, 0, 0, 1, 0, 0, 0, 110, 0, 0, 0, 113,
    254, 10]

/-- The whole file: the second pixel is a light gray. -/
def wholeFile : Bytes := cutFile ++ #[200]

/-- A value that is computed from a document comes from a document. -/
theorem exists_decode {data : Bytes} {limits : Limits} {window : Window}
    {f : Document → Option Pixel} {pixel : Option Pixel}
    (h : (decode data limits window).toOption.map f = some pixel) :
    ∃ document, decode data limits window = .ok document ∧ f document = pixel := by
  cases hdecode : decode data limits window with
  | error error =>
    rw [hdecode] at h
    cases h
  | ok document =>
    rw [hdecode] at h
    exact ⟨document, rfl, Option.some.inj h⟩

set_option maxRecDepth 10000 in
/-- The document in `wholeFile` is not changed by another byte. -/
theorem decode_wholeFile_append :
    ∃ document, decode wholeFile = .ok document ∧ decode (wholeFile ++ #[7]) = .ok document := by
  -- No run reaches past the end, so that nothing is filled up.
  have hinside : (decode wholeFile {} Reader.bytesUpTo).toOption.map
      (fun d => d.canvas.colorAt? 1 0) =
      some (some (Rgb.gray 200).solid) := by decide +kernel
  obtain ⟨found, hfound, -⟩ := exists_decode hinside
  have hwhole : decode (wholeFile ++ #[]) = .ok found :=
    (decode_follows Window.follows_bytesUpTo hfound).trans hfound
  rw [Array.append_empty] at hwhole
  exact ⟨found, hwhole, (decode_append_iff hwhole #[7]).2 ⟨found, hfound⟩⟩

set_option maxRecDepth 10000 in
/-- The document in `cutFile` is changed by the byte that is missing there: without it the second
pixel is black. -/
theorem decode_cutFile_append :
    ∃ cut whole, decode cutFile = .ok cut ∧ decode (cutFile ++ #[200]) = .ok whole ∧
      cut.canvas.colorAt? 1 0 = some (Rgb.gray 0).solid ∧
      whole.canvas.colorAt? 1 0 = some (Rgb.gray 200).solid := by
  -- The missing byte is read as zero, and the appended one as it is.
  have hcut : (decode cutFile).toOption.map (fun d => d.canvas.colorAt? 1 0) =
      some (some (Rgb.gray 0).solid) := by
    decide +kernel
  have hwhole : (decode (cutFile ++ #[200])).toOption.map (fun d => d.canvas.colorAt? 1 0) =
      some (some (Rgb.gray 200).solid) := by decide +kernel
  obtain ⟨cut, hdecode, hpixel⟩ := exists_decode hcut
  obtain ⟨whole, hdecode', hpixel'⟩ := exists_decode hwhole
  exact ⟨cut, whole, hdecode, hdecode', hpixel, hpixel'⟩

end Document

end XcfFlatten
