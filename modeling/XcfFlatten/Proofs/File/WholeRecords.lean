import XcfFlatten.Proofs.File.Appended
import XcfFlatten.Proofs.File.HeaderGrammar
import XcfFlatten.Proofs.File.Outline

/-!
# Records that are cut off

While a property list is read, nothing is said about records that reach past the end of the data: a
payload is filled up with zeros, and a record that is not known is skipped wherever it ends. But then
the next thing that has to be read fails. So no record is cut off in a file that has a summary
(`Property.not_cutAt`), and the summary depends on nothing behind the data
(`Summary.decode_append`).

* `Property.CutAt` — a record takes more bytes than there are, by what is stored at its beginning;
* `Property.Visits` — the places in a list from which records are read;
* `Property.size_le_of_cutAt` and `Property.size_le_of_visits` — what is left behind a record that is
  cut off, and behind a list with one.
-/

namespace XcfFlatten

namespace Property

/-! ### Records -/

/-- The length of a word and of what is behind it, which may depend on the word. -/
def counted (rest : Nat → Reader Nat) : Reader Nat := do
  let length ← rest (← Reader.word)
  pure (4 + length)

/-- How many bytes a record takes behind its tag, by what is stored there. A colour map counts its
colours, and other records count the bytes of their payloads. The parts of a unit are read one by
one. -/
def extent : Option PropertyTag → Reader Nat
  | some .colormap => counted fun _ => counted fun colors => pure (colors * 3)
  | some .userUnit => pure 0
  | _ => counted pure

/-- Most records count the bytes of their payloads. -/
theorem extent_of_ne {tag? : Option PropertyTag} (hcolormap : tag? ≠ some .colormap)
    (hunit : tag? ≠ some .userUnit) : extent tag? = counted pure := by
  unfold extent
  split
  · exact absurd rfl hcolormap
  · exact absurd rfl hunit
  · rfl

/-- The record at a place takes more bytes than there are. -/
def CutAt (data : Bytes) (place : Cursor) : Prop :=
  ∃ code behindTag length after, Reader.word data place = .ok (code, behindTag) ∧
    extent (PropertyTag.ofCode? code) data behindTag = .ok (length, after) ∧
    data.size < behindTag.position + length

/-- Where something takes more bytes than there are, reading it leaves nothing behind it. -/
def UsesUp {α : Type} (reader : Reader α) (extent : Reader Nat) : Prop :=
  ∀ ⦃data cursor a after length stop⦄, reader data cursor = .ok (a, after) →
    extent data cursor = .ok (length, stop) → data.size < cursor.position + length →
    data.size ≤ after.position

namespace UsesUp

variable {α β : Type} {x y : Reader α} {extent : Reader Nat}

/-- What fails uses nothing up. -/
theorem throw_bind (error : ReadError) (f : α → Reader β) (extent : Reader Nat) :
    UsesUp (throw error >>= f) extent := by
  intro data cursor a after length stop hread
  cases hread

/-- Either reader would use up the data. -/
theorem ite {c : Prop} [Decidable c] (hx : UsesUp x extent) (hy : UsesUp y extent) :
    UsesUp (if c then x else y) extent := by
  split
  · exact hx
  · exact hy

/-- What is done with a result does not move the reader back. -/
theorem map (hx : UsesUp x extent) (g : α → β) : UsesUp (x >>= fun a => pure (g a)) extent := by
  intro data cursor b after length stop hread hextent hshort
  obtain ⟨a, middle, ha, hb⟩ := Reader.bind_eq_ok.mp hread
  cases hb
  exact hx ha hextent hshort

/-- The length of what is behind a word counts from there. -/
theorem word_bind {f : Nat → Reader α} {rest : Nat → Reader Nat}
    (h : ∀ n < 2 ^ 32, UsesUp (f n) (rest n)) : UsesUp (Reader.word >>= f) (counted rest) := by
  intro data cursor a after length stop hread hextent hshort
  obtain ⟨n, _, hword, hread⟩ := Reader.bind_eq_ok.mp hread
  rw [counted, Reader.bind_of_ok hword] at hextent
  obtain ⟨hlt, -, rfl⟩ := Reader.word_eq_ok_iff.mp hword
  obtain ⟨left, _, hrest, hextent⟩ := Reader.bind_eq_ok.mp hextent
  cases hextent
  exact h n hlt hread hrest (by dsimp only; omega)

/-- A word may be read as the bytes it has. -/
theorem bytes_bind {f : Bytes → Reader α} {rest : Nat → Reader Nat}
    (h : ∀ bytes : Bytes, UsesUp (f bytes) (rest bytes.toNat)) :
    UsesUp (Reader.bytes 4 >>= f) (counted rest) := by
  intro data cursor a after length stop hread hextent hshort
  obtain ⟨bytes, _, hbytes, hread⟩ := Reader.bind_eq_ok.mp hread
  -- The same bytes, read as a number, say how far the record reaches.
  have hword : Reader.word data cursor = .ok (bytes.toNat, _) :=
    Reader.bind_eq_ok.mpr ⟨bytes, _, hbytes, rfl⟩
  rw [counted, Reader.bind_of_ok hword] at hextent
  obtain ⟨-, -, rfl⟩ := Reader.word_eq_ok_iff.mp hword
  obtain ⟨left, _, hrest, hextent⟩ := Reader.bind_eq_ok.mp hextent
  cases hextent
  exact h bytes hread hrest (by dsimp only; omega)

/-- What has been filled up reaches to the end of the data. -/
theorem bytesPadded (length : Nat) : UsesUp (Reader.bytesPadded length) (pure length) := by
  intro data cursor p after _ _ hread hextent hshort
  cases hextent
  have hafter : after.position =
      cursor.position + (data.extract cursor.position (cursor.position + length)).size := by
    cases hread
    rfl
  rw [hafter, Array.size_extract]
  omega

/-- What has been skipped may reach past it. -/
theorem skip {length : Nat} (hlength : length < 2 ^ 32) :
    UsesUp (Reader.skip length) (pure length) := by
  intro data cursor _ after _ _ hread hextent hshort
  cases hextent
  -- A length of 32 bits is not negative when it is added to the position.
  have hsigned : signed64 length = length := if_pos (by omega)
  obtain ⟨position, middle, hposition, hread⟩ := Reader.bind_eq_ok.mp hread
  cases hposition
  split at hread
  · cases hread
    dsimp only
    rw [hsigned]
    omega
  · cases hread

/-- Where nothing takes more bytes than there are, and still there are too few, nothing is read. -/
theorem of_failsAtEnd (hx : Reader.FailsAtEnd x) : UsesUp x (pure 0) := by
  intro data cursor a after _ _ hread hextent hshort
  cases hextent
  exact absurd hread (hx (Nat.le_of_lt hshort))

end UsesUp

/-- A record that is cut off leaves nothing behind it. -/
theorem size_le_of_cutAt {limits : Limits} {data : Bytes} {place after : Cursor}
    {record? : Option Property} (hread : read? limits data place = .ok (record?, after))
    (hcut : CutAt data place) : data.size ≤ after.position := by
  obtain ⟨code, behindTag, length, stop, hcode, hextent, hshort⟩ := hcut
  have hbehind := (Reader.bind_of_ok hcode).symm.trans hread
  refine (?_ : UsesUp _ (extent (PropertyTag.ofCode? code))) hbehind hextent hshort
  -- A record is read in one of four ways, and each stops where what it takes is counted to.
  split
  · next hnone =>
    rw [hnone, @extent_of_ne none nofun nofun]
    exact UsesUp.word_bind fun size hlt => (UsesUp.skip hlt).map fun _ => none
  · next hcolormap =>
    rw [hcolormap]
    refine UsesUp.word_bind fun _ _ => UsesUp.bytes_bind fun count => ?_
    refine UsesUp.ite (UsesUp.throw_bind _ _ _) ?_
    exact (UsesUp.bytesPadded _).map fun p => some (⟨.colormap, count ++ p.1⟩ : Property)
  · next hunit =>
    rw [hunit]
    exact UsesUp.of_failsAtEnd Reader.FailsAtEnd.word.bind
  · next tag hcolormap hunit htag =>
    rw [htag, extent_of_ne (fun h => hcolormap (Option.some.inj h)) fun h =>
      hunit (Option.some.inj h)]
    refine UsesUp.word_bind fun size _ => UsesUp.ite (UsesUp.throw_bind _ _ _) ?_
    exact (UsesUp.bytesPadded _).map fun p => some (⟨tag, p.1⟩ : Property)

/-- A payload of nine bytes of which one is there is filled up. -/
example : CutAt #[0, 0, 0, 8, 0, 0, 0, 9, 1] {} ∧
    read? {} #[0, 0, 0, 8, 0, 0, 0, 9, 1] {} =
      .ok (some ⟨.visible, #[1, 0, 0, 0, 0, 0, 0, 0, 0]⟩, ⟨9, 0⟩) :=
  ⟨⟨8, ⟨4, 0⟩, 13, ⟨8, 0⟩, rfl, rfl, by decide⟩, rfl⟩

/-! ### Lists -/

/-- The places in a list from which records are read. -/
inductive Visits (limits : Limits) (data : Bytes) : Cursor → Cursor → Prop
  | first (start : Cursor) : Visits limits data start start
  | next {start middle place : Cursor} {record? : Option Property}
      (hread : read? limits data start = .ok (record?, middle))
      (hrecord : ∀ record ∈ record?, record.tag ≠ .terminator)
      (hrest : Visits limits data middle place) : Visits limits data start place

section

variable {σ : Type} {limits : Limits} {apply : Property → σ → Applied σ} {data : Bytes}
  {start after : Cursor} {state result : σ}

/-- To read a list, there has to be room for a record. -/
theorem exists_eq_add_one_of_foldRecords {remaining : Nat}
    (h : foldRecords limits apply data remaining start state = (result, .ok after)) :
    ∃ left, remaining = left + 1 := by
  cases remaining with
  | zero => cases h
  | succ left => exact ⟨left, rfl⟩

/-- Of the records in a list that is read, only the terminator may be cut off, and then nothing is
left behind the list. -/
theorem size_le_of_visits {place : Cursor} {remaining : Nat}
    (h : foldRecords limits apply data remaining start state = (result, .ok after))
    (hvisits : Visits limits data start place) (hcut : CutAt data place) :
    data.size ≤ after.position := by
  -- By induction on the way to the place. Behind each record on it there is a list that is read, and
  -- it ends where the whole list ends.
  induction hvisits generalizing remaining state with
  | first start =>
    obtain ⟨remaining, rfl⟩ := exists_eq_add_one_of_foldRecords h
    obtain ⟨record?, middle, hread, hcases⟩ := (foldRecords_succ_iff limits apply).mp h
    have hend : data.size ≤ middle.position := size_le_of_cutAt hread hcut
    rcases hcases with ⟨-, -, -, -, rfl⟩ | ⟨next, -, hrest⟩
    · exact hend
    · -- A list cannot go on from there.
      have hne := foldRecords_ne_ok limits apply hend remaining next after
      exact absurd (congrArg Prod.snd hrest) hne
  | next hread hrecord hrest ih =>
    obtain ⟨remaining, rfl⟩ := exists_eq_add_one_of_foldRecords h
    obtain ⟨record?, middle, hread', hcases⟩ := (foldRecords_succ_iff limits apply).mp h
    obtain ⟨rfl, rfl⟩ := Prod.mk.inj (Except.ok.inj (hread.symm.trans hread'))
    rcases hcases with ⟨property, rfl, hterminator, -⟩ | ⟨next, -, hrest⟩
    · exact absurd hterminator (hrecord property rfl)
    · exact ih hrest hcut

/-- **Whole records.** Where something is read behind a list, no record in the list is cut off. -/
theorem not_cutAt {β : Type} {f : σ → Reader β} (hf : ∀ a, Reader.FailsAtEnd (f a))
    {b : β × Cursor} (h : (readAll limits apply state >>= f) data start = .ok b) {place : Cursor}
    (hvisits : Visits limits data start place) : ¬ CutAt data place := by
  intro hcut
  obtain ⟨a, middle, hlist, hrest⟩ := Reader.bind_eq_ok.mp h
  have hend := size_le_of_visits ((readAll_eq_ok_iff limits apply).mp hlist) hvisits hcut
  exact hf a hend hrest

end

end Property

/-! ### Layers -/

namespace LayerRecord

/-- Reads what stands in front of the properties of a layer. -/
def readFront : Reader Unit := do
  let _ ← Reader.word
  let _ ← Reader.word
  let _ ← Reader.word
  let _ ← Reader.string

/-- In a layer that is read, no property is cut off. -/
theorem not_cutAt {limits : Limits} {data : Bytes} {cursor start place after : Cursor}
    {record : LayerRecord} (h : read limits data cursor = .ok (record, after))
    (hfront : readFront data cursor = .ok ((), start))
    (hvisits : Property.Visits limits data start place) : ¬ Property.CutAt data place := by
  obtain ⟨width, _, hwidth, h⟩ := Reader.bind_eq_ok.mp h
  obtain ⟨height, _, hheight, h⟩ := Reader.bind_eq_ok.mp h
  obtain ⟨id, _, hid, h⟩ := Reader.bind_eq_ok.mp h
  rw [readFront, Reader.bind_of_ok hwidth, Reader.bind_of_ok hheight,
    Reader.bind_of_ok hid] at hfront
  -- The name is read only for a kind that is known. Then the list begins, and offsets follow it.
  cases hkind : LayerKind.ofId? id with
  | none =>
    rw [hkind] at h
    cases h
  | some kind =>
    rw [hkind] at h
    obtain ⟨name, _, hname, h⟩ := Reader.bind_eq_ok.mp h
    rw [Reader.bind_of_ok hname] at hfront
    cases hfront
    exact Property.not_cutAt (fun props => Reader.FailsAtEnd.offset.bind) h hvisits

end LayerRecord

/-! ### Summaries -/

/-- Where bytes are appended to a file, its outline stays. -/
theorem Outline.IsOf.append {outline : Outline} {limits : Limits} {data : Bytes}
    (h : outline.IsOf limits data) (more : Bytes) : outline.IsOf limits (data ++ more) := by
  obtain ⟨behindHeader, behindProps, behindTable, offsets, hheader, hprops, htable, hrecords⟩ := h
  -- The table has to be read behind the properties of the image.
  have hopen : ¬ data.size ≤ behindProps.position := fun hend =>
    failsAtEnd_readLayerTable limits limits.maxLayers [] hend htable
  have hstable := (ImageProperties.settles_read limits hprops).resolve_left hopen
  refine ⟨behindHeader, behindProps, behindTable, offsets, Header.stable_read hheader more,
    hstable more, stable_readLayerTable limits limits.maxLayers [] htable more, ?_⟩
  refine hrecords.imp fun offset record hrecord => ?_
  obtain ⟨after, hread⟩ := hrecord
  exact ⟨after, LayerRecord.stable_read limits hread more⟩

namespace Summary

/-- The property lists of a file begin behind its header, and behind the names of its layers. -/
inductive ListBegins (data : Bytes) : Cursor → Prop
  | image {header : Header} {start : Cursor} (hheader : Header.read data {} = .ok (header, start)) :
      ListBegins data start
  | layer {header : Header} {props : ImageProperties} {offsets : List Nat} {offset : Nat}
      {behindHeader behindProps behindTable start : Cursor}
      (hheader : Header.read data {} = .ok (header, behindHeader))
      (hprops : ImageProperties.read {} data behindHeader = .ok (props, behindProps))
      (htable : readLayerTable {} ({} : Limits).maxLayers [] data behindProps =
        .ok (offsets, behindTable))
      (hoffset : offset ∈ offsets)
      (hfront : LayerRecord.readFront data ⟨offset, behindTable.version⟩ = .ok ((), start)) :
      ListBegins data start

/-- **Bytes that are not there.** What is appended to a file that has a summary does not change the
summary, and no record in the file is cut off. -/
theorem decode_append {data : Bytes} {summary : Summary} (h : decode data = .ok summary) :
    (∀ more, decode (data ++ more) = .ok summary) ∧
      ∀ start place, ListBegins data start → Property.Visits {} data start place →
        ¬ Property.CutAt data place := by
  obtain ⟨outline, houtline, rfl⟩ := decode_eq_ok_iff.mp h
  -- The summary is what the outline says, and the longer file has the same outline.
  refine ⟨fun more => decode_eq_ok_iff.mpr ⟨outline, houtline.append more, rfl⟩, ?_⟩
  obtain ⟨behindHeader, behindProps, behindTable, offsets, hheader, hprops, htable, hrecords⟩ :=
    houtline
  intro start place hbegins hvisits
  -- Behind the properties of the image its table of layers is read, and behind those of a layer the
  -- offset of its pixels.
  cases hbegins with
  | image hheader' =>
    obtain ⟨-, rfl⟩ := Prod.mk.inj (Except.ok.inj (hheader.symm.trans hheader'))
    have hrest : (ImageProperties.read {} >>= fun _ =>
        readLayerTable {} ({} : Limits).maxLayers []) data behindHeader =
          .ok (offsets, behindTable) := (Reader.bind_of_ok hprops).trans htable
    exact Property.not_cutAt (fun _ => failsAtEnd_readLayerTable _ _ _) hrest hvisits
  | layer hheader' hprops' htable' hoffset hfront =>
    obtain ⟨-, rfl⟩ := Prod.mk.inj (Except.ok.inj (hheader.symm.trans hheader'))
    obtain ⟨-, rfl⟩ := Prod.mk.inj (Except.ok.inj (hprops.symm.trans hprops'))
    obtain ⟨rfl, rfl⟩ := Prod.mk.inj (Except.ok.inj (htable.symm.trans htable'))
    obtain ⟨i, rfl⟩ := List.mem_iff_get.mp hoffset
    obtain ⟨after, hread⟩ := hrecords.get i.isLt (hrecords.length_eq ▸ i.isLt)
    exact LayerRecord.not_cutAt hread hfront hvisits

set_option maxRecDepth 10000 in
/-- A file with one layer has a summary, whatever is appended to it, and the list that begins behind
its header is whole. -/
theorem decode_append_wholeFile :
    ∃ summary, decode Document.wholeFile = .ok summary ∧
      decode (Document.wholeFile ++ #[7, 7]) = .ok summary ∧
      ¬ Property.CutAt Document.wholeFile ⟨26, 0⟩ := by
  have hsome : (decode Document.wholeFile).toOption.isSome = true := by decide +kernel
  cases hdecode : decode Document.wholeFile with
  | error error =>
    rw [hdecode] at hsome
    cases hsome
  | ok summary =>
    obtain ⟨hmore, hwhole⟩ := decode_append hdecode
    -- The list of the image is visited right behind the header.
    have hheader : Header.read Document.wholeFile {} = .ok (⟨0, 2, 1, .gray, none⟩, ⟨26, 0⟩) := rfl
    exact ⟨summary, rfl, hmore #[7, 7], hwhole _ _ (.image hheader) (.first _)⟩

end Summary

end XcfFlatten
