import Mathlib.Data.List.Forall2
import XcfFlatten.File.Document
import XcfFlatten.File.Summary
import XcfFlatten.Proofs.Canvas.Invariant
import XcfFlatten.Proofs.Canvas.Stack
import XcfFlatten.Proofs.File.Outcome

/-!
# Outlines

The summary of a file and its document are read in different ways: one goes through the layers from
the top down and looks at their records only, the other goes from the bottom up and reads pixels in
between. But both find the same outline, as a record at an offset depends on nothing but the data and
the version (`LayerRecord.IsAt`), and readers of pixels keep the version.

* `Summary.decode_eq_ok_iff` — the summary is what the outline says;
* `Document.exists_outline` — there is no document without an outline with a layer to be seen;
* `Document.decode_eq_noVisibleLayers_iff` — and where none can be seen, nothing else matters.
-/

namespace XcfFlatten

/-! ### Records of layers -/

/-- The record of a layer is at an offset in the data. -/
def LayerRecord.IsAt (limits : Limits) (data : Bytes) (version offset : Nat)
    (record : LayerRecord) : Prop :=
  ∃ after, LayerRecord.read limits data ⟨offset, version⟩ = .ok (record, after)

/-- What a file says before any pixels are read. -/
structure Outline where
  header : Header
  props : ImageProperties
  /-- The layers from the bottom up. -/
  records : List LayerRecord

namespace Outline

/-- The outline is what the data begins with, and what it has at the offsets of its layers. -/
def IsOf (outline : Outline) (limits : Limits) (data : Bytes) : Prop :=
  ∃ behindHeader behindProps behindTable offsets,
    Header.read data {} = .ok (outline.header, behindHeader) ∧
    ImageProperties.read limits data behindHeader = .ok (outline.props, behindProps) ∧
    readLayerTable limits limits.maxLayers [] data behindProps = .ok (offsets, behindTable) ∧
    List.Forall₂ (LayerRecord.IsAt limits data behindTable.version) offsets outline.records

/-- The summary of a file with this outline. -/
def summary (outline : Outline) : Summary where
  version := outline.header.version
  width := outline.header.width
  height := outline.header.height
  baseType := outline.header.baseType
  precision := outline.header.precision
  compression := outline.props.compression
  paletteSize := outline.props.palette.size
  resolution := outline.props.resolution
  comment := outline.props.comment
  layers := outline.records.reverse.map LayerRecord.summary

/-- No layer is visible. -/
def Hidden (outline : Outline) : Prop := ∀ record ∈ outline.records, record.props.visible = false

/-- Whether a layer is visible is in the summary too. -/
theorem hidden_iff (outline : Outline) :
    outline.Hidden ↔ ∀ layer ∈ outline.summary.layers, layer.visible = false := by
  simp only [summary, List.mem_map, List.mem_reverse, forall_exists_index, and_imp,
    forall_apply_eq_imp_iff₂]
  rfl

end Outline

/-! ### Summaries -/

namespace Summary

variable {limits : Limits} {data : Bytes}

/-- A layer is summed up by its record, which is at its offset. -/
theorem readLayer_eq_ok_iff {done layers : List LayerSummary} {offset : Nat}
    {cursor after : Cursor} :
    readLayer limits done offset data cursor = .ok (layers, after) ↔
      ∃ record, LayerRecord.read limits data ⟨offset, cursor.version⟩ = .ok (record, after) ∧
        layers = record.summary :: done := by
  unfold readLayer
  rw [Reader.bind_eq_ok]
  constructor
  · -- Seeking cannot fail, so that the record alone decides.
    rintro ⟨_, middle, hseek, h⟩
    cases hseek
    obtain ⟨record, stop, hread, hlayers⟩ := Reader.bind_eq_ok.mp h
    cases hlayers
    exact ⟨record, hread, rfl⟩
  · rintro ⟨record, hread, rfl⟩
    exact ⟨(), _, rfl, Reader.bind_eq_ok.mpr ⟨record, after, hread, rfl⟩⟩

/-- The summaries of layers come from the records at their offsets. -/
theorem foldlM_readLayer_iff {offsets : List Nat} {done layers : List LayerSummary}
    {cursor : Cursor} :
    (∃ after, offsets.foldlM (readLayer limits) done data cursor = .ok (layers, after)) ↔
      ∃ records, List.Forall₂ (LayerRecord.IsAt limits data cursor.version) offsets records ∧
        layers = (records.map LayerRecord.summary).reverse ++ done := by
  -- By induction on the offsets. The summaries come out in reverse, since each is put in front.
  induction offsets generalizing done cursor with
  | nil =>
    constructor
    · rintro ⟨after, h⟩
      cases h
      exact ⟨[], .nil, rfl⟩
    · rintro ⟨records, hrecords, rfl⟩
      cases hrecords
      exact ⟨cursor, rfl⟩
  | cons offset offsets ih =>
    simp only [List.foldlM_cons, Reader.bind_eq_ok, readLayer_eq_ok_iff]
    constructor
    · rintro ⟨after, _, middle, ⟨record, hread, rfl⟩, hrest⟩
      -- The records that follow are read with the same version.
      obtain ⟨records, hrecords, rfl⟩ := ih.mp ⟨after, hrest⟩
      rw [(LayerRecord.tame_read limits).version_eq hread] at hrecords
      exact ⟨record :: records, .cons ⟨middle, hread⟩ hrecords, by simp⟩
    · rintro ⟨_, hrecords, rfl⟩
      cases hrecords with
      | @cons _ record _ records hrecord hrecords =>
        obtain ⟨middle, hread⟩ := hrecord
        rw [← (LayerRecord.tame_read limits).version_eq hread] at hrecords
        have hlayers : ((record :: records).map LayerRecord.summary).reverse ++ done =
            (records.map LayerRecord.summary).reverse ++ (record.summary :: done) := by simp
        obtain ⟨after, hrest⟩ := ih.mpr ⟨records, hrecords, hlayers⟩
        exact ⟨after, record.summary :: done, middle, ⟨record, hread, rfl⟩, hrest⟩

/-- **Summaries.** The summary of a file is read exactly where the file has an outline, and says what
that says. -/
theorem decode_eq_ok_iff {summary : Summary} :
    decode data = .ok summary ↔ ∃ outline : Outline, outline.IsOf {} data ∧
      summary = outline.summary := by
  unfold decode read
  simp only [Reader.parse_eq_ok_iff, Reader.bind_eq_ok]
  constructor
  · rintro ⟨_, header, behindHeader, hheader, props, behindProps, hprops, offsets, behindTable, htable,
      layers, stop, hlayers, hsummary⟩
    cases hsummary
    obtain ⟨records, hrecords, rfl⟩ := foldlM_readLayer_iff.mp ⟨_, hlayers⟩
    refine ⟨⟨header, props, records.reverse⟩,
      ⟨behindHeader, behindProps, behindTable, offsets, hheader, hprops, htable, ?_⟩, ?_⟩
    · rw [← List.forall₂_reverse_iff, List.reverse_reverse]
      exact hrecords
    · simp [Outline.summary]
  · rintro ⟨⟨header, props, records⟩,
      ⟨behindHeader, behindProps, behindTable, offsets, hheader, hprops, htable, hrecords⟩, rfl⟩
    obtain ⟨stop, hlayers⟩ := foldlM_readLayer_iff.mpr
      ⟨records.reverse, List.forall₂_reverse_iff.mpr hrecords, rfl⟩
    refine ⟨stop, header, behindHeader, hheader, props, behindProps, hprops, offsets, behindTable,
      htable, _, stop, hlayers, ?_⟩
    -- The layers are turned around once for reading and once at the end.
    have hlayers : ((records.reverse.map LayerRecord.summary).reverse ++ []).reverse =
        records.reverse.map LayerRecord.summary := by
      rw [List.append_nil, List.reverse_reverse]
    rw [hlayers]
    rfl

end Summary

/-! ### Documents -/

/-- Layers do not change the size of the canvas, and the first one finds it as large as the image.
-/
theorem Canvas.size_of_addLayer {width height : Nat} {palette : Palette} {below : Option Canvas}
    {layer : Layer} {canvas : Canvas}
    (hbelow : ∀ lower, below = some lower → lower.width = width ∧ lower.height = height)
    (h : Document.addLayer width height palette below layer = .ok canvas) :
    canvas.width = width ∧ canvas.height = height := by
  unfold Document.addLayer at h
  -- The first layer makes a canvas of the size of the image, and the others keep it.
  cases below with
  | none =>
    cases hbase : forBase? width height layer.kind layer.props.opacity palette with
    | none =>
      rw [hbase] at h
      cases h
    | some lower =>
      rw [hbase] at h
      cases h
      rw [paintBase_width, paintBase_height]
      exact (sound_forBase? hbase).2
  | some lower =>
    dsimp only at h
    split at h
    · cases h
      rw [mergeDown_width, mergeDown_height]
      exact hbelow lower rfl
    · cases h

namespace Document

/-- A layer that cannot be added is refused for its kind. -/
theorem addLayer_ne (width height : Nat) (palette : Palette) (below : Option Canvas)
    (layer : Layer) : addLayer width height palette below layer ≠ .error .noVisibleLayers := by
  unfold addLayer
  split
  · split
    · exact nofun
    · exact nofun
  · split
    · exact nofun
    · exact nofun

/-- A resolution is refused for being out of range. -/
theorem perMeter_ne (dpi : UInt32) : perMeter dpi ≠ .error .noVisibleLayers := by
  unfold perMeter
  dsimp only
  split
  · exact nofun
  · exact nofun

/-- And so are two of them. -/
theorem dotsPerMeter?_ne (resolution : Option (UInt32 × UInt32)) :
    dotsPerMeter? resolution ≠ .error .noVisibleLayers := by
  unfold dotsPerMeter?
  split
  · exact nofun
  · next x y =>
    split
    · intro h
      -- The first of the two is looked at first, and its error is the one that counts.
      cases hx : perMeter x with
      | error error =>
        rw [hx] at h
        exact perMeter_ne x (hx.trans (congrArg Except.error (Except.error.inj h)))
      | ok xDots =>
        rw [hx] at h
        cases hy : perMeter y with
        | error error =>
          rw [hy] at h
          exact perMeter_ne y (hy.trans (congrArg Except.error (Except.error.inj h)))
        | ok yDots =>
          rw [hy] at h
          cases h
    · exact nofun

/-- What layers leave: nothing if all of them are hidden, else a canvas as large as the image. -/
def LeftBy (header : Header) (records : List LayerRecord) : Option Canvas → Prop
  | none => ∀ record ∈ records, record.props.visible = false
  | some canvas => (∃ record ∈ records, record.props.visible = true) ∧
      canvas.width = header.width ∧ canvas.height = header.height

/-- Before the first layer nothing is left by any. -/
theorem leftBy_nil (header : Header) : LeftBy header [] none := by
  intro record hrecord
  cases hrecord

/-- A hidden layer leaves what there was before. -/
theorem LeftBy.append_hidden {header : Header} {passed : List LayerRecord} {below : Option Canvas}
    (h : LeftBy header passed below) {record : LayerRecord} (hhidden : record.props.visible = false) :
    LeftBy header (passed ++ [record]) below := by
  -- A hidden layer neither makes a canvas nor changes one.
  cases below with
  | none =>
    intro r hr
    rcases List.mem_append.mp hr with hr | hr
    · exact h r hr
    · rw [List.mem_singleton.mp hr]
      exact hhidden
  | some canvas =>
    obtain ⟨⟨r, hr, hvisible⟩, hsize⟩ := h
    exact ⟨⟨r, List.mem_append_left _ hr, hvisible⟩, hsize⟩

section

variable {limits : Limits} {window : Window} {data : Bytes} {header : Header}
  {props : ImageProperties}

/-- A hidden layer is passed over, and the reader stops behind its record. -/
theorem readOnto_of_hidden {below : Option Canvas} {offset : Nat} {cursor after : Cursor}
    {record : LayerRecord}
    (hread : LayerRecord.read limits data ⟨offset, cursor.version⟩ = .ok (record, after))
    (hhidden : record.props.visible = false) :
    readOnto header props limits window below offset data cursor = .ok (below, after) := by
  unfold readOnto
  refine Reader.bind_eq_ok.mpr ⟨(), _, rfl, Reader.bind_eq_ok.mpr ⟨record, after, hread, ?_⟩⟩
  rw [if_neg (by rw [hhidden]; decide)]
  rfl

/-- Where a layer is passed over or added, its record is at its offset, and it leaves what it is
meant to. -/
theorem leftBy_of_readOnto {below result : Option Canvas} {passed : List LayerRecord}
    (hbelow : LeftBy header passed below) {offset : Nat} {cursor after : Cursor}
    (h : readOnto header props limits window below offset data cursor = .ok (result, after)) :
    ∃ record, record.IsAt limits data cursor.version offset ∧
      LeftBy header (passed ++ [record]) result := by
  unfold readOnto at h
  obtain ⟨_, middle, hseek, h⟩ := Reader.bind_eq_ok.mp h
  cases hseek
  obtain ⟨record, behind, hread, h⟩ := Reader.bind_eq_ok.mp h
  refine ⟨record, ⟨behind, hread⟩, ?_⟩
  split at h
  · next hvisible =>
    obtain ⟨layer, behindLayer, -, h⟩ := Reader.bind_eq_ok.mp h
    obtain ⟨canvas, hadd, rfl⟩ := Reader.map_eq_ok_iff.mp h
    -- A visible layer leaves a canvas, of which it is the witness itself.
    refine ⟨⟨record, List.mem_append_right _ List.mem_cons_self, hvisible⟩, ?_⟩
    refine Canvas.size_of_addLayer (fun lower hlower => ?_) (Reader.liftM_eq_ok_iff.mp hadd).1
    subst hlower
    exact hbelow.2
  · next hhidden =>
    cases h
    exact hbelow.append_hidden (Bool.eq_false_iff.mpr hhidden)

variable (hwindow : ∀ length, (window length).Tame)
include hwindow

/-- Whatever is read for one layer, the next one is read with the same version. -/
theorem tame_readOnto (limits : Limits) (header : Header) (props : ImageProperties)
    (below : Option Canvas) (offset : Nat) :
    Reader.Tame (readOnto header props limits window below offset) := by
  refine (Reader.Tame.closed.seek offset).bind fun _ => ?_
  refine (LayerRecord.tame_read limits).bind fun record => ?_
  refine Reader.Tame.closed.ite ?_ (Reader.Tame.pure below)
  refine (record.tame_readLayer hwindow props.compression props.palette.size limits).bind ?_
  intro layer
  exact Reader.Tame.closed.map (Reader.Tame.liftM (addLayer_ne _ _ _ _ _)) _

/-- Going through the layers finds the record of each at its offset, wherever the pixels of those
below have been read from. -/
theorem leftBy_of_foldlM {offsets : List Nat} {below result : Option Canvas}
    {passed : List LayerRecord} (hbelow : LeftBy header passed below) {cursor after : Cursor}
    (h : offsets.foldlM (readOnto header props limits window) below data cursor =
      .ok (result, after)) :
    ∃ records, List.Forall₂ (LayerRecord.IsAt limits data cursor.version) offsets records ∧
      LeftBy header (passed ++ records) result := by
  induction offsets generalizing below passed cursor with
  | nil =>
    cases h
    exact ⟨[], .nil, by rwa [List.append_nil]⟩
  | cons offset offsets ih =>
    rw [List.foldlM_cons] at h
    obtain ⟨next, middle, hlayer, hrest⟩ := Reader.bind_eq_ok.mp h
    obtain ⟨record, hrecord, hnext⟩ := leftBy_of_readOnto hbelow hlayer
    obtain ⟨records, hrecords, hresult⟩ := ih hnext hrest
    -- The records that follow are read with the same version, whatever has been read of this layer.
    rw [(tame_readOnto hwindow limits header props below offset).version_eq hlayer] at hrecords
    refine ⟨record :: records, .cons hrecord hrecords, ?_⟩
    rwa [List.append_assoc] at hresult

omit hwindow in
/-- Layers all of which are hidden are passed over. -/
theorem foldlM_of_hidden {offsets : List Nat} {records : List LayerRecord} {cursor : Cursor}
    (hrecords : List.Forall₂ (LayerRecord.IsAt limits data cursor.version) offsets records)
    (hhidden : ∀ record ∈ records, record.props.visible = false) (below : Option Canvas) :
    ∃ after, offsets.foldlM (readOnto header props limits window) below data cursor =
      .ok (below, after) := by
  induction offsets generalizing records cursor with
  | nil => exact ⟨cursor, rfl⟩
  | cons offset offsets ih =>
    cases hrecords with
    | @cons _ record _ records hrecord hrecords =>
      obtain ⟨middle, hread⟩ := hrecord
      rw [← (LayerRecord.tame_read limits).version_eq hread] at hrecords
      obtain ⟨after, hrest⟩ := ih hrecords fun r hr => hhidden r (List.mem_cons_of_mem _ hr)
      -- Nothing is read of a hidden layer but its record, so the canvas stays.
      have hlayer : readOnto header props limits window below offset data cursor =
          .ok (below, middle) :=
        readOnto_of_hidden hread (hhidden record List.mem_cons_self)
      rw [List.foldlM_cons]
      exact ⟨after, Reader.bind_eq_ok.mpr ⟨below, middle, hlayer, hrest⟩⟩

/-- **Documents.** The document of a file goes with an outline of the file, in which a layer is
visible. -/
theorem exists_outline {document : Document} (h : decode data limits window = .ok document) :
    ∃ outline : Outline, outline.IsOf limits data ∧
      (∃ record ∈ outline.records, record.props.visible = true) ∧
      document.canvas.width = outline.header.width ∧
      document.canvas.height = outline.header.height ∧
      document.version = outline.header.version ∧ document.comment = outline.props.comment := by
  unfold decode read at h
  simp only [Reader.parse_eq_ok_iff, Reader.bind_eq_ok] at h
  obtain ⟨_, header, behindHeader, hheader, _, _, hcheck, props, behindProps, hprops, offsets,
    behindTable, htable, result, _, hlayers, h⟩ := h
  obtain ⟨-, rfl⟩ := Reader.liftM_eq_ok_iff.mp hcheck
  obtain ⟨records, hrecords, hresult⟩ := leftBy_of_foldlM hwindow (leftBy_nil header) hlayers
  -- With no canvas the document would have been refused.
  cases result with
  | none => cases h
  | some canvas =>
    obtain ⟨dots, _, -, h⟩ := Reader.bind_eq_ok.mp h
    cases h
    exact ⟨⟨header, props, records⟩, ⟨_, _, _, _, hheader, hprops, htable, hrecords⟩, hresult.1,
      hresult.2.1, hresult.2.2, rfl, rfl⟩

/-- A file is refused for lack of visible layers exactly if all layers in its outline are hidden, and
its image is not too large. -/
theorem decode_hidden_iff :
    decode data limits window = .error .noVisibleLayers ↔
      ∃ outline : Outline, outline.IsOf limits data ∧
        limits.checkSize "image" outline.header.width outline.header.height = .ok () ∧
        outline.Hidden := by
  constructor
  · intro h
    -- Everything before the layers fails for other reasons.
    obtain ⟨header, behindHeader, hheader, hbody⟩ :=
      Header.failsOnly_read.bind_eq_noVisibleLayers_iff.mp (Reader.parse_eq_error_iff.mp h)
    have hsize := Reader.Tame.liftM (limits.checkSize_ne "image" header.width header.height)
    obtain ⟨_, _, hlift, hrest⟩ := hsize.failsOnly.bind_eq_noVisibleLayers_iff.mp hbody
    obtain ⟨props, behindProps, hprops, hlist⟩ :=
      (ImageProperties.tame_read limits).failsOnly.bind_eq_noVisibleLayers_iff.mp hrest
    obtain ⟨offsets, behindTable, htable, hstack⟩ :=
      (tame_readLayerTable limits _ []).failsOnly.bind_eq_noVisibleLayers_iff.mp hlist
    have htame := Reader.Tame.closed.foldlM (tame_readOnto hwindow limits header props) offsets none
    obtain ⟨result, _, hlayers, hresult⟩ := htame.failsOnly.bind_eq_noVisibleLayers_iff.mp hstack
    obtain ⟨records, hrecords, hleft⟩ := leftBy_of_foldlM hwindow (leftBy_nil header) hlayers
    obtain ⟨hcheck, rfl⟩ := Reader.liftM_eq_ok_iff.mp hlift
    cases result with
    | none =>
      exact ⟨⟨header, props, records⟩, ⟨_, _, _, _, hheader, hprops, htable, hrecords⟩, hcheck,
        hleft⟩
    | some canvas =>
      -- Where there is a canvas, only the resolution can be refused.
      have hrest := (Reader.Tame.liftM (dotsPerMeter?_ne props.resolution)).bind fun dots =>
        Reader.Tame.pure (⟨header.version, canvas, props.comment, props.metadata, props.iccProfile,
          dots⟩ : Document)
      exact absurd rfl (hrest.failsOnly hresult)
  · rintro ⟨⟨header, props, records⟩, ⟨_, _, _, offsets, hheader, hprops, htable, hrecords⟩, hcheck,
      hhidden⟩
    obtain ⟨after, hlayers⟩ := foldlM_of_hidden hrecords hhidden none
    refine Reader.parse_eq_error_iff.mpr ?_
    unfold read
    rw [Reader.bind_of_ok hheader, Reader.bind_of_ok (Reader.liftM_eq_ok_iff.mpr ⟨hcheck, rfl⟩),
      Reader.bind_of_ok hprops, Reader.bind_of_ok htable, Reader.bind_of_ok hlayers]
    rfl

end

/-- **Nothing to see.** A file is refused for lack of visible layers exactly if it has a summary, its
image is not too large, and no layer in the summary is visible. Whatever else may be wrong with it, the
pixels and masks of its layers among that, is not looked at. -/
theorem decode_eq_noVisibleLayers_iff (data : Bytes) :
    decode data = .error .noVisibleLayers ↔
      ∃ summary, Summary.decode data = .ok summary ∧
        ({} : Limits).checkSize "image" summary.width summary.height = .ok () ∧
        ∀ layer ∈ summary.layers, layer.visible = false := by
  rw [decode_hidden_iff fun length => Reader.Tame.bytesPadded length]
  -- The summary is read off the outline, and the outline is found where the summary was.
  constructor
  · rintro ⟨outline, houtline, hsize, hhidden⟩
    exact ⟨outline.summary, Summary.decode_eq_ok_iff.mpr ⟨outline, houtline, rfl⟩, hsize,
      outline.hidden_iff.mp hhidden⟩
  · rintro ⟨summary, hsummary, hsize, hhidden⟩
    obtain ⟨outline, houtline, rfl⟩ := Summary.decode_eq_ok_iff.mp hsummary
    exact ⟨outline, houtline, hsize, outline.hidden_iff.mpr hhidden⟩

end Document

end XcfFlatten
