import Mathlib.Data.List.Forall2
import XcfFlatten.Proofs.Canvas.Stack
import XcfFlatten.Proofs.File.CountLimits
import XcfFlatten.Proofs.File.HeaderGrammar
import XcfFlatten.Proofs.File.LayerLayout

/-!
# Documents that are laid out

Decoding undoes encoding for whole documents: the file of a document is decoded to what its visible
layers are flattened to without a file in between, whatever the version and the method of compression
(`StoredDocument.decode_bytes`). The steps follow the file:

* `StoredDocument.read_header` — the header, which is read before offsets have a width;
* `StoredDocument.takes_stack` — the layers, from the bottom up;
* `StoredDocument.decode_eq` — the file, whose table lists them from the top down.
-/

namespace XcfFlatten

/-! ### Canvases of one colour model -/

/-- The canvas for the lowest layer accepts all layers of the same colour model. -/
theorem Canvas.exists_forBase? (width height : Nat) (kind : LayerKind) (opacity : UInt8)
    {palette : Palette} (hsize : palette.size ≤ 256) :
    ∃ canvas, forBase? width height kind opacity palette = some canvas ∧
      ∀ other : LayerKind, other.baseType = kind.baseType → canvas.accepts other = true := by
  have hcolor : ∀ hasAlpha fill, ∀ other : LayerKind,
      (filledColor width height hasAlpha fill).accepts other = true := fun _ _ _ => rfl
  have hgray : ∀ other : LayerKind, other.baseType = .gray → other.isGray = true := by
    intro other hbase
    cases other <;> cases hbase <;> rfl
  have hindexed : ∀ other : LayerKind, other.baseType = .indexed → other.isIndexed = true := by
    intro other hbase
    cases other <;> cases hbase <;> rfl
  -- A colour canvas accepts everything; a gray or an indexed one what the base type promises.
  cases kind with
  | rgb =>
    refine ⟨_, rfl, fun other _ => ?_⟩
    split
    · exact hcolor _ _ other
    · exact hcolor _ _ other
  | rgba => exact ⟨_, rfl, fun other _ => hcolor _ _ other⟩
  | grayAlpha => exact ⟨_, rfl, fun other _ => hcolor _ _ other⟩
  | gray =>
    refine ⟨_, rfl, fun other hbase => ?_⟩
    split
    · exact hgray other hbase
    · exact hcolor _ _ other
  | indexed =>
    -- How many colours there are decides between two formats, both of which hold indices.
    refine ⟨_, if_pos hsize, fun other hbase => ?_⟩
    change (CanvasFormat.palette (if _ then _ else _)).accepts other = true
    split
    · exact hindexed other hbase
    · exact hindexed other hbase
  | indexedAlpha =>
    -- With a full palette there is no room for the transparent entry, and the canvas is one of
    -- colours.
    by_cases hroom : palette.size < 256
    · refine ⟨_, if_pos hroom, fun other hbase => ?_⟩
      change (CanvasFormat.palette (if _ then _ else _)).accepts other = true
      split
      · exact hindexed other hbase
      · exact hindexed other hbase
    · exact ⟨_, if_neg hroom, fun other _ => hcolor _ _ other⟩

/-- A stack of layers of one colour model can be flattened. -/
theorem Canvas.exists_flatten? (width height : Nat) {palette : Palette} (hsize : palette.size ≤ 256)
    {layers : List Layer} (hlayers : layers ≠ []) :
    ∃ canvas, flatten? width height palette layers = some canvas := by
  cases layers with
  | nil => exact absurd rfl hlayers
  | cons bottom above =>
    obtain ⟨canvas, hcanvas, -⟩ :=
      exists_forBase? width height bottom.kind bottom.props.opacity hsize
    exact ⟨_, congrArg (Option.map _) hcanvas⟩

/-! ### The stack of layers -/

namespace StoredDocument

section

variable {compression : Compression} {data : Bytes} {version : Nat}

/-- A layer is at a place in the data. -/
def Located (compression : Compression) (data : Bytes) (version place : Nat) (layer : StoredLayer) :
    Prop :=
  0 < place ∧ data.HasAt place (layer.bytes compression version place)

/-- Each layer is where the layers above it end. -/
theorem located_blocks {place : Nat} (hplace : 0 < place) {layers : List StoredLayer}
    (h : data.HasAt place ((blocks compression version place layers).flatMap Prod.snd)) :
    List.Forall₂ (Located compression data version)
      ((blocks compression version place layers).map Prod.fst) layers := by
  induction layers generalizing place with
  | nil => exact .nil
  | cons layer layers ih =>
    rw [blocks, List.flatMap_cons] at h
    rw [blocks, List.map_cons]
    exact .cons ⟨hplace, h.left⟩ (ih (Nat.add_pos_left hplace _) h.right)

variable (hcompression : compression = .none ∨ compression = .rle) (hsize : data.size < 2 ^ 32)
  (header : Header) (props : ImageProperties) (hprops : props.compression = compression)

include hcompression hsize hprops in
/-- A layer that is to be seen is added to what lies below it. -/
theorem takes_visible {place start : Nat} {layer : StoredLayer}
    (hlocated : Located compression data version place layer) (hvisible : layer.isVisible = true)
    {below : Option Canvas} {canvas : Canvas}
    (hadd : Document.addLayer header.width header.height props.palette below
      (layer.toLayer props.palette.size) = .ok canvas) :
    ∃ stop, (Document.readOnto header props {} Reader.bytesPadded below place).Takes data version
      start stop (some canvas) := by
  obtain ⟨first, second, ⟨middle, hrecord⟩, hlayer⟩ :=
    layer.takes_bytes hcompression hsize hlocated.2
  obtain ⟨stop, hread⟩ := hlayer middle props.palette.size
  rw [← hprops] at hread
  -- The layer is read at its own place, wherever the reading of the one before ended.
  refine (Reader.Takes.seek place).exists_bind ?_
  refine hrecord.exists_bind ?_
  rw [if_pos (show (layer.record first second).props.visible = true from hvisible)]
  exact ⟨stop, hread.bind ((Reader.Takes.liftM hadd).map some)⟩

include hcompression hsize in
/-- A hidden layer is passed over. -/
theorem takes_hidden {place start : Nat} {layer : StoredLayer}
    (hlocated : Located compression data version place layer) (hhidden : ¬ layer.isVisible = true)
    (below : Option Canvas) :
    ∃ stop, (Document.readOnto header props {} Reader.bytesPadded below place).Takes data version
      start stop below := by
  obtain ⟨first, second, ⟨middle, hrecord⟩, -⟩ :=
    layer.takes_bytes hcompression hsize hlocated.2
  refine (Reader.Takes.seek place).exists_bind ?_
  refine hrecord.exists_bind ?_
  -- Of a hidden layer only the record is read.
  rw [if_neg (show ¬ (layer.record first second).props.visible = true from hhidden)]
  exact ⟨middle, Reader.Takes.pure below⟩

include hcompression hsize hprops in
/-- Layers that the canvas accepts are merged onto it, one by one. -/
theorem takes_above {places : List Nat} {layers : List StoredLayer}
    (hlocated : List.Forall₂ (Located compression data version) places layers) {start : Nat}
    {canvas : Canvas} (haccepts : ∀ layer ∈ layers, canvas.accepts layer.kind = true) :
    ∃ stop, (places.foldlM (Document.readOnto header props {} Reader.bytesPadded)
      (some canvas)).Takes data version start stop
        (some (canvas.mergeAll props.palette (StoredLayer.seen props.palette.size layers))) := by
  -- By induction on the layers. Merging one does not change which of the others are accepted.
  induction hlocated generalizing start canvas with
  | nil => exact ⟨start, Reader.Takes.pure _⟩
  | @cons place layer places layers hlayer hlayers ih =>
    have habove : ∀ other ∈ layers, canvas.accepts other.kind = true := fun other hother =>
      haccepts other (List.mem_cons_of_mem _ hother)
    rw [List.foldlM_cons]
    by_cases hvisible : layer.isVisible = true
    · rw [StoredLayer.seen_cons_of_visible hvisible]
      let merged := canvas.mergeDown (layer.toLayer props.palette.size) props.palette
      have hadd : Document.addLayer header.width header.height props.palette (some canvas)
          (layer.toLayer props.palette.size) = .ok merged :=
        if_pos (haccepts layer List.mem_cons_self)
      obtain ⟨middle, hmiddle⟩ :=
        takes_visible hcompression hsize header props hprops hlayer hvisible hadd
      have hmerged : ∀ other ∈ layers, merged.accepts other.kind = true := by
        intro other hother
        unfold Canvas.accepts
        rw [Canvas.mergeDown_format]
        exact habove other hother
      exact hmiddle.exists_bind (ih hmerged)
    · rw [StoredLayer.seen_cons_of_hidden hvisible]
      obtain ⟨middle, hmiddle⟩ :=
        takes_hidden hcompression hsize header props hlayer hvisible (some canvas)
      exact hmiddle.exists_bind (ih habove)

include hcompression hsize hprops in
/-- Layers of one colour model are flattened. -/
theorem takes_stack {places : List Nat} {layers : List StoredLayer}
    (hlocated : List.Forall₂ (Located compression data version) places layers) {start : Nat}
    {base : BaseType} (hbase : ∀ layer ∈ layers, layer.kind.baseType = base)
    (hpalette : props.palette.size ≤ 256) :
    ∃ stop, (places.foldlM (Document.readOnto header props {} Reader.bytesPadded) none).Takes data
      version start stop (Canvas.flatten? header.width header.height props.palette
        (StoredLayer.seen props.palette.size layers)) := by
  -- By induction on the layers up to the first one that is to be seen.
  induction hlocated generalizing start with
  | nil => exact ⟨start, Reader.Takes.pure none⟩
  | @cons place layer places layers hlayer hlayers ih =>
    rw [List.foldlM_cons]
    by_cases hvisible : layer.isVisible = true
    · -- The first layer that is to be seen decides what the canvas is.
      rw [StoredLayer.seen_cons_of_visible hvisible]
      obtain ⟨canvas, hcanvas, haccepts⟩ := Canvas.exists_forBase? header.width header.height
        layer.kind layer.properties.opacity hpalette
      let painted := canvas.paintBase (layer.toLayer props.palette.size) props.palette
      have hadd : Document.addLayer header.width header.height props.palette none
          (layer.toLayer props.palette.size) = .ok painted := by
        unfold Document.addLayer
        rw [show (Canvas.forBase? _ _ (layer.toLayer props.palette.size).kind
          (layer.toLayer props.palette.size).props.opacity _) = some canvas from hcanvas]
        rfl
      obtain ⟨middle, hmiddle⟩ :=
        takes_visible hcompression hsize header props hprops hlayer hvisible hadd
      have hpainted : ∀ other ∈ layers, painted.accepts other.kind = true := by
        intro other hother
        unfold Canvas.accepts
        rw [Canvas.paintBase_format]
        refine haccepts other.kind ?_
        rw [hbase other (List.mem_cons_of_mem _ hother), hbase layer List.mem_cons_self]
      -- The layers above are merged onto what the first one was painted on.
      have hflatten : Canvas.flatten? header.width header.height props.palette
          (layer.toLayer props.palette.size ::
            StoredLayer.seen props.palette.size layers) =
            some (painted.mergeAll props.palette (StoredLayer.seen props.palette.size layers)) :=
        congrArg (Option.map _) hcanvas
      rw [hflatten]
      exact hmiddle.exists_bind
        (takes_above hcompression hsize header props hprops hlayers hpainted)
    · rw [StoredLayer.seen_cons_of_hidden hvisible]
      obtain ⟨middle, hmiddle⟩ :=
        takes_hidden hcompression hsize header props hlayer hvisible none
      exact hmiddle.exists_bind (ih fun other hother => hbase other (List.mem_cons_of_mem _ hother))

end

/-! ### The header -/

/-- The tag of every version is one that names it. -/
theorem acceptedTag_tag {version : Nat} (hversion : version ≤ Header.newestVersion) :
    Header.AcceptedTag (tag version) version := by
  have hall : ∀ version < 12, (tag version).length = 14 ∧ (tag version).take 8 = Header.magic ∧
      (tag version)[13]? = some 0 ∧
      Header.version? (((tag version).drop 9).take 4) = some version := by decide
  obtain ⟨hlength, hmagic, hnul, hname⟩ := hall version (Nat.lt_succ_of_le hversion)
  exact Header.acceptedTag_of_spec hlength hmagic hnul hname

variable (document : StoredDocument)

/-- The header of the document's file. -/
def header : Header where
  version := document.version
  width := document.width
  height := document.height
  baseType := document.model.baseType
  precision := if 4 ≤ document.version then some precision else none

/-- The precision as it is stored. -/
def precisionBytes : List UInt8 := if 4 ≤ document.version then Layout.word precision else []

/-- The header as it is stored. -/
def headerBytes : List UInt8 :=
  tag document.version ++ (Layout.word document.width ++ (Layout.word document.height ++
    (Layout.word (BaseType.all.idxOf document.model.baseType) ++ document.precisionBytes)))

/-- The bytes of the header are its tag and its fields. -/
theorem headerBytes_eq : document.headerBytes = tag document.version ++ document.header.fields := by
  unfold headerBytes precisionBytes header Header.fields
  by_cases hnew : 4 ≤ document.version
  · rw [if_pos hnew, if_pos hnew]
    rfl
  · rw [if_neg hnew, if_neg hnew]
    rfl

/-- The fields of the header fit in their words, and there is a precision in the versions that have
one. -/
theorem fits_header : document.header.Fits where
  width_lt := document.admitted.lt.1
  height_lt := document.admitted.lt.2
  -- The precision is stored in those versions that read it back.
  precision_isSome := by
    unfold header
    split
    · next hnew => exact ⟨fun _ => hnew, fun _ => rfl⟩
    · next hold => exact ⟨nofun, fun hnew => absurd hnew hold⟩
  precision_lt := by
    unfold header
    split
    · rintro _ ⟨⟩
      decide
    · exact nofun

/-- The header is read back. The reader starts without a version and has the document's from then
on. -/
theorem read_header {data : Bytes} (h : data.HasAt 0 document.headerBytes) :
    Header.read data {} =
      .ok (document.header, ⟨document.headerBytes.length, document.version⟩) := by
  rw [document.headerBytes_eq] at h ⊢
  refine Header.read_eq_ok_iff_hasAt.mpr ⟨document.version_le, document.fits_header, _,
    acceptedTag_tag document.version_le, h, ?_⟩
  rw [Nat.zero_add]
  rfl

/-! ### The whole file -/

theorem length_blocks (compression : Compression) (version place : Nat) (layers : List StoredLayer) :
    (blocks compression version place layers).length = layers.length := by
  induction layers generalizing place with
  | nil => rfl
  | cons layer layers ih => rw [blocks, List.length_cons, List.length_cons, ih]

theorem length_flatMap_offset (version : Nat) (places : List Nat) :
    (places.flatMap (Layout.offset version)).length =
      places.length * Layout.offsetWidth version := by
  simp only [List.length_flatMap, Layout.length_offset, List.map_const', List.sum_replicate_nat]

/-- The places of the layers are within the data. -/
theorem places_fit {compression : Compression} {data : Bytes} {version : Nat} {places : List Nat}
    {layers : List StoredLayer} (hsize : data.size < 2 ^ 32)
    (hlocated : List.Forall₂ (Located compression data version) places layers) :
    ∀ place ∈ places, place ≠ 0 ∧ Layout.FitsOffset version place := by
  induction hlocated with
  | nil =>
    intro place hplace
    cases hplace
  | cons hlayer hlayers ih =>
    intro place hplace
    rcases List.mem_cons.mp hplace with rfl | hplace
    · exact ⟨Nat.ne_of_gt hlayer.1, Layout.fitsOffset_of_lt version
        (Nat.lt_of_le_of_lt (Nat.le_of_add_right_le hlayer.2.le_size) hsize)⟩
    · exact ih place hplace

/-- What the file is decoded to, given what its layers are flattened to. -/
def decoded (canvas : Canvas) : Document where
  version := document.version
  canvas
  comment := none
  metadata := none
  iccProfile := none
  dotsPerMeter := none

/-- The properties of the image as they are stored. -/
def propertyBytes (compression : Compression) : List UInt8 :=
  Layout.record .compression [UInt8.ofNat (Compression.all.idxOf compression)] ++
    (document.model.bytes ++ Layout.terminator)

/-- What stands in front of the table is the header and the properties of the image. -/
theorem headBytes_eq (compression : Compression) :
    document.headBytes compression =
      document.headerBytes ++ document.propertyBytes compression := by
  unfold headBytes headerBytes precisionBytes propertyBytes
  simp only [List.append_assoc]

/-- The parts of the file: its header and properties, the table of its layers, and the layers where
the table says. -/
theorem exists_places (compression : Compression) :
    ∃ places, (document.bytes compression).HasAt 0
        (document.headerBytes ++ (document.propertyBytes compression ++
          (places.flatMap (Layout.offset document.version) ++ Layout.offset document.version 0))) ∧
      List.Forall₂ (Located compression (document.bytes compression) document.version) places
        document.layers := by
  let first := (document.headBytes compression).length +
    (document.layers.length + 1) * Layout.offsetWidth document.version
  let layers := blocks compression document.version first document.layers
  let table := (layers.map Prod.fst).flatMap (Layout.offset document.version) ++
    Layout.offset document.version 0
  -- The file is the head, the table and the blocks that the table leads to.
  have hdata : (document.bytes compression).HasAt 0
      (document.headBytes compression ++ table ++ layers.flatMap Prod.snd) := by
    have htable : table = (layers.flatMap fun block => Layout.offset document.version block.1) ++
        Layout.offset document.version 0 := by
      unfold table
      rw [List.flatMap_map]
    rw [htable]
    exact Bytes.HasAt.whole _
  -- How long the table is does not depend on the places in it.
  have hlength : table.length =
      (document.layers.length + 1) * Layout.offsetWidth document.version := by
    unfold table layers
    rw [List.length_append, length_flatMap_offset, List.length_map, length_blocks,
      Layout.length_offset, ← Nat.succ_mul]
  refine ⟨layers.map Prod.fst, ?_, ?_⟩
  · have hhead := hdata.left
    rwa [headBytes_eq, List.append_assoc] at hhead
  · have hlayers := hdata.right
    rw [List.length_append, hlength, Nat.zero_add] at hlayers
    have hpos := Layout.offsetWidth_pos document.version
    exact located_blocks (Nat.add_pos_right _ (Nat.mul_pos (Nat.succ_pos _) hpos)) hlayers

/-- The layers of the file are flattened, the lowest first. -/
theorem takes_layers {compression : Compression}
    (hcompression : compression = .none ∨ compression = .rle) {data : Bytes}
    (hsize : data.size < 2 ^ 32) {places : List Nat}
    (hlocated : List.Forall₂ (Located compression data document.version) places document.layers)
    (start : Nat) :
    ∃ stop, (places.reverse.foldlM (Document.readOnto document.header
      { compression, palette := document.model.palette } {} Reader.bytesPadded) none).Takes data
        document.version start stop (Canvas.flatten? document.width document.height
          document.model.palette document.visibleLayers) := by
  -- The reader goes through the layers from the lowest one upwards.
  have hbase : ∀ layer ∈ document.layers.reverse,
      layer.kind.baseType = document.model.baseType := by
    intro layer hlayer
    exact document.baseType_eq layer (List.mem_reverse.mp hlayer)
  exact takes_stack hcompression hsize document.header _ rfl (List.rel_reverse hlocated) hbase
    document.palette_size

/-- The file is decoded to what its visible layers are flattened to, if there are any. -/
theorem decode_eq {compression : Compression}
    (hcompression : compression = .none ∨ compression = .rle)
    (hsize : (document.bytes compression).size < 2 ^ 32) :
    Document.decode (document.bytes compression) =
      match Canvas.flatten? document.width document.height document.model.palette
        document.visibleLayers with
      | none => .error .noVisibleLayers
      | some canvas => .ok (document.decoded canvas) := by
  obtain ⟨places, hdata, hlocated⟩ := document.exists_places compression
  generalize document.bytes compression = data at hsize hdata hlocated
  have hprops : (ImageProperties.read {}).Takes data document.version
      (0 + document.headerBytes.length)
      (0 + document.headerBytes.length + (document.propertyBytes compression).length)
      { compression, palette := document.model.palette } :=
    ImageProperties.takes_read document.palette_size hdata.right.left
  have hroom : places.length ≤ ({} : Limits).maxLayers := by
    rw [hlocated.length_eq]
    exact document.layers_length
  have htable := takes_layerTable {} (places_fit hsize hlocated) hroom [] hdata.right.right
  rw [List.append_nil] at htable
  obtain ⟨stop, hlayers⟩ := document.takes_layers hcompression hsize hlocated _
  rw [Nat.zero_add] at hprops htable
  -- What is read goes by what the layers are flattened to, and so does what is decoded.
  have hread : Document.read {} Reader.bytesPadded data {} =
      match Canvas.flatten? document.width document.height document.model.palette
        document.visibleLayers with
      | none => .error .noVisibleLayers
      | some canvas => .ok (document.decoded canvas, ⟨stop, document.version⟩) := by
    unfold Document.read
    rw [Reader.bind_apply, document.read_header hdata.left]
    -- The size is admitted; then come the properties, the table and the layers.
    refine (Reader.Takes.liftM (document.admitted.checkSize "image")).bind_eq ?_
    refine hprops.bind_eq (htable.bind_eq (hlayers.bind_eq ?_))
    cases Canvas.flatten? document.width document.height document.model.palette
        document.visibleLayers with
    | none => rfl
    | some canvas => rfl
  change (Document.read {} Reader.bytesPadded data {}).bind _ = _
  rw [hread]
  cases Canvas.flatten? document.width document.height document.model.palette
      document.visibleLayers with
  | none => rfl
  | some canvas => rfl

/-- **Decoding undoes encoding.** A document's file is decoded to what its visible layers are
flattened to without a file in between, and to an error if no layer is visible. Hence it makes no
difference how the tiles are stored. -/
theorem decode_bytes :
    (∀ compression : Compression, compression = .none ∨ compression = .rle →
      (document.bytes compression).size < 2 ^ 32 →
        (document.visibleLayers = [] →
          Document.decode (document.bytes compression) = .error .noVisibleLayers) ∧
        (document.visibleLayers ≠ [] →
          ∃ canvas, Canvas.flatten? document.width document.height document.model.palette
              document.visibleLayers = some canvas ∧
            Document.decode (document.bytes compression) = .ok (document.decoded canvas))) ∧
    ((document.bytes .none).size < 2 ^ 32 → (document.bytes .rle).size < 2 ^ 32 →
      Document.decode (document.bytes .none) = Document.decode (document.bytes .rle)) := by
  refine ⟨fun compression hcompression hsize => ⟨fun hnone => ?_, fun hsome => ?_⟩,
    fun hplain hruns => ?_⟩
  · rw [document.decode_eq hcompression hsize, hnone]
    rfl
  · -- Whatever is visible asks for a canvas, as the palette is not too large.
    obtain ⟨canvas, hcanvas⟩ :=
      Canvas.exists_flatten? document.width document.height document.palette_size hsome
    refine ⟨canvas, hcanvas, ?_⟩
    rw [document.decode_eq hcompression hsize, hcanvas]
  · rw [document.decode_eq (Or.inl rfl) hplain, document.decode_eq (Or.inr rfl) hruns]

/-- A document with wide offsets and two gray layers. The lower is a tile and a pixel wide, and all of
it but a trace of its last pixel is masked; the upper is hidden. -/
def maskedStrip : StoredDocument where
  version := 11
  width := 65
  height := 1
  model := .gray
  layers :=
    [{ name := Header.ascii "top"
       width := 1
       height := 1
       kind := .grayAlpha
       pixels := #[0, 255]
       props := [.visible false]
       mask := none
       pixels_size := rfl
       props_length := by decide
       admitted := by decide },
     { name := Header.ascii "strip"
       width := 65
       height := 1
       kind := .gray
       pixels := Array.replicate 65 120
       props := [.opacity 200, .mode 0, .offsets 0 0, .applyMask true]
       mask := some
         { values := Array.replicate 64 0 ++ #[51]
           props := []
           values_size := by decide
           props_length := by decide }
       pixels_size := Array.size_replicate
       props_length := by decide
       admitted := by decide }]
  version_le := by decide
  admitted := by decide
  palette_size := by decide
  layers_length := by decide
  baseType_eq := by decide

/-- A masked strip decodes alike from both encodings: its mask hides a pixel of the first tile and
lets one of the second show through. -/
theorem decode_maskedStrip :
    ∃ canvas, Document.decode (maskedStrip.bytes .none) = .ok (maskedStrip.decoded canvas) ∧
      Document.decode (maskedStrip.bytes .rle) = .ok (maskedStrip.decoded canvas) ∧
      canvas.colorAt? 63 0 = some ⟨Rgb.gray 120, 0⟩ ∧
      canvas.colorAt? 64 0 = some ⟨Rgb.gray 120, 40⟩ := by
  have hplain : (maskedStrip.bytes .none).size < 2 ^ 32 := by decide +kernel
  have hruns : (maskedStrip.bytes .rle).size < 2 ^ 32 := by decide +kernel
  have hvisible : maskedStrip.visibleLayers ≠ [] := List.ne_nil_of_length_pos (by decide +kernel)
  obtain ⟨hdecode, hsame⟩ := maskedStrip.decode_bytes
  obtain ⟨canvas, hcanvas, hread⟩ := (hdecode .none (Or.inl rfl) hplain).2 hvisible
  have hpixels : (Canvas.flatten? maskedStrip.width maskedStrip.height maskedStrip.model.palette
      maskedStrip.visibleLayers).map (fun canvas => (canvas.colorAt? 63 0, canvas.colorAt? 64 0)) =
        some (some ⟨Rgb.gray 120, 0⟩, some ⟨Rgb.gray 120, 40⟩) := by decide +kernel
  -- What is decoded is the flattened stack, whose two pixels are looked at.
  rw [hcanvas] at hpixels
  obtain ⟨hmasked, htrace⟩ := Prod.mk.inj (Option.some.inj hpixels)
  exact ⟨canvas, hread, (hsame hplain hruns).symm.trans hread, hmasked, htrace⟩

end StoredDocument

end XcfFlatten
