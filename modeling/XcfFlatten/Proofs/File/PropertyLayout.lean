import XcfFlatten.File.Stored
import XcfFlatten.Proofs.File.PropertyRecords

/-!
# Property lists that are laid out

A property list is read back record by record up to its terminator (`Property.Lists`). What a layer,
a mask or an image is told that way is what the properties say about it:

* `LayerProperties.takes_list` and `ChannelProperties.takes_list` — the properties of layers and of
  masks;
* `ImageProperties.takes_read` — those of an image, a method of compression and perhaps a palette.
-/

namespace XcfFlatten

/-! ### Payloads -/

namespace Reader

variable {α : Type} {reader : Reader α}

/-- What a reader takes from the beginning of some data, it gives when it is run over them. -/
theorem Takes.parse {data : Bytes} {stop : Nat} {a : α} (h : Takes reader data 0 0 stop a) :
    reader.parse data = .ok a := parse_eq_ok_iff.mpr ⟨_, h⟩

theorem parse_word {n : Nat} (hn : n < 2 ^ 32) : word.parse (Layout.word n).toArray = .ok n :=
  (Takes.word (Bytes.HasAt.whole _) hn).parse

/-- A payload of one word is parsed as the flag it was stored for. -/
theorem parse_flag (on : Bool) : flag.parse (Layout.word on.toNat).toArray = .ok on := by
  have hon : on.toNat < 2 ^ 32 := Nat.lt_of_le_of_lt (Bool.toNat_le on) (by decide)
  have hflag := (Takes.flag (Bytes.HasAt.whole _) hon).parse
  cases on
  · exact hflag
  · exact hflag

end Reader

/-- A signed word is read back with its sign. -/
theorem signed32_toNat (x : Int32) : signed32 x.toBitVec.toNat = x.toInt := by
  change (if _ then _ else _) = x.toBitVec.toInt
  rw [BitVec.toInt_eq_toNat_cond]
  split
  · rw [if_pos (by omega)]
  · rw [if_neg (by omega)]
    rfl

/-- A payload that can be parsed sets its field and fails in nothing. -/
theorem Applied.set_of_ok {α σ : Type} {payload : Bytes} {reader : Reader α} {a : α}
    (h : reader.parse payload = .ok a) (update : α → σ) (state : σ) :
    Applied.set payload reader update state = { state := update a } := by
  unfold Applied.set
  rw [h]

namespace StoredProperty

/-- The property as it is read. -/
def property (p : StoredProperty) : Property := ⟨p.tag, p.payload.toArray⟩

/-- None of the properties ends the list or has a length of its own. -/
theorem tag_ne (p : StoredProperty) :
    p.tag ≠ .colormap ∧ p.tag ≠ .userUnit ∧ p.tag ≠ .terminator := by
  cases p <;> dsimp only [tag] <;> decide

theorem length_payload_le (p : StoredProperty) : p.payload.length ≤ 8 := by
  cases p <;> simp only [payload, List.length_append, Layout.length_word] <;> decide

end StoredProperty

/-- Every property says to a layer what it was stored for. -/
theorem LayerProperties.apply_property (p : StoredProperty) (props : LayerProperties) :
    LayerProperties.apply p.property props = { state := p.setLayer props } := by
  unfold LayerProperties.apply StoredProperty.property
  cases p with
  | opacity value => exact Applied.set_of_ok (Reader.parse_word value.toNat_lt) _ _
  | mode id => exact Applied.set_of_ok (Reader.parse_word id.toNat_lt) _ _
  | visible on => exact Applied.set_of_ok (Reader.parse_flag on) _ _
  | applyMask on => exact Applied.set_of_ok (Reader.parse_flag on) _ _
  | offsets x y =>
    -- The second offset is read from the same payload as the first, behind it.
    have hdata := Bytes.HasAt.whole
      (Layout.word x.toBitVec.toNat ++ Layout.word y.toBitVec.toNat)
    have hx : Reader.int32.Takes _ 0 _ _ _ := Reader.Takes.int32 hdata.left x.toBitVec.isLt
    have hy : Reader.int32.Takes _ 0 _ _ _ := Reader.Takes.int32 hdata.right y.toBitVec.isLt
    rw [signed32_toNat] at hx hy
    dsimp only [StoredProperty.tag, StoredProperty.payload]
    rw [hx.parse]
    exact Applied.set_of_ok (hx.bind hy).parse _ _

/-- A mask only heeds its opacity and whether it is visible. -/
theorem ChannelProperties.apply_property (p : StoredProperty) (props : ChannelProperties) :
    ChannelProperties.apply p.property props = { state := p.setChannel props } := by
  unfold ChannelProperties.apply StoredProperty.property
  cases p with
  | opacity value => exact Applied.set_of_ok (Reader.parse_word value.toNat_lt) _ _
  | visible on => exact Applied.set_of_ok (Reader.parse_flag on) _ _
  | mode id => rfl
  | applyMask on => rfl
  | offsets x y => rfl

/-! ### Palettes -/

/-- The bytes of a colour stand at three times its index. -/
theorem getElem?_colorBytes {colors : List Rgb} {i : Nat} {c : Rgb} (h : colors[i]? = some c) :
    (colorBytes colors)[i * 3]? = some c.red ∧ (colorBytes colors)[i * 3 + 1]? = some c.green ∧
      (colorBytes colors)[i * 3 + 2]? = some c.blue := by
  -- By induction on the colours, three bytes each.
  induction colors generalizing i with
  | nil => cases h
  | cons d colors ih =>
    cases i with
    | zero =>
      cases h
      exact ⟨rfl, rfl, rfl⟩
    | succ i =>
      rw [Nat.succ_mul]
      exact ih h

/-- A palette is read from the payload of its record. -/
theorem ImageProperties.parse_readPalette {palette : Palette} (hsize : palette.size ≤ 256) :
    readPalette.parse (colormapPayload palette.toList).toArray = .ok palette := by
  rw [colormapPayload, Array.length_toList]
  have hdata := Bytes.HasAt.whole (Layout.word palette.size ++ colorBytes palette.toList)
  have hentries := Reader.Takes.bytes hdata.right 0
  rw [length_colorBytes, Array.length_toList] at hentries
  -- The three bytes of an entry are the channels of its colour.
  have hpalette : (Array.ofFn fun i : Fin palette.size =>
      (⟨(colorBytes palette.toList).toArray.getD (i * 3) 0,
        (colorBytes palette.toList).toArray.getD (i * 3 + 1) 0,
        (colorBytes palette.toList).toArray.getD (i * 3 + 2) 0⟩ : Rgb)) = palette := by
    apply Array.ext
    · exact Array.size_ofFn
    · intro i hi hi'
      have hcolor : palette.toList[i]? = some palette[i] := by
        rw [Array.getElem?_toList, Array.getElem?_eq_getElem hi']
      obtain ⟨hred, hgreen, hblue⟩ := getElem?_colorBytes hcolor
      rw [Array.getElem_ofFn]
      simp only [Array.getD_eq_getD_getElem?, List.getElem?_toArray, hred, hgreen, hblue,
        Option.getD_some]
  have htakes : readPalette.Takes (Layout.word palette.size ++ colorBytes palette.toList).toArray 0
      0 (0 + (Layout.word palette.size).length + palette.size * 3) palette := by
    refine (Reader.Takes.word hdata.left (by omega)).bind ?_
    rw [if_neg (by unfold maxColors; omega)]
    refine hentries.bind ?_
    rw [hpalette]
    exact Reader.Takes.pure palette
  exact htakes.parse

/-! ### The properties of layers, masks and images -/

section

variable {σ : Type} {limits : Limits} {apply : Property → σ → Applied σ} {data : Bytes}
  {version start remaining : Nat} {state : σ}

namespace StoredProperty

/-- The record that the property is stored in. -/
def record (p : StoredProperty) : StoredRecord := .ordinary p.tag p.payload

/-- The record of a property fits in every limit of eight bytes or more. -/
theorem fits_record (p : StoredProperty) (hlimit : 8 ≤ limits.maxPropertySize) :
    p.record.Fits limits := by
  have hpayload := p.length_payload_le
  exact ⟨p.tag_ne, Nat.le_trans hpayload hlimit, Nat.lt_of_le_of_lt hpayload (by decide)⟩

theorem listBytes_map_record (props : List StoredProperty) :
    StoredRecord.listBytes (props.map record) = listBytes props := by
  rw [StoredRecord.listBytes, List.flatMap_map]
  rfl

theorem properties_map_record (props : List StoredProperty) :
    StoredRecord.properties (props.map record) = props.map property := by
  rw [StoredRecord.properties, List.filterMap_map, ← List.filterMap_eq_map]
  rfl

end StoredProperty

/-- A list of properties changes a state by one of them after another. -/
theorem Property.takes_list {set : σ → StoredProperty → σ}
    (happly : ∀ p state, apply (StoredProperty.property p) state = { state := set state p })
    (hlimit : 8 ≤ limits.maxPropertySize) {stored : List StoredProperty}
    (hlength : stored.length < limits.maxProperties)
    (h : data.HasAt start (StoredProperty.listBytes stored)) :
    (readAll limits apply state).Takes data version start
      (start + (StoredProperty.listBytes stored).length) (stored.foldl set state) := by
  have hfits : ∀ record ∈ stored.map StoredProperty.record, record.Fits limits :=
    List.forall_mem_map.mpr fun p _ => p.fits_record hlimit
  -- No handler fails on a payload that was laid out.
  have hfailure : ∀ property ∈ StoredRecord.properties (stored.map StoredProperty.record),
      ∀ state, (apply property state).failure = none ∨
        (apply property state).failure = some .truncated := by
    rw [StoredProperty.properties_map_record]
    refine List.forall_mem_map.mpr fun p _ state => ?_
    rw [happly]
    exact Or.inl rfl
  have hknown : ∀ record ∈ stored.map StoredProperty.record,
      record.property? = none → data.size < 2 ^ 64 :=
    List.forall_mem_map.mpr fun p _ hnone => nomatch hnone
  rw [← StoredProperty.listBytes_map_record] at h ⊢
  have hlist : Lists limits apply data version limits.maxProperties start _ state _ :=
    Lists.records hfits hfailure hknown (by rwa [List.length_map]) h
  rw [StoredProperty.properties_map_record, List.foldl_map] at hlist
  simp only [happly] at hlist
  exact hlist.takes

/-- A layer's properties are read back. -/
theorem LayerProperties.takes_list {stored : List StoredProperty} (props : LayerProperties)
    (hlength : stored.length < ({} : Limits).maxProperties)
    (h : data.HasAt start (StoredProperty.listBytes stored)) :
    (Property.readAll {} LayerProperties.apply props).Takes data version start
      (start + (StoredProperty.listBytes stored).length)
      (stored.foldl StoredProperty.setLayer props) :=
  Property.takes_list apply_property (by decide) hlength h

/-- A mask's properties are read back. -/
theorem ChannelProperties.takes_list {stored : List StoredProperty} (props : ChannelProperties)
    (hlength : stored.length < ({} : Limits).maxProperties)
    (h : data.HasAt start (StoredProperty.listBytes stored)) :
    (Property.readAll {} ChannelProperties.apply props).Takes data version start
      (start + (StoredProperty.listBytes stored).length)
      (stored.foldl StoredProperty.setChannel props) :=
  Property.takes_list apply_property (by decide) hlength h

/-- A palette is stored as a colour map that claims less than it holds. -/
theorem Layout.colormap_eq {palette : Palette} (hsize : palette.size ≤ 256) :
    Layout.colormap palette =
      (StoredRecord.colormap (UInt32.ofNat (palette.size + 4)) palette.toList).bytes := by
  have hclaimed : (UInt32.ofNat (palette.size + 4)).toNat = palette.size + 4 :=
    UInt32.toNat_ofNat_of_lt (by unfold UInt32.size; omega)
  rw [StoredRecord.bytes, hclaimed, ← List.append_assoc]
  rfl

/-- An image's properties are read back: the method of compression, and the palette if there is
one. -/
theorem ImageProperties.takes_read {compression : Compression} {model : ColorModel}
    (hsize : model.palette.size ≤ 256)
    (h : data.HasAt start
      (Layout.record .compression [UInt8.ofNat (Compression.all.idxOf compression)] ++
        (model.bytes ++ Layout.terminator))) :
    (read {}).Takes data version start
      (start + (Layout.record .compression [UInt8.ofNat (Compression.all.idxOf compression)] ++
        (model.bytes ++ Layout.terminator)).length)
      { compression, palette := model.palette } := by
  -- Each method of compression is stored as the byte that it is found by.
  have hcompression (props : ImageProperties) : ImageProperties.apply
      ⟨.compression, [UInt8.ofNat (Compression.all.idxOf compression)].toArray⟩ props =
        { state := { props with compression } } := by
    cases compression <;> rfl
  have hrecord : (Property.read? {}).Takes data version start _ _ :=
    Property.takes_ordinary (by decide) (by decide) (Nat.le_of_ble_eq_true rfl)
      (Nat.lt_of_le_of_lt (Nat.le_refl 1) (by decide)) h.left
  have htag : (⟨.compression, [UInt8.ofNat (Compression.all.idxOf compression)].toArray⟩ :
      Property).tag ≠ .terminator := PropertyTag.noConfusion
  rw [List.length_append, ← Nat.add_assoc]
  refine Property.Lists.takes
    (Property.Lists.cons hrecord htag (hcompression {}) (Or.inl rfl) ?_)
  -- The compression comes first; a palette stands behind it only in an indexed image.
  cases model with
  | rgb =>
    rw [ColorModel.bytes, List.nil_append] at h ⊢
    exact Property.Lists.terminator h.right
  | gray =>
    rw [ColorModel.bytes, List.nil_append] at h ⊢
    exact Property.Lists.terminator h.right
  | indexed palette =>
    have hsize : palette.size ≤ 256 := hsize
    have hcount : palette.toList.length ≤ 21843 := Nat.le_trans hsize (by decide)
    have hpalette (props : ImageProperties) : ImageProperties.apply
        ⟨.colormap, (colormapPayload palette.toList).toArray⟩ props =
          { state := { props with palette } } := by
      unfold ImageProperties.apply
      exact Applied.set_of_ok (parse_readPalette hsize) _ _
    rw [ColorModel.bytes, Layout.colormap_eq hsize] at h ⊢
    rw [List.length_append, ← Nat.add_assoc]
    exact Property.Lists.cons (Property.takes_colormap hcount h.right.left) PropertyTag.noConfusion
      (hpalette _) (Or.inl rfl) (Property.Lists.terminator h.right.right)

end

end XcfFlatten
