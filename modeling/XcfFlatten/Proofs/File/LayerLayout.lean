import XcfFlatten.Proofs.File.HierarchyLayout
import XcfFlatten.Proofs.File.PropertyLayout

/-!
# Layers that are laid out

The record of a layer holds the places of its pixels and of its mask, which come behind it. What is
read at these places is the layer as it would be composited without a file in between: its raster cut
into tiles, its properties, its mask, and whether the mask applies (`StoredLayer.takes_bytes`).
-/

namespace XcfFlatten

/-- Both extents of a raster that the limits admit fit in a word. -/
theorem Limits.Admits.lt {width height : Nat} (h : ({} : Limits).Admits width height) :
    width < 2 ^ 32 ∧ height < 2 ^ 32 :=
  ⟨Nat.lt_of_le_of_lt h.1 (by decide), Nat.lt_of_le_of_lt h.2.1 (by decide)⟩

/-- What the limits admit passes the check. -/
theorem Limits.Admits.checkSize {width height : Nat} {limits : Limits}
    (h : limits.Admits width height) (what : String) :
    limits.checkSize what width height = .ok () := by
  obtain ⟨hwidth, hheight, hpixels⟩ := h
  exact if_neg (by omega)

section

variable {compression : Compression} {data : Bytes} {version place : Nat}
  (hcompression : compression = .none ∨ compression = .rle) (hsize : data.size < 2 ^ 32)

/-! ### Masks -/

include hcompression hsize in
/-- A mask is read back. -/
theorem StoredMask.takes_bytes {width height : Nat} (hwidth : width < 2 ^ 32)
    (hheight : height < 2 ^ 32) (mask : StoredMask width height)
    (h : data.HasAt place (mask.bytes compression version place)) :
    ∃ stop, (readMask width height compression {}).Takes data version place stop mask.toMask := by
  unfold StoredMask.bytes at h
  rw [List.append_assoc] at h
  have hpixels := h.right.right
  rw [Layout.length_offset] at hpixels
  -- The values come right behind the offset that points to them.
  generalize place + mask.head.length + Layout.offsetWidth version = first at h hpixels
  have hvalues : mask.values.size = width * height * 1 := by rw [mask.values_size, Nat.mul_one]
  obtain ⟨stop, htiles⟩ :=
    takes_hierarchy hcompression (by decide) hsize .mask hwidth hheight hvalues hpixels
  have hplace := Reader.Takes.offset h.right.left
    (Nat.lt_of_le_of_lt (Nat.le_of_add_right_le hpixels.le_size) hsize)
  have hhead := h.left
  unfold StoredMask.head at hhead
  simp only [List.append_assoc] at hhead
  have hname := hhead.right.right
  have hprops : (Property.readAll {} ChannelProperties.apply _).Takes data version _ _ _ :=
    ChannelProperties.takes_list { name := nameText StoredMask.name } mask.props_length hname.right
  have hstart : place + mask.head.length = place + (Layout.word width).length +
      (Layout.word height).length + (Layout.string StoredMask.name).length +
        (StoredProperty.listBytes mask.props).length := by
    unfold StoredMask.head
    simp only [List.length_append]
    omega
  rw [hstart] at hplace
  -- The mask has the extents of its layer, and its values are read where the offset points.
  refine (Reader.Takes.word hhead.left hwidth).exists_bind ?_
  refine (Reader.Takes.word hhead.right.left hheight).exists_bind ?_
  refine (Reader.Takes.string hname.left (by decide)).exists_bind ?_
  refine hprops.exists_bind ?_
  rw [if_neg (not_or.mpr ⟨fun h => h rfl, fun h => h rfl⟩)]
  refine hplace.exists_bind ?_
  refine (Reader.Takes.seek _).exists_bind ?_
  exact ⟨stop, htiles.bind (Reader.Takes.pure mask.toMask)⟩

/-! ### Layers -/

theorem LayerKind.ofId?_idxOf (kind : LayerKind) : ofId? (all.idxOf kind) = some kind :=
  List.getElem?_idxOf (by cases kind <;> decide)

namespace StoredLayer

/-- The layer's record with the places of its pixels and its mask. -/
def record (layer : StoredLayer) (hierarchyOffset maskOffset : Nat) : LayerRecord where
  width := layer.width
  height := layer.height
  kind := layer.kind
  props := layer.properties
  hierarchyOffset
  maskOffset

include hsize in
/-- The record of a layer is read back. -/
theorem takes_record (layer : StoredLayer) {first second : Nat} (hfirst : first < 2 ^ 32)
    (hsecond : second < 2 ^ 32)
    (h : data.HasAt place
      (layer.head ++ (Layout.offset version first ++ Layout.offset version second))) :
    ∃ stop, (LayerRecord.read {}).Takes data version place stop (layer.record first second) := by
  have hhead := h.left
  unfold head at hhead
  simp only [List.append_assoc] at hhead
  have hname := hhead.right.right.right
  have hlength : layer.name.length + 1 < 2 ^ 32 := by
    have hle := hname.left.le_size
    rw [Layout.string, List.length_append, List.length_append, List.length_singleton] at hle
    omega
  have hid : LayerKind.all.idxOf layer.kind < 2 ^ 32 :=
    Nat.lt_of_le_of_lt List.idxOf_le_length (by decide)
  have hprops : (Property.readAll {} LayerProperties.apply _).Takes data version _ _ _ :=
    LayerProperties.takes_list { name := nameText layer.name } layer.props_length hname.right
  have hstart : place + layer.head.length = place + (Layout.word layer.width).length +
      (Layout.word layer.height).length + (Layout.word (LayerKind.all.idxOf layer.kind)).length +
        (Layout.string layer.name).length + (StoredProperty.listBytes layer.props).length := by
    unfold head
    simp only [List.length_append]
    omega
  have hplaces := h.right
  rw [hstart] at hplaces
  -- The reader goes through the record part by part, and ends up behind the two places.
  refine (Reader.Takes.word hhead.left layer.admitted.lt.1).exists_bind ?_
  refine (Reader.Takes.word hhead.right.left layer.admitted.lt.2).exists_bind ?_
  refine (Reader.Takes.word hhead.right.right.left hid).exists_bind ?_
  rw [LayerKind.ofId?_idxOf]
  refine (Reader.Takes.string hname.left hlength).exists_bind ?_
  refine hprops.exists_bind ?_
  refine (Reader.Takes.offset hplaces.left hfirst).exists_bind ?_
  exact ⟨_, (Reader.Takes.offset hplaces.right hsecond).bind
    (Reader.Takes.pure (layer.record first second))⟩

/-- The places that a layer's record names: there are its pixels and, if it has one, its mask. -/
theorem exists_places (layer : StoredLayer)
    (h : data.HasAt place (layer.bytes compression version place)) :
    ∃ first second,
      data.HasAt place
        (layer.head ++ (Layout.offset version first ++ Layout.offset version second)) ∧
      data.HasAt first (Layout.hierarchy version first layer.width layer.height layer.kind.channels
        (Layout.tiles compression layer.width layer.height layer.kind.channels layer.pixels)) ∧
      (layer.mask = none ∧ second = 0 ∨ ∃ mask, layer.mask = some mask ∧ second ≠ 0 ∧
        data.HasAt second (mask.bytes compression version second)) := by
  unfold bytes at h
  dsimp only at h
  generalize hfirst : place + layer.head.length + 2 * Layout.offsetWidth version = first at h
  have hpos := Layout.offsetWidth_pos version
  -- The pixels come right behind the two offsets, whatever these are.
  have hplace : ∀ second, place + (layer.head ++
      (Layout.offset version first ++ Layout.offset version second)).length = first := by
    intro second
    rw [List.length_append, List.length_append, Layout.length_offset, Layout.length_offset]
    omega
  cases hmask : layer.mask with
  | none =>
    -- Without a mask the second offset is zero.
    rw [hmask] at h
    have hpixels := h.right
    rw [hplace] at hpixels
    exact ⟨first, 0, h.left, hpixels, Or.inl ⟨rfl, rfl⟩⟩
  | some mask =>
    -- The mask comes behind the pixels, so that its place is not zero.
    rw [hmask] at h
    dsimp only at h
    rw [List.append_assoc] at h
    have hpixels := h.right.left
    have hbytes := h.right.right
    rw [hplace] at hpixels hbytes
    exact ⟨first, _, h.left, hpixels, Or.inr ⟨mask, rfl, by omega, hbytes⟩⟩

include hcompression hsize in
/-- **Layers.** A layer is read back as it would be composited without a file in between. -/
theorem takes_bytes (layer : StoredLayer)
    (h : data.HasAt place (layer.bytes compression version place)) :
    ∃ first second,
      (∃ stop, (LayerRecord.read {}).Takes data version place stop (layer.record first second)) ∧
      ∀ start paletteSize, ∃ stop, ((layer.record first second).readLayer compression paletteSize
        {}).Takes data version start stop (layer.toLayer paletteSize) := by
  obtain ⟨first, second, hhead, hpixels, hmask⟩ := layer.exists_places h
  -- Both places lie within the data.
  have hfirst : first < 2 ^ 32 := Nat.lt_of_le_of_lt (Nat.le_of_add_right_le hpixels.le_size) hsize
  have hsecond : second < 2 ^ 32 := by
    rcases hmask with ⟨-, rfl⟩ | ⟨mask, -, -, hbytes⟩
    · exact Nat.two_pow_pos 32
    · exact Nat.lt_of_le_of_lt (Nat.le_of_add_right_le hbytes.le_size) hsize
  refine ⟨first, second, layer.takes_record hsize hfirst hsecond hhead, fun start paletteSize => ?_⟩
  obtain ⟨hwidth, hheight⟩ := layer.admitted.lt
  have hchannels : 0 < layer.kind.channels ∧ layer.kind.channels ≤ 4 := by
    cases layer.kind <;> decide
  obtain ⟨middle, htiles⟩ := takes_hierarchy hcompression hchannels hsize
    (.layer layer.kind paletteSize) hwidth hheight layer.pixels_size hpixels
  -- Whether there is a mask also settles whether it applies.
  obtain ⟨stop, hread⟩ : ∃ stop, ((layer.record first second).readMask? compression {}
      Reader.bytesPadded).Takes data version middle stop (layer.mask.map StoredMask.toMask) := by
    rcases hmask with ⟨hnone, rfl⟩ | ⟨mask, hsome, hne, hbytes⟩
    · rw [hnone]
      exact ⟨middle, Reader.Takes.pure none⟩
    · rw [hsome]
      unfold LayerRecord.readMask?
      rw [if_neg (show (layer.record first second).maskOffset ≠ 0 from hne)]
      obtain ⟨stop, hmask⟩ := mask.takes_bytes hcompression hsize hwidth hheight hbytes
      exact ⟨stop, (Reader.Takes.seek second).bind (hmask.bind (Reader.Takes.pure _))⟩
  refine (Reader.Takes.liftM (layer.admitted.checkSize _)).exists_bind ?_
  refine (Reader.Takes.seek first).exists_bind ?_
  refine htiles.exists_bind ?_
  refine hread.exists_bind ?_
  rw [Option.isSome_map]
  exact ⟨stop, Reader.Takes.pure (layer.toLayer paletteSize)⟩

/-! ### Layers that are to be seen -/

theorem seen_cons_of_visible {layer : StoredLayer} (hvisible : layer.isVisible = true)
    (paletteSize : Nat) (layers : List StoredLayer) :
    seen paletteSize (layer :: layers) = layer.toLayer paletteSize :: seen paletteSize layers := by
  rw [seen, List.filter_cons_of_pos hvisible]
  rfl

theorem seen_cons_of_hidden {layer : StoredLayer} (hhidden : ¬ layer.isVisible = true)
    (paletteSize : Nat) (layers : List StoredLayer) :
    seen paletteSize (layer :: layers) = seen paletteSize layers := by
  rw [seen, List.filter_cons_of_neg hhidden]
  rfl

end StoredLayer

end

end XcfFlatten
