import Mathlib.Data.List.Nodup
import XcfFlatten.Proofs.File.PropertyRecords
import XcfFlatten.Proofs.File.ShortPayloads

/-!
# The order of properties

Records with different tags may stand in any order in the property list of a layer or a channel
(`Property.applyAll_perm`). The reason is that every field belongs to one tag
(`LayerProperties.state_apply`, `ChannelProperties.state_apply`): what a record leaves of a field is
told by its payload alone if the record has this tag, and is the field as it was otherwise
(`Property.overwrite`). Payloads may be of any length. Where one is too short for what is read from
it, the field stays, and of two offsets the first may change alone. No record ends a list, so none
is kept from being applied by one that stands before it.

* `Property.Independent` — what makes the order indifferent;
* `Property.Independent.applyAll_comm` — what follows for records that are applied one after another;
* `Property.Independent.readAll_perm` — and for lists in files.
-/

namespace XcfFlatten

namespace Property

/-! ### Records one after another -/

section Lists

variable {σ : Type} {apply : Property → σ → Applied σ} {limits : Limits} {data : Bytes}
  {start : Nat}

/-- Records of different tags are independent of each other if none of them ends a list and any two
of them can be applied in either order. -/
structure Independent (apply : Property → σ → Applied σ) : Prop where
  stop_eq_none : ∀ property state, (apply property state).stop = none
  comm : ∀ {p q : Property}, p.tag ≠ q.tag → ∀ state,
    (apply q (apply p state).state).state = (apply p (apply q state).state).state

namespace Independent

variable (h : Independent apply)
include h

/-- None of the records is the end. -/
theorem applyAll_eq (records : List Property) (state : σ) :
    applyAll apply records state =
      (records.foldl (fun state property => (apply property state).state) state, none) :=
  applyAll_eq_foldl (fun property _ => h.stop_eq_none property) state

/-- What holds of two records holds of all the records of a list. -/
theorem applyAll_comm {records reordered : List Property} (hperm : records.Perm reordered)
    (htags : (records.map tag).Nodup) (state : σ) :
    applyAll apply records state = applyAll apply reordered state := by
  rw [h.applyAll_eq, h.applyAll_eq]
  refine congrArg (·, none) (hperm.foldl_eq' ?_ state)
  intro p hp q hq state
  by_cases htag : p.tag = q.tag
  · -- A record does not stand next to another one with its tag.
    rw [List.inj_on_of_nodup_map htags hp hq htag]
  · exact h.comm htag state

/-- **Files.** Wherever they are stored, lists of the same records in different orders are read to
the same state. Codes that are no tag's may stand between the records. -/
theorem readAll_perm {records reordered : List StoredRecord}
    (hperm : (StoredRecord.properties records).Perm (StoredRecord.properties reordered))
    (htags : ((StoredRecord.properties records).map tag).Nodup)
    (hfits : ∀ record ∈ records ++ reordered, record.Fits limits)
    (hlength : records.length < limits.maxProperties)
    (hlength' : reordered.length < limits.maxProperties)
    {data' : Bytes} (hsize : data.size < 2 ^ 64) (hsize' : data'.size < 2 ^ 64) {start' : Nat}
    (hdata : data.HasAt start (StoredRecord.listBytes records))
    (hdata' : data'.HasAt start' (StoredRecord.listBytes reordered)) (version : Nat) (state : σ) :
    ∃ result,
      (readAll limits apply state).Takes data version start
        (start + (StoredRecord.listBytes records).length) result ∧
      (readAll limits apply state).Takes data' version start'
        (start' + (StoredRecord.listBytes reordered).length) result := by
  have hleft : ∀ record ∈ records, record.Fits limits :=
    fun record hmem => hfits record (List.mem_append_left _ hmem)
  have hright : ∀ record ∈ reordered, record.Fits limits :=
    fun record hmem => hfits record (List.mem_append_right _ hmem)
  -- Each list is read to what its own records make of the state, in their own order, and this is
  -- the same.
  refine ⟨(applyAll apply (StoredRecord.properties records) state).1, ?_, ?_⟩
  · unfold Reader.Takes readAll run
    rw [foldRecords_records hleft (fun _ _ _ => hsize) hlength hdata, h.applyAll_eq]
  · unfold Reader.Takes readAll run
    rw [foldRecords_records hright (fun _ _ _ => hsize') hlength' hdata',
      h.applyAll_comm hperm htags, h.applyAll_eq]

end Independent

end Lists

/-! ### Fields -/

/-- What a record leaves of a field that belongs to a tag: the value in its payload, if the record
has this tag and there is one. -/
def overwrite {α : Type} (property : Property) (owner : PropertyTag) (value? : Bytes → Option α)
    (old : α) : α :=
  if property.tag = owner then (value? property.payload).getD old else old

/-- No field belongs to two tags. -/
theorem overwrite_comm {α : Type} {p q : Property} (h : p.tag ≠ q.tag) (owner : PropertyTag)
    (value? : Bytes → Option α) (old : α) :
    q.overwrite owner value? (p.overwrite owner value? old) =
      p.overwrite owner value? (q.overwrite owner value? old) := by
  unfold overwrite
  -- If the first record has the tag that owns the field, the second has not.
  by_cases hp : p.tag = owner
  · have hq : q.tag ≠ owner := fun hq => h (hp.trans hq.symm)
    rw [if_neg hq, if_neg hq]
  · rw [if_neg hp, if_neg hp]

end Property

/-! ### Payloads -/

/-- Scalars that are read off a payload fail only where it ends too early. -/
theorem Reader.FailsOnly.closed_truncated :
    Closed (@FailsOnly (· = .truncated)) (· = .truncated) := closed rfl

open Reader.FailsOnly (closed_truncated)

/-- What a reader gives from the beginning of a payload, if anything. -/
def Reader.value? {α : Type} (reader : Reader α) (payload : Bytes) : Option α :=
  (reader.parse payload).toOption

namespace Applied

variable {α σ : Type} {payload : Bytes} {reader : Reader α} {update : α → σ} {state : σ}

/-- What is set to the value in a payload stays as it is if there is none. -/
theorem state_set (result : Option α → σ) (hsome : ∀ a, result (some a) = update a)
    (hnone : result none = state) :
    (set payload reader update state).state = result (reader.value? payload) := by
  unfold set Reader.value?
  cases reader.parse payload with
  | ok a => exact (hsome a).symm
  | error error => exact hnone.symm

/-- So it is where a payload of another size is passed over. -/
theorem state_ite_set (c : Prop) [Decidable c] (result : Option α → σ)
    (hsome : ∀ a, result (some a) = update a) (hnone : result none = state) :
    (if c then set payload reader update state else { state }).state =
      result (if c then reader.value? payload else none) := by
  split
  · exact state_set result hsome hnone
  · exact hnone.symm

/-- A record whose payload is too short does not end its list. -/
theorem stop_set (h : reader.FailsOnly (· = .truncated)) :
    (set payload reader update state).stop = none := by
  unfold set
  cases hparse : reader.parse payload with
  | ok a => rfl
  | error error =>
    rw [h.parse hparse]
    rfl

/-- Nor does one whose payload is of another size. -/
theorem stop_ite_set {c : Prop} [Decidable c] (h : reader.FailsOnly (· = .truncated)) :
    (if c then set payload reader update state else { state }).stop = none := by
  split
  · exact stop_set h
  · rfl

end Applied

/-- An opacity, of which more than all counts as all. -/
def Property.opacity? (payload : Bytes) : Option UInt8 :=
  (Reader.word.value? payload).map fun n => UInt8.ofNat (min n 255)

/-- An opacity with a fraction, which has to have a payload of its own size. -/
def Property.floatOpacity? (payload : Bytes) : Option (Option UInt32) :=
  (if payload.size = 4 then Reader.float32.value? payload else none).map some

/-! ### Layers -/

namespace LayerProperties

/-- **Layers, field by field.** The two offsets belong to one tag, and each of them is there as soon
as its bytes are. -/
theorem state_apply (property : Property) (props : LayerProperties) :
    (apply property props).state =
      { name := props.name
        opacity := property.overwrite .opacity Property.opacity? props.opacity
        floatOpacity :=
          property.overwrite .floatOpacity Property.floatOpacity? props.floatOpacity
        visible := property.overwrite .visible Reader.flag.value? props.visible
        active := property.overwrite .activeLayer (fun _ => some true) props.active
        linked := property.overwrite .linked Reader.flag.value? props.linked
        lockAlpha := property.overwrite .lockAlpha Reader.flag.value? props.lockAlpha
        applyMask :=
          property.overwrite .applyMask
            (fun payload => (Reader.flag.value? payload).map fun on => if on then .on else .off)
            props.applyMask
        editMask := property.overwrite .editMask Reader.flag.value? props.editMask
        showMask := property.overwrite .showMask Reader.flag.value? props.showMask
        xOffset :=
          property.overwrite .offsets
            (fun payload => if payload.size < 4 then none else some (payload.int32At 0))
            props.xOffset
        yOffset :=
          property.overwrite .offsets
            (fun payload => if payload.size < 8 then none else some (payload.int32At 4))
            props.yOffset
        mode :=
          property.overwrite .mode
            (fun payload => (Reader.word.value? payload).map fun id =>
              (LayerMode.ofId? id).getD LayerMode.normal)
            props.mode
        tattoo := property.overwrite .tattoo Reader.word.value? props.tattoo
        blendSpace := property.overwrite .blendSpace Reader.int32.value? props.blendSpace
        compositeSpace :=
          property.overwrite .compositeSpace Reader.int32.value? props.compositeSpace
        compositeMode :=
          property.overwrite .compositeMode Reader.int32.value? props.compositeMode } := by
  obtain ⟨tag, payload⟩ := property
  cases tag
  -- First the records that look at how long they are, then those that set one field, and last the
  -- ones that say nothing about layers or need no payload.
  case floatOpacity =>
    exact Applied.state_ite_set (payload.size = 4)
      (fun bits => { props with floatOpacity := (bits.map some).getD props.floatOpacity })
      (fun _ => rfl) rfl
  case offsets =>
    show (apply ⟨.offsets, payload⟩ props).state =
      { props with
        xOffset := (if payload.size < 4 then none else some (payload.int32At 0)).getD props.xOffset
        yOffset :=
          (if payload.size < 8 then none else some (payload.int32At 4)).getD props.yOffset }
    -- Each of the two offsets is there from some number of bytes on: both, the first alone, or
    -- none.
    rw [apply_offsets]
    by_cases hfour : payload.size < 4
    · have hboth : payload.size < 8 := Nat.lt_trans hfour (by decide)
      rw [if_pos hfour, if_pos hfour, if_pos hboth]
      rfl
    · rw [if_neg hfour, if_neg hfour]
      by_cases hboth : payload.size < 8
      · rw [if_pos hboth, if_pos hboth]
        rfl
      · rw [if_neg hboth, if_neg hboth]
        rfl
  case opacity =>
    exact Applied.state_set
      (fun n =>
        { props with opacity := (n.map fun n => UInt8.ofNat (min n 255)).getD props.opacity })
      (fun _ => rfl) rfl
  -- A mask may also be left to whether there is one. A record says yes or no.
  case applyMask =>
    exact Applied.state_set
      (fun flag => { props with
        applyMask :=
          (flag.map fun on : Bool => if on then MaskApply.on else .off).getD props.applyMask })
      (fun _ => rfl) rfl
  case mode =>
    exact Applied.state_set
      (fun id => { props with
        mode := (id.map fun id => (LayerMode.ofId? id).getD LayerMode.normal).getD props.mode })
      (fun _ => rfl) rfl
  -- What remains is a word, a flag or a signed number for each field.
  case visible =>
    exact Applied.state_set (fun on => { props with visible := on.getD props.visible })
      (fun _ => rfl) rfl
  case linked =>
    exact Applied.state_set (fun on => { props with linked := on.getD props.linked })
      (fun _ => rfl) rfl
  case lockAlpha =>
    exact Applied.state_set (fun on => { props with lockAlpha := on.getD props.lockAlpha })
      (fun _ => rfl) rfl
  case editMask =>
    exact Applied.state_set (fun on => { props with editMask := on.getD props.editMask })
      (fun _ => rfl) rfl
  case showMask =>
    exact Applied.state_set (fun on => { props with showMask := on.getD props.showMask })
      (fun _ => rfl) rfl
  case tattoo =>
    exact Applied.state_set (fun n => { props with tattoo := n.getD props.tattoo })
      (fun _ => rfl) rfl
  case blendSpace =>
    exact Applied.state_set (fun n => { props with blendSpace := n.getD props.blendSpace })
      (fun _ => rfl) rfl
  case compositeSpace =>
    exact Applied.state_set (fun n => { props with compositeSpace := n.getD props.compositeSpace })
      (fun _ => rfl) rfl
  case compositeMode =>
    exact Applied.state_set (fun n => { props with compositeMode := n.getD props.compositeMode })
      (fun _ => rfl) rfl
  all_goals rfl

/-- No record of a layer ends its list. -/
theorem stop_apply (property : Property) (props : LayerProperties) :
    (apply property props).stop = none := by
  obtain ⟨tag, payload⟩ := property
  cases tag
  case floatOpacity => exact Applied.stop_ite_set closed_truncated.float32
  case offsets =>
    -- A missing offset, whichever it is, makes the record too short.
    rw [apply_offsets]
    split
    · rfl
    · split
      · rfl
      · rfl
  all_goals first
    | rfl
    | exact Applied.stop_set closed_truncated.word
    | exact Applied.stop_set closed_truncated.flag
    | exact Applied.stop_set closed_truncated.int32

/-- The records of a layer may be applied in any order. -/
theorem independent_apply : Property.Independent apply where
  stop_eq_none := stop_apply
  comm := by
    intro p q htag props
    rw [state_apply q, state_apply p, state_apply p, state_apply q]
    -- Field by field: the two records do not both have the tag that the field belongs to.
    simp only [Property.overwrite_comm htag]

end LayerProperties

/-! ### Channels -/

namespace ChannelProperties

/-- **Channels, field by field.** -/
theorem state_apply (property : Property) (props : ChannelProperties) :
    (apply property props).state =
      { name := props.name
        opacity := property.overwrite .opacity Property.opacity? props.opacity
        floatOpacity :=
          property.overwrite .floatOpacity Property.floatOpacity? props.floatOpacity
        visible := property.overwrite .visible Reader.flag.value? props.visible
        showMasked := property.overwrite .showMasked Reader.flag.value? props.showMasked
        color :=
          property.overwrite .color
            (Reader.value? do pure (⟨← Reader.byte, ← Reader.byte, ← Reader.byte⟩ : Rgb))
            props.color
        floatColor :=
          property.overwrite .floatColor
            (fun payload =>
              (Reader.value? (do pure (← Reader.float32, ← Reader.float32, ← Reader.float32))
                payload).map some)
            props.floatColor
        tattoo := property.overwrite .tattoo Reader.word.value? props.tattoo } := by
  obtain ⟨tag, payload⟩ := property
  cases tag
  case floatOpacity =>
    exact Applied.state_ite_set (payload.size = 4)
      (fun bits => { props with floatOpacity := (bits.map some).getD props.floatOpacity })
      (fun _ => rfl) rfl
  case opacity =>
    exact Applied.state_set
      (fun n =>
        { props with opacity := (n.map fun n => UInt8.ofNat (min n 255)).getD props.opacity })
      (fun _ => rfl) rfl
  case floatColor =>
    exact Applied.state_set
      (fun c => { props with floatColor := (c.map some).getD props.floatColor }) (fun _ => rfl) rfl
  case visible =>
    exact Applied.state_set (fun on => { props with visible := on.getD props.visible })
      (fun _ => rfl) rfl
  case showMasked =>
    exact Applied.state_set (fun on => { props with showMasked := on.getD props.showMasked })
      (fun _ => rfl) rfl
  -- A colour is one value, so it stays as it is unless all of its parts are there.
  case color =>
    exact Applied.state_set (fun c => { props with color := c.getD props.color })
      (fun _ => rfl) rfl
  case tattoo =>
    exact Applied.state_set (fun n => { props with tattoo := n.getD props.tattoo })
      (fun _ => rfl) rfl
  all_goals rfl

/-- No record of a channel ends its list. -/
theorem stop_apply (property : Property) (props : ChannelProperties) :
    (apply property props).stop = none := by
  obtain ⟨tag, payload⟩ := property
  cases tag
  case floatOpacity => exact Applied.stop_ite_set closed_truncated.float32
  -- Each of the three parts may be missing.
  case color =>
    refine Applied.stop_set ?_
    exact closed_truncated.byte.bind fun _ => closed_truncated.byte.bind fun _ =>
      closed_truncated.byte.bind fun _ => closed_truncated.pure _
  case floatColor =>
    refine Applied.stop_set ?_
    exact closed_truncated.float32.bind fun _ => closed_truncated.float32.bind fun _ =>
      closed_truncated.float32.bind fun _ => closed_truncated.pure _
  all_goals first
    | rfl
    | exact Applied.stop_set closed_truncated.word
    | exact Applied.stop_set closed_truncated.flag

/-- The records of a channel may be applied in any order, too. -/
theorem independent_apply : Property.Independent apply where
  stop_eq_none := stop_apply
  comm := by
    intro p q htag props
    rw [state_apply q, state_apply p, state_apply p, state_apply q]
    simp only [Property.overwrite_comm htag]

end ChannelProperties

/-! ### Both -/

namespace Property

/-- **The order of properties.** Take records with pairwise different tags and with payloads of any
lengths. In every order, all of them are applied, and turn the properties of a layer, whatever these
are, into the same ones; and so for a channel. -/
theorem applyAll_perm {records reordered : List Property} (hperm : records.Perm reordered)
    (htags : (records.map tag).Nodup) :
    (∀ props, ∃ result,
      applyAll LayerProperties.apply records props = (result, none) ∧
        applyAll LayerProperties.apply reordered props = (result, none)) ∧
    ∀ props, ∃ result,
      applyAll ChannelProperties.apply records props = (result, none) ∧
        applyAll ChannelProperties.apply reordered props = (result, none) := by
  -- No two records have a field in common, so the order of the list is the only difference.
  have hlayer := LayerProperties.independent_apply
  have hchannel := ChannelProperties.independent_apply
  constructor
  · intro props
    refine ⟨_, hlayer.applyAll_eq records props, ?_⟩
    rw [← hlayer.applyAll_comm hperm htags, hlayer.applyAll_eq]
  · intro props
    refine ⟨_, hchannel.applyAll_eq records props, ?_⟩
    rw [← hchannel.applyAll_comm hperm htags, hchannel.applyAll_eq]

/-- The first of two offsets, an opacity, a part of a colour, and a flag. -/
def cutOffsets : List Property :=
  [⟨.offsets, #[0, 0, 0, 7]⟩, ⟨.opacity, #[0, 0, 0, 128]⟩, ⟨.color, #[1, 2]⟩,
    ⟨.visible, #[0, 0, 0, 0]⟩]

/-- They are applied from the last to the first as they are from the first to the last. -/
theorem applyAll_perm_cutOffsets :
    ((cutOffsets.map tag).Nodup ∧ cutOffsets.Perm cutOffsets.reverse) ∧
      applyAll LayerProperties.apply cutOffsets.reverse {} =
        ({ opacity := 128, visible := false, xOffset := 7 }, none) ∧
      applyAll ChannelProperties.apply cutOffsets.reverse {} =
        ({ opacity := 128, visible := false }, none) := by
  have htags : (cutOffsets.map tag).Nodup := by decide
  have hperm : cutOffsets.Perm cutOffsets.reverse := (List.reverse_perm cutOffsets).symm
  obtain ⟨hlayer, hchannel⟩ := applyAll_perm hperm htags
  obtain ⟨props, hforth, hback⟩ := hlayer {}
  obtain ⟨channel, hforth', hback'⟩ := hchannel {}
  -- From the first to the last, the records can be applied one by one.
  refine ⟨⟨htags, hperm⟩, ?_, ?_⟩
  · rw [hback, ← hforth]
    rfl
  · rw [hback', ← hforth']
    rfl

end Property

end XcfFlatten
