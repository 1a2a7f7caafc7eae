import Mathlib.Data.List.Basic
import XcfFlatten.Proofs.File.PropertyLists
import XcfFlatten.Proofs.File.Takes

/-!
# Property lists record by record

A property list has records of four layouts, and what stands for the size of a record can be relied
on in only two of them. A reader that takes a byte too many or too few in one record takes the next
one for something else. So the lists that may be stored are described record by record
(`StoredRecord`), and what is followed through a list is where the reader stands: right behind one
record it is right before the next (`Property.Lists`).

* `Property.takes_record` — each record is read back, from its first byte to its last;
* `Property.foldRecords_records` — a list of records changes a state by one property after another
  (`Property.applyAll`);
* `Property.readAll_records` — and calls for each of them once, in their order, for nothing else.
-/

namespace XcfFlatten

/-! ### Ids -/

theorem PropertyTag.ofCode?_code (tag : PropertyTag) : ofCode? tag.code = some tag :=
  List.getElem?_idxOf (by cases tag <;> decide)

theorem PropertyTag.code_lt (tag : PropertyTag) : tag.code < 2 ^ 32 :=
  Nat.lt_of_le_of_lt List.idxOf_le_length (by decide)

/-! ### Colours -/

/-- The bytes of colours, three to each. -/
def colorBytes (colors : List Rgb) : List UInt8 :=
  colors.flatMap fun c => [c.red, c.green, c.blue]

/-- A colour takes three bytes. -/
theorem length_colorBytes (colors : List Rgb) : (colorBytes colors).length = colors.length * 3 := by
  induction colors with
  | nil => rfl
  | cons c colors ih =>
    rw [List.length_cons, Nat.succ_mul, ← ih]
    rfl

/-- The payload of a colour map: how many colours there are, and the colours. -/
def colormapPayload (colors : List Rgb) : List UInt8 :=
  Layout.word colors.length ++ colorBytes colors

/-! ### Records -/

/-- A record as it may stand in a property list, other than the one that ends the list. -/
inductive StoredRecord where
  /-- A tag that says nothing special about its payload. -/
  | ordinary (tag : PropertyTag) (payload : List UInt8)
  /-- A code that is no tag's. -/
  | unknown (code : UInt32) (payload : List UInt8)
  /-- A colour map, whatever size it claims. -/
  | colormap (size : UInt32) (colors : List Rgb)
  /-- A unit, whatever size it claims. -/
  | userUnit (size factor digits : UInt32) (strings : Vector (List UInt8) 5)

namespace StoredRecord

/-- A string, of which every byte counts. -/
def stringBytes (stored : List UInt8) : List UInt8 := Layout.word stored.length ++ stored

/-- The record's bytes. -/
def bytes : StoredRecord → List UInt8
  | ordinary tag payload => Layout.record tag payload
  | unknown code payload =>
    Layout.word code.toNat ++ (Layout.word payload.length ++ payload)
  | colormap size colors =>
    Layout.word PropertyTag.colormap.code ++ (Layout.word size.toNat ++ colormapPayload colors)
  | userUnit size factor digits strings =>
    Layout.word PropertyTag.userUnit.code ++ (Layout.word size.toNat ++
      (Layout.word factor.toNat ++
        (Layout.word digits.toNat ++ strings.toList.flatMap stringBytes)))

/-- The property that the record stands for, if its tag is known. -/
def property? : StoredRecord → Option Property
  | ordinary tag payload => some ⟨tag, payload.toArray⟩
  | unknown _ _ => none
  | colormap _ colors => some ⟨.colormap, (colormapPayload colors).toArray⟩
  | userUnit _ _ _ _ => some ⟨.userUnit, #[]⟩

/-- Whether a record is what it is laid out as, and within the caps on sizes. -/
def Fits (limits : Limits) : StoredRecord → Prop
  | ordinary tag payload =>
    (tag ≠ .colormap ∧ tag ≠ .userUnit ∧ tag ≠ .terminator) ∧
      payload.length ≤ limits.maxPropertySize ∧ payload.length < 2 ^ 32
  | unknown code payload => PropertyTag.all.length ≤ code.toNat ∧ payload.length < 2 ^ 32
  | colormap _ colors => colors.length ≤ 21843
  | userUnit _ _ _ strings => ∀ stored ∈ strings.toList, stored.length < 2 ^ 32

instance (limits : Limits) : DecidablePred (Fits limits)
  | ordinary _ _ => inferInstanceAs (Decidable (_ ∧ _))
  | unknown _ _ => inferInstanceAs (Decidable (_ ∧ _))
  | colormap _ _ => inferInstanceAs (Decidable (_ ≤ _))
  | userUnit _ _ _ strings => inferInstanceAs (Decidable (∀ stored ∈ strings.toList, _))

/-- The records of a property list and its terminator. -/
def listBytes (records : List StoredRecord) : List UInt8 :=
  records.flatMap bytes ++ Layout.terminator

/-- The properties in a list, in their order. -/
def properties (records : List StoredRecord) : List Property := records.filterMap property?

theorem listBytes_cons (record : StoredRecord) (records : List StoredRecord) :
    listBytes (record :: records) = record.bytes ++ listBytes records := by
  rw [listBytes, List.flatMap_cons, List.append_assoc]
  rfl

/-- A list goes on behind its terminator only if that is not among its properties. -/
theorem tag_ne_of_property? {limits : Limits} {record : StoredRecord} (hfits : record.Fits limits)
    {property : Property} (h : record.property? = some property) :
    property.tag ≠ .terminator := by
  -- Where the tag is free, the terminator has been excluded.
  cases record with
  | ordinary tag payload =>
    cases h
    exact hfits.1.2.2
  | unknown code payload => cases h
  | colormap size colors =>
    cases h
    exact PropertyTag.noConfusion
  | userUnit size factor digits strings =>
    cases h
    exact PropertyTag.noConfusion

end StoredRecord

namespace Property

variable {σ : Type} {limits : Limits} {apply : Property → σ → Applied σ} {data : Bytes}
  {version start middle stop remaining : Nat} {state next result : σ}

section Records

/-- An ordinary record is read back. -/
theorem takes_ordinary {tag : PropertyTag} {payload : List UInt8} (hcolormap : tag ≠ .colormap)
    (huserUnit : tag ≠ .userUnit) (hlimit : payload.length ≤ limits.maxPropertySize)
    (hlength : payload.length < 2 ^ 32) (h : data.HasAt start (Layout.record tag payload)) :
    (read? limits).Takes data version start (start + (Layout.record tag payload).length)
      (some ⟨tag, payload.toArray⟩) := by
  rw [Layout.record, List.append_assoc] at h
  have hpayload := h.right.right
  have hplace : start + (Layout.record tag payload).length =
      start + (Layout.word tag.code).length + (Layout.word payload.length).length +
        payload.length := by
    rw [Layout.record, List.length_append, List.length_append]
    omega
  rw [hplace]
  refine (Reader.Takes.word h.left tag.code_lt).bind ?_
  rw [PropertyTag.ofCode?_code]
  -- Of the known tags, two are read differently.
  split
  · next heq => cases heq
  · next heq => exact absurd (Option.some.inj heq) hcolormap
  · next heq => exact absurd (Option.some.inj heq) huserUnit
  · next heq =>
    cases heq
    refine (Reader.Takes.word h.right.left hlength).bind ?_
    rw [if_neg (Nat.not_lt.mpr hlimit)]
    exact (Reader.Takes.bytesPadded_exact hpayload).bind (Reader.Takes.pure _)

/-- A record with an unknown tag is passed over. -/
theorem takes_unknown {code : UInt32} {payload : List UInt8}
    (hcode : PropertyTag.all.length ≤ code.toNat) (hlength : payload.length < 2 ^ 32)
    (hsize : data.size < 2 ^ 64) (h : data.HasAt start (StoredRecord.unknown code payload).bytes) :
    (read? limits).Takes data version start
      (start + (StoredRecord.unknown code payload).bytes.length) none := by
  have hplace : start + (StoredRecord.unknown code payload).bytes.length =
      start + (Layout.word code.toNat).length + (Layout.word payload.length).length +
        payload.length := by
    rw [StoredRecord.bytes, List.length_append, List.length_append]
    omega
  rw [StoredRecord.bytes] at h
  -- The code is beyond the last tag, so the payload is skipped.
  have hnone : PropertyTag.ofCode? code.toNat = none := List.getElem?_eq_none hcode
  rw [hplace]
  refine (Reader.Takes.word h.left code.toNat_lt).bind ?_
  rw [hnone]
  refine (Reader.Takes.word h.right.left hlength).bind ?_
  exact (Reader.Takes.skip h.right.right (by omega) hsize).bind (Reader.Takes.pure _)

/-- A colour map is read back as far as its number of colours says. -/
theorem takes_colormap {size : UInt32} {colors : List Rgb} (hcount : colors.length ≤ 21843)
    (h : data.HasAt start (StoredRecord.colormap size colors).bytes) :
    (read? limits).Takes data version start
      (start + (StoredRecord.colormap size colors).bytes.length)
      (some ⟨.colormap, (colormapPayload colors).toArray⟩) := by
  have hplace : start + (StoredRecord.colormap size colors).bytes.length =
      start + (Layout.word PropertyTag.colormap.code).length + (Layout.word size.toNat).length +
        (Layout.word colors.length).length + colors.length * 3 := by
    rw [StoredRecord.bytes, colormapPayload, List.length_append, List.length_append,
      List.length_append, length_colorBytes]
    omega
  rw [StoredRecord.bytes, colormapPayload] at h
  have hnumber := Reader.Takes.bytes h.right.right.left version
  have hentries : (Reader.bytesPadded _).Takes data version _ _ _ :=
    Reader.Takes.bytesPadded_exact h.right.right.right
  rw [length_colorBytes] at hentries
  -- The number of colours is read off the bytes that are kept as a part of the payload.
  have hcolors : Bytes.toNat (Layout.word colors.length).toArray = colors.length :=
    Layout.toNat_number (by omega)
  rw [hplace]
  refine (Reader.Takes.word h.left (PropertyTag.code_lt _)).bind ?_
  rw [PropertyTag.ofCode?_code]
  -- The size is read, but it is of no consequence.
  refine (Reader.Takes.word h.right.left size.toNat_lt).bind ?_
  refine hnumber.bind ?_
  dsimp only
  rw [hcolors, if_neg (by unfold maxColormapSize; omega)]
  refine hentries.bind ?_
  rw [colormapPayload, List.append_toArray]
  exact Reader.Takes.pure _

/-- Strings in a row are read by a loop that goes round as often. -/
theorem takes_strings {ι : Type} (rounds : List ι) {strings : List (List UInt8)}
    (hrounds : rounds.length = strings.length)
    (hlength : ∀ stored ∈ strings, stored.length < 2 ^ 32)
    (h : data.HasAt start (strings.flatMap StoredRecord.stringBytes)) :
    Reader.Takes
      (ForIn.forIn rounds PUnit.unit fun _ _ => do
        let _ ← Reader.string
        pure (ForInStep.yield PUnit.unit))
      data version start (start + (strings.flatMap StoredRecord.stringBytes).length)
      PUnit.unit := by
  -- One round for each string. What is read of it is dropped.
  induction strings generalizing rounds start with
  | nil =>
    obtain rfl := List.length_eq_zero_iff.mp hrounds
    exact Reader.Takes.pure _
  | cons stored strings ih =>
    obtain ⟨round, rounds, rfl⟩ := List.exists_cons_of_length_eq_add_one hrounds
    rw [List.flatMap_cons] at h
    rw [List.flatMap_cons, List.length_append, ← Nat.add_assoc, List.forIn_cons]
    have hstring : Reader.string.Takes data version _ _ _ :=
      Reader.Takes.prefixed h.left (hlength stored List.mem_cons_self)
    refine (hstring.bind (f := fun _ => pure (ForInStep.yield PUnit.unit))
      (Reader.Takes.pure _)).bind ?_
    exact ih rounds (Nat.succ.inj hrounds)
      (fun stored hmem => hlength stored (List.mem_cons_of_mem _ hmem)) h.right

/-- A unit is read to its last string. -/
theorem takes_userUnit {size factor digits : UInt32} {strings : Vector (List UInt8) 5}
    (hlength : ∀ stored ∈ strings.toList, stored.length < 2 ^ 32)
    (h : data.HasAt start (StoredRecord.userUnit size factor digits strings).bytes) :
    (read? limits).Takes data version start
      (start + (StoredRecord.userUnit size factor digits strings).bytes.length)
      (some ⟨.userUnit, #[]⟩) := by
  rw [StoredRecord.bytes] at h
  have hplace : start + (StoredRecord.userUnit size factor digits strings).bytes.length =
      start + (Layout.word PropertyTag.userUnit.code).length + (Layout.word size.toNat).length +
        (Layout.word factor.toNat).length + (Layout.word digits.toNat).length +
          (strings.toList.flatMap StoredRecord.stringBytes).length := by
    rw [StoredRecord.bytes, List.length_append, List.length_append, List.length_append,
      List.length_append]
    omega
  rw [hplace]
  refine (Reader.Takes.word h.left (PropertyTag.code_lt _)).bind ?_
  rw [PropertyTag.ofCode?_code]
  refine (Reader.Takes.word h.right.left size.toNat_lt).bind ?_
  refine (Reader.Takes.float32 h.right.right.left factor.toNat_lt).bind ?_
  refine (Reader.Takes.int32 h.right.right.right.left digits.toNat_lt).bind ?_
  -- Behind the size, the factor and the digits there are the five names of the unit.
  have hstrings : Reader.Takes _ data version _ _ _ :=
    takes_strings [1, 2, 3, 4, 5] strings.length_toList.symm hlength h.right.right.right.right
  exact hstrings.bind (Reader.Takes.pure _)

/-- **Records.** Each of the four kinds is read from its first byte to its last. Only where a record
is passed over, the reader has to be able to count as far as the end of the data. -/
theorem takes_record {record : StoredRecord} (hfits : record.Fits limits)
    (hsize : record.property? = none → data.size < 2 ^ 64) (h : data.HasAt start record.bytes) :
    (read? limits).Takes data version start (start + record.bytes.length) record.property? := by
  cases record with
  | ordinary tag payload =>
    obtain ⟨⟨hcolormap, huserUnit, -⟩, hlimit, hlength⟩ := hfits
    exact takes_ordinary hcolormap huserUnit hlimit hlength h
  | unknown code payload => exact takes_unknown hfits.1 hfits.2 (hsize rfl) h
  | colormap size colors => exact takes_colormap hfits h
  | userUnit size factor digits strings => exact takes_userUnit hfits h

end Records

/-! ### Lists -/

/-- A property list from one place on to another turns one state into another. -/
def Lists (limits : Limits) (apply : Property → σ → Applied σ) (data : Bytes)
    (version remaining start stop : Nat) (state result : σ) : Prop :=
  foldRecords limits apply data remaining ⟨start, version⟩ state = (result, .ok ⟨stop, version⟩)

namespace Lists

/-- A list may be empty. -/
theorem terminator (h : data.HasAt start Layout.terminator) :
    Lists limits apply data version (remaining + 1) start (start + Layout.terminator.length) state
      state := by
  have hread : (read? limits).Takes data version start (start + Layout.terminator.length)
      (some ⟨.terminator, #[]⟩) :=
    takes_ordinary (by decide) (by decide) (Nat.zero_le _) (by decide) h
  unfold Lists
  rw [foldRecords, hread]
  rfl

/-- A known record changes the state, and the rest of the list goes on from there. -/
theorem cons {property : Property} {failure : Option ReadError}
    (hread : (read? limits).Takes data version start middle (some property))
    (htag : property.tag ≠ .terminator) (happly : apply property state = { state := next, failure })
    (hfailure : failure = none ∨ failure = some .truncated)
    (h : Lists limits apply data version remaining middle stop next result) :
    Lists limits apply data version (remaining + 1) start stop state result := by
  unfold Lists
  rw [foldRecords_of_record limits apply hread htag, happly]
  exact ⟨hfailure, h⟩

/-- Where a list is gone through, it is read. -/
theorem takes (h : Lists limits apply data version limits.maxProperties start stop state result) :
    (readAll limits apply state).Takes data version start stop result := by
  unfold Reader.Takes readAll run
  rw [h]

end Lists

/-- Applies properties to a state one after another. Those that are too short are passed over; any
other failure is the end. -/
def applyAll (apply : Property → σ → Applied σ) : List Property → σ → σ × Option ReadError
  | [], state => (state, none)
  | property :: rest, state =>
    match (apply property state).stop with
    | some error => ((apply property state).state, some error)
    | none => applyAll apply rest (apply property state).state

/-- Where none of them is the end, all of them are applied. -/
theorem applyAll_eq_foldl {properties : List Property}
    (hstop : ∀ property ∈ properties, ∀ state, (apply property state).stop = none) (state : σ) :
    applyAll apply properties state =
      (properties.foldl (fun state property => (apply property state).state) state, none) := by
  induction properties generalizing state with
  | nil => rfl
  | cons property rest ih =>
    rw [applyAll, hstop property List.mem_cons_self]
    exact ih (fun property hmem => hstop property (List.mem_cons_of_mem _ hmem)) _

/-- **One record** of a list. Unless it is the end, the list goes on right behind it. -/
theorem foldRecords_record {record : StoredRecord} (hfits : record.Fits limits)
    (hsize : record.property? = none → data.size < 2 ^ 64) (h : data.HasAt start record.bytes) :
    foldRecords limits apply data (remaining + 1) ⟨start, version⟩ state =
      match record.property? with
      | none =>
        foldRecords limits apply data remaining ⟨start + record.bytes.length, version⟩ state
      | some property =>
        match (apply property state).stop with
        | some error => ((apply property state).state, .error error)
        | none =>
          foldRecords limits apply data remaining ⟨start + record.bytes.length, version⟩
            (apply property state).state := by
  have hread : (read? limits).Takes data version start _ _ := takes_record hfits hsize h
  -- A record that is not known is passed over. Any other is applied.
  cases hproperty : record.property? with
  | none =>
    rw [hproperty] at hread
    rw [foldRecords, hread]
  | some property =>
    rw [hproperty] at hread
    exact foldRecords_of_read? limits apply hread
      (StoredRecord.tag_ne_of_property? hfits hproperty) remaining state

/-- **Lists of records.** A list is read by applying its properties, up to the terminator unless one
of them is the end. -/
theorem foldRecords_records {records : List StoredRecord}
    (hfits : ∀ record ∈ records, record.Fits limits)
    (hsize : ∀ record ∈ records, record.property? = none → data.size < 2 ^ 64)
    (hlength : records.length < remaining)
    (h : data.HasAt start (StoredRecord.listBytes records)) :
    foldRecords limits apply data remaining ⟨start, version⟩ state =
      ((applyAll apply (StoredRecord.properties records) state).1,
        match (applyAll apply (StoredRecord.properties records) state).2 with
        | some error => .error error
        | none => .ok ⟨start + (StoredRecord.listBytes records).length, version⟩) := by
  obtain ⟨remaining, rfl⟩ := Nat.exists_eq_add_one_of_ne_zero (Nat.ne_zero_of_lt hlength)
  -- The list ends with a terminator, for which a round is left. The induction takes the first
  -- record off the list.
  induction records generalizing remaining start state with
  | nil => exact Lists.terminator h
  | cons record records ih =>
    obtain ⟨remaining, rfl⟩ := Nat.exists_eq_add_one_of_ne_zero (Nat.ne_zero_of_lt
      (Nat.lt_of_succ_lt_succ hlength))
    rw [StoredRecord.listBytes_cons] at h
    rw [StoredRecord.listBytes_cons, List.length_append, ← Nat.add_assoc,
      foldRecords_record (hfits record List.mem_cons_self) (hsize record List.mem_cons_self) h.left,
      StoredRecord.properties, List.filterMap_cons]
    have hrest (state : σ) :=
      @ih (start + record.bytes.length) state
        (fun record hmem => hfits record (List.mem_cons_of_mem _ hmem))
        (fun record hmem => hsize record (List.mem_cons_of_mem _ hmem)) h.right remaining
        (Nat.lt_of_succ_lt_succ hlength)
    -- Either the list goes on from where the record ends, or it ends with the error of the record.
    cases record.property? with
    | none => exact hrest state
    | some property =>
      dsimp only
      rw [applyAll]
      cases (apply property state).stop with
      | some error => rfl
      | none => exact hrest (apply property state).state

/-- A list of records changes a state by one property after another. -/
theorem Lists.records {records : List StoredRecord}
    (hfits : ∀ record ∈ records, record.Fits limits)
    (hfailure : ∀ property ∈ StoredRecord.properties records, ∀ state,
      (apply property state).failure = none ∨ (apply property state).failure = some .truncated)
    (hsize : ∀ record ∈ records, record.property? = none → data.size < 2 ^ 64)
    (hlength : records.length < remaining)
    (h : data.HasAt start (StoredRecord.listBytes records)) :
    Lists limits apply data version remaining start
      (start + (StoredRecord.listBytes records).length) state
      ((StoredRecord.properties records).foldl (fun state property => (apply property state).state)
        state) := by
  -- No record ends the list, so all of them are applied.
  have hstop : ∀ property ∈ StoredRecord.properties records, ∀ state,
      (apply property state).stop = none :=
    fun property hmem state => Applied.stop_eq_none_iff.mpr (hfailure property hmem state)
  unfold Lists
  rw [foldRecords_records hfits hsize hlength h, applyAll_eq_foldl hstop]

/-! ### Calls -/

/-- A handler of properties that also writes down what it is called for. -/
def logged (apply : Property → σ → Applied σ) (property : Property)
    (state : σ × List Property) : Applied (σ × List Property) where
  state := ((apply property state.1).state, state.2 ++ [property])
  failure := (apply property state.1).failure

/-- What it has been called for in the end is what it was called for one after another. -/
theorem foldl_logged (properties : List Property) (state : σ) (log : List Property) :
    properties.foldl (fun state property => (logged apply property state).state) (state, log) =
      (properties.foldl (fun state property => (apply property state).state) state,
        log ++ properties) := by
  induction properties generalizing state log with
  | nil => rw [List.append_nil]; rfl
  | cons property properties ih =>
    rw [List.foldl_cons, List.foldl_cons, List.append_cons]
    exact ih _ _

/-- **Property lists.** A list of records of any kinds is read up to its terminator, and the reader
goes on right behind it, whatever comes there. A handler that fails only where a payload ends too
early is called for each known record, once, in their order and with the payload, and is not called
for unknown ones. Places in a file have 64 bits; unknown records are skipped by adding to one. -/
theorem readAll_records (happly : ∀ property state,
      (apply property state).failure = none ∨ (apply property state).failure = some .truncated)
    {records : List StoredRecord} (hfits : ∀ record ∈ records, record.Fits limits)
    (hlength : records.length < limits.maxProperties) (hsize : data.size < 2 ^ 64)
    (h : data.HasAt start (StoredRecord.listBytes records)) (version : Nat) (state : σ) :
    readAll limits apply state data ⟨start, version⟩ =
        .ok ((StoredRecord.properties records).foldl
            (fun state property => (apply property state).state) state,
          ⟨start + (StoredRecord.listBytes records).length, version⟩) ∧
      readAll limits (logged apply) (state, []) data ⟨start, version⟩ =
        .ok (((StoredRecord.properties records).foldl
            (fun state property => (apply property state).state) state,
              StoredRecord.properties records),
          ⟨start + (StoredRecord.listBytes records).length, version⟩) := by
  constructor
  · exact (Lists.records hfits (fun property _ => happly property) (fun _ _ _ => hsize) hlength
      h).takes
  · -- The log is a part of the state, which is the list of all records in the end.
    have hlogged : (readAll limits (logged apply) (state, [])).Takes data version _ _ _ :=
      (Lists.records hfits (fun property _ state => happly property state.1)
        (fun _ _ _ => hsize) hlength h).takes
    rw [foldl_logged, List.nil_append] at hlogged
    exact hlogged

/-- A list with records of all four kinds. -/
def mixedRecords : List StoredRecord :=
  [.ordinary .opacity [0, 0, 0, 128], .unknown 40 [1, 2, 3], .colormap 7 [⟨1, 2, 3⟩],
    .userUnit 5 0 0 #v[[], [109, 0], [109], [], [0]], .ordinary .visible [1]]

/-- Counts the payloads that are as long as a word. -/
def countWords (property : Property) (count : Nat) : Applied Nat :=
  if property.payload.size < 4 then { state := count, failure := some .truncated }
  else { state := count + 1 }

/-- Behind a byte and before two others, the list is read to its end. Two of its four properties are
too short for the handler, and it is called for them like for the others. -/
theorem readAll_mixedRecords :
    readAll {} (logged countWords) (0, [])
        ([9] ++ (StoredRecord.listBytes mixedRecords ++ [7, 7])).toArray ⟨1, 3⟩ =
      .ok ((2, [⟨.opacity, #[0, 0, 0, 128]⟩, ⟨.colormap, #[0, 0, 0, 1, 1, 2, 3]⟩,
        ⟨.userUnit, #[]⟩, ⟨.visible, #[1]⟩]), ⟨96, 3⟩) := by
  -- The count fails on payloads shorter than a word, and only because they are short.
  have hfailure (property : Property) (count : Nat) :
      (countWords property count).failure = none ∨
        (countWords property count).failure = some .truncated := by
    unfold countWords
    split
    · exact Or.inr rfl
    · exact Or.inl rfl
  have hlist : Bytes.HasAt ([9] ++ (StoredRecord.listBytes mixedRecords ++ [7, 7])).toArray 1
      (StoredRecord.listBytes mixedRecords) := ⟨[9], [7, 7], rfl, rfl⟩
  have hfits : ∀ record ∈ mixedRecords, record.Fits {} := by decide
  exact (readAll_records hfailure hfits (by decide) (by decide) hlist 3 0).2

end Property

end XcfFlatten
