import XcfFlatten.Proofs.File.Outcome
import XcfFlatten.Proofs.File.PropertyLists

/-!
# Payloads that are too short

A record whose payload ends before what is to be read from it is passed over, and should change
nothing at all. Whether it does depends on what is stored before the rest is read
(`Applied.IgnoresShort`). Channels and images ignore such records as a whole. So do layers, with one
exception: of two offsets the first one holds even if the second is missing.

Lists follow record by record (`Property.foldRecords_related`). They are read as if records that are
too short were left out (`Property.leaveOutShort`), save for the horizontal offset of a layer; where
a list ends does not depend on that either.

* `Applied.AtOnce.ignoresShort` — what is read before anything is stored is ignored as a whole;
* `LayerProperties.apply_offsets` — the exception;
* `LayerProperties.alike_apply` — nothing else depends on it.
-/

namespace XcfFlatten

/-! ### Signed numbers -/

/-- The signed number in four bytes of a payload. -/
def Bytes.int32At (payload : Bytes) (place : Nat) : Int :=
  signed32 (Bytes.toNat (payload.extract place (place + 4)))

namespace Reader

/-- A number of 32 bits takes four bytes, or there is none. -/
theorem int32_apply (data : Bytes) (cursor : Cursor) :
    int32 data cursor =
      if 4 ≤ data.size - cursor.position then
        .ok (data.int32At cursor.position, { cursor with position := cursor.position + 4 })
      else .error .truncated := by
  unfold int32 word
  rw [bind_apply, bind_apply, bytes_apply]
  split
  · rfl
  · rfl

/-- At the beginning of a payload, what counts is how long this is. -/
theorem parse_int32 (payload : Bytes) :
    int32.parse payload =
      if 4 ≤ payload.size then .ok (payload.int32At 0) else .error .truncated := by
  have hread : int32 payload {} = if 4 ≤ payload.size then _ else _ := int32_apply payload {}
  unfold parse
  rw [hread]
  split
  · rfl
  · rfl

/-- The second of two numbers is there if there are eight bytes. -/
theorem parse_second_int32 (payload : Bytes) :
    Reader.parse (do let _ ← int32; int32) payload =
      if 8 ≤ payload.size then .ok (payload.int32At 4) else .error .truncated := by
  have hfirst : int32 payload {} = if 4 ≤ payload.size then _ else _ := int32_apply payload {}
  unfold parse
  rw [bind_apply, hfirst]
  -- The second number begins where the first one ends.
  by_cases hfour : 4 ≤ payload.size
  · rw [if_pos hfour]
    have hsecond : int32 payload ⟨4, 0⟩ = _ := int32_apply payload ⟨4, 0⟩
    change (do let (a, _) ← int32 payload ⟨4, 0⟩; pure a : Except ReadError Int) = _
    rw [hsecond]
    by_cases hboth : 8 ≤ payload.size
    · rw [if_pos hboth, if_pos (by dsimp only; omega)]
      rfl
    · rw [if_neg hboth, if_neg (by dsimp only; omega)]
      rfl
  · rw [if_neg hfour, if_neg (by omega)]
    rfl

end Reader

/-! ### One record -/

/-- If a record is too short, it leaves the state as it was. -/
def Applied.IgnoresShort {σ : Type} (applied : Applied σ) (state : σ) : Prop :=
  applied.failure = some .truncated → applied.state = state

/-- A record that is applied at once is ignored as a whole. -/
theorem Applied.AtOnce.ignoresShort {σ : Type} {applied : Applied σ} {state : σ}
    (h : applied.AtOnce state) : applied.IgnoresShort state := by
  cases h with
  | stored next => exact nofun
  | refused h => exact fun _ => rfl

namespace LayerProperties

/-- Of two offsets, the first one is stored as soon as it is read. -/
theorem apply_offsets (payload : Bytes) (props : LayerProperties) :
    apply ⟨.offsets, payload⟩ props =
      if payload.size < 4 then { state := props, failure := some .truncated }
      else if payload.size < 8 then
        { state := { props with xOffset := payload.int32At 0 }, failure := some .truncated }
      else
        { state := { props with xOffset := payload.int32At 0, yOffset := payload.int32At 4 } } := by
  unfold apply Applied.set
  dsimp only
  rw [Reader.parse_int32, Reader.parse_second_int32]
  -- None of the two, only the first, or both.
  by_cases hfirst : payload.size < 4
  · rw [if_pos hfirst, if_neg (Nat.not_le.mpr hfirst)]
  · rw [if_neg hfirst, if_pos (Nat.not_lt.mp hfirst)]
    dsimp only
    by_cases hsecond : payload.size < 8
    · rw [if_pos hsecond, if_neg (Nat.not_le.mpr hsecond)]
    · rw [if_neg hsecond, if_pos (Nat.not_lt.mp hsecond)]

/-- A record is ignored as a whole unless it has one offset of two, and another one than before. -/
theorem ignoresShort_apply_iff (property : Property) (props : LayerProperties) :
    (apply property props).IgnoresShort props ↔
      (property.tag = .offsets → 4 ≤ property.payload.size → property.payload.size < 8 →
        property.payload.int32At 0 = props.xOffset) := by
  by_cases htag : property.tag = .offsets
  · obtain ⟨tag, payload⟩ := property
    obtain rfl : tag = .offsets := htag
    rw [apply_offsets]
    dsimp only
    -- With no offset, one, or both of them.
    by_cases hfour : payload.size < 4
    · rw [if_pos hfour]
      exact ⟨fun _ _ hle => absurd hfour (Nat.not_lt.mpr hle), fun _ _ => rfl⟩
    · rw [if_neg hfour]
      by_cases hone : payload.size < 8
      · rw [if_pos hone]
        constructor
        · intro h _ _ _
          exact congrArg xOffset (h rfl)
        · intro h _
          dsimp only
          rw [h rfl (Nat.not_lt.mp hfour) hone]
      · rw [if_neg hone]
        exact ⟨fun _ _ _ hlt => absurd hlt hone, fun _ => (Applied.AtOnce.stored _).ignoresShort⟩
  · exact ⟨fun _ h => absurd h htag, fun _ => (atOnce_apply htag props).ignoresShort⟩

/-- Properties that may differ in the horizontal offset, and in nothing else. -/
def SameButX (a b : LayerProperties) : Prop := ∃ x, b = { a with xOffset := x }

/-- What records have been applied to may differ in the horizontal offset, and in nothing else. -/
def Alike (a b : Applied LayerProperties) : Prop :=
  a.failure = b.failure ∧ SameButX a.state b.state

variable {a b : LayerProperties}

/-- Records that are applied to the end leave states that are alike if these are. -/
theorem alike_state (h : SameButX a b) : Alike { state := a } { state := b } := ⟨rfl, h⟩

/-- Which record is applied does not depend on the horizontal offset. -/
theorem alike_ite {c : Prop} [Decidable c] {x y x' y' : Applied LayerProperties} (hx : Alike x x')
    (hy : Alike y y') : Alike (if c then x else y) (if c then x' else y') := by
  split
  · exact hx
  · exact hy

/-- Nor does what is read from a payload. -/
theorem alike_set {α : Type} (payload : Bytes) (reader : Reader α) {f g : α → LayerProperties}
    (hset : ∀ v, SameButX (f v) (g v)) (h : SameButX a b) :
    Alike (.set payload reader f a) (.set payload reader g b) := by
  unfold Applied.set
  cases reader.parse payload with
  | ok v => exact alike_state (hset v)
  | error error => exact ⟨rfl, h⟩

/-- What a record changes apart from the horizontal offset does not depend on that. -/
theorem alike_apply (property : Property) (h : SameButX a b) :
    Alike (apply property a) (apply property b) := by
  obtain ⟨x, rfl⟩ := h
  obtain ⟨tag, payload⟩ := property
  cases tag
  -- Two records look at how long they are. The others set one field, or none.
  case floatOpacity =>
    exact alike_ite (alike_set payload Reader.float32 (fun _ => ⟨x, rfl⟩) ⟨x, rfl⟩)
      (alike_state ⟨x, rfl⟩)
  case offsets =>
    rw [apply_offsets, apply_offsets]
    refine alike_ite ⟨rfl, x, rfl⟩ (alike_ite ⟨rfl, ?_⟩ (alike_state ?_))
    · exact ⟨payload.int32At 0, rfl⟩
    · exact ⟨payload.int32At 0, rfl⟩
  all_goals first
    | exact alike_state ⟨x, rfl⟩
    | exact alike_set payload _ (fun _ => ⟨x, rfl⟩) ⟨x, rfl⟩

/-- The horizontal offset may change more than once. -/
theorem SameButX.trans {a b c : LayerProperties} (hab : SameButX a b) (hbc : SameButX b c) :
    SameButX a c := by
  obtain ⟨_, rfl⟩ := hab
  obtain ⟨x, rfl⟩ := hbc
  exact ⟨x, rfl⟩

/-- A record that is too short changes the horizontal offset at most. -/
theorem sameButX_of_short {property : Property} {props : LayerProperties}
    (hshort : (apply property props).failure = some .truncated) :
    SameButX props (apply property props).state := by
  -- Only offsets can be stored in part.
  by_cases htag : property.tag = .offsets
  · obtain ⟨tag, payload⟩ := property
    obtain rfl : tag = .offsets := htag
    rw [apply_offsets] at hshort ⊢
    split
    · exact ⟨props.xOffset, rfl⟩
    · next hfour =>
      rw [if_neg hfour] at hshort
      split
      · exact ⟨payload.int32At 0, rfl⟩
      · next hboth =>
        rw [if_neg hboth] at hshort
        cases hshort
  · rw [(atOnce_apply htag props).ignoresShort hshort]
    exact ⟨props.xOffset, rfl⟩

end LayerProperties

/-! ### Lists of records -/

namespace Property

section

variable {σ τ : Type} (limits : Limits)

/-- Applies a record, but leaves it out if it is too short. -/
def leaveOutShort (apply : Property → σ → Applied σ) (property : Property) (state : σ) :
    Applied σ :=
  if (apply property state).failure = some .truncated then { state } else apply property state

/-- **Two lists in step.** What is related by every record is related by the whole list, and both
lists end in the same way. -/
theorem foldRecords_related {R : σ → τ → Prop} {f : Property → σ → Applied σ}
    {g : Property → τ → Applied τ}
    (hstep : ∀ property a b, R a b → (f property a).stop = (g property b).stop ∧
      R (f property a).state (g property b).state)
    (data : Bytes) (remaining : Nat) (cursor : Cursor) {a : σ} {b : τ} (hab : R a b) :
    R (foldRecords limits f data remaining cursor a).1
        (foldRecords limits g data remaining cursor b).1 ∧
      (foldRecords limits f data remaining cursor a).2 =
        (foldRecords limits g data remaining cursor b).2 := by
  -- By induction on how many records there may be. Both lists read the same records, as these depend
  -- on the data alone.
  induction remaining generalizing cursor a b with
  | zero => exact ⟨hab, rfl⟩
  | succ remaining ih =>
    cases hread : read? limits data cursor with
    | error error =>
      rw [foldRecords, foldRecords, hread]
      exact ⟨hab, rfl⟩
    | ok p =>
      obtain ⟨record?, middle⟩ := p
      cases record? with
      | none =>
        rw [foldRecords, foldRecords, hread]
        exact ih middle hab
      | some property =>
        by_cases hterminator : property.tag = .terminator
        · rw [foldRecords, foldRecords, hread]
          dsimp only
          rw [if_pos hterminator, if_pos hterminator]
          exact ⟨hab, rfl⟩
        · obtain ⟨hstop, hnext⟩ := hstep property a b hab
          rw [foldRecords_of_read? limits f hread hterminator,
            foldRecords_of_read? limits g hread hterminator, hstop]
          cases (g property b).stop with
          | some error => exact ⟨hnext, rfl⟩
          | none => exact ih middle hnext

/-- Whether a list goes on behind a record is the same if the record is left out for being too
short. -/
theorem stop_leaveOutShort (apply : Property → σ → Applied σ) (property : Property) (state : σ) :
    (leaveOutShort apply property state).stop = (apply property state).stop := by
  unfold leaveOutShort
  split
  · next hshort => exact (if_pos hshort).symm
  · rfl

/-- Where every record is ignored as a whole if it is too short, the list is read as if such records
were left out. -/
theorem run_leaveOutShort {apply : Property → σ → Applied σ}
    (happly : ∀ property state, (apply property state).IgnoresShort state) (state : σ)
    (data : Bytes) (cursor : Cursor) :
    run limits (leaveOutShort apply) state data cursor = run limits apply state data cursor := by
  -- Both lists stay in the same state, since a record that is too short has not changed it.
  have hstep : ∀ property a b, a = b →
      (leaveOutShort apply property a).stop = (apply property b).stop ∧
        (leaveOutShort apply property a).state = (apply property b).state := by
    rintro property a _ rfl
    refine ⟨stop_leaveOutShort apply property a, ?_⟩
    unfold leaveOutShort
    split
    · next hshort => exact (happly property a hshort).symm
    · rfl
  obtain ⟨hstate, hend⟩ :=
    foldRecords_related limits hstep data limits.maxProperties cursor (rfl : state = state)
  exact Prod.ext hstate hend

end

end Property

/-- Why a list ends is told by the failure alone. -/
theorem Applied.stop_congr {σ τ : Type} {x : Applied σ} {y : Applied τ}
    (h : x.failure = y.failure) : x.stop = y.stop := by
  unfold stop
  rw [h]

/-- The properties of a layer are read as if records that are too short were left out, apart from
the horizontal offset. -/
theorem LayerProperties.run_leaveOutShort (limits : Limits) (props : LayerProperties) (data : Bytes)
    (cursor : Cursor) :
    SameButX (Property.run limits (Property.leaveOutShort apply) props data cursor).1
        (Property.run limits apply props data cursor).1 ∧
      (Property.run limits (Property.leaveOutShort apply) props data cursor).2 =
        (Property.run limits apply props data cursor).2 := by
  refine Property.foldRecords_related limits ?_ data limits.maxProperties cursor
    ⟨props.xOffset, rfl⟩
  intro property a b hab
  obtain ⟨hfailure, hnext⟩ := alike_apply property hab
  refine ⟨(Property.stop_leaveOutShort apply property a).trans (Applied.stop_congr hfailure), ?_⟩
  unfold Property.leaveOutShort
  split
  · next hshort =>
    -- What is left out here has at most changed the horizontal offset there.
    exact hab.trans (sameButX_of_short (hfailure ▸ hshort))
  · exact hnext

/-- **Payloads that are too short.** Channels and images ignore a record that is too short as a
whole, and so do layers unless it holds one of two offsets, and another one than before. Lists are
read as if such records were left out, apart from the horizontal offset of a layer. -/
theorem Property.shortPayloads_ignored (property : Property) (limits : Limits) (data : Bytes)
    (cursor : Cursor) :
    (∀ props, (ChannelProperties.apply property props).IgnoresShort props) ∧
    (∀ props, (ImageProperties.apply property props).IgnoresShort props) ∧
    (∀ props, (LayerProperties.apply property props).IgnoresShort props ↔
      (property.tag = .offsets → 4 ≤ property.payload.size → property.payload.size < 8 →
        property.payload.int32At 0 = props.xOffset)) ∧
    (∀ props, run limits (leaveOutShort ChannelProperties.apply) props data cursor =
      run limits ChannelProperties.apply props data cursor) ∧
    (∀ props, run limits (leaveOutShort ImageProperties.apply) props data cursor =
      run limits ImageProperties.apply props data cursor) ∧
    ∀ props,
      LayerProperties.SameButX
        (run limits (leaveOutShort LayerProperties.apply) props data cursor).1
        (run limits LayerProperties.apply props data cursor).1 ∧
      (run limits (leaveOutShort LayerProperties.apply) props data cursor).2 =
        (run limits LayerProperties.apply props data cursor).2 := by
  -- The records of channels and images are applied at once, so one that is too short leaves the
  -- state.
  have hchannel : ∀ property props, (ChannelProperties.apply property props).IgnoresShort props :=
    fun property props => (ChannelProperties.atOnce_apply property props).ignoresShort
  have himage : ∀ property props, (ImageProperties.apply property props).IgnoresShort props :=
    fun property props => (ImageProperties.atOnce_apply property props).ignoresShort
  refine ⟨hchannel property, himage property, LayerProperties.ignoresShort_apply_iff property,
    ?_, ?_, ?_⟩
  · intro props
    exact run_leaveOutShort limits hchannel props data cursor
  · intro props
    exact run_leaveOutShort limits himage props data cursor
  · intro props
    exact LayerProperties.run_leaveOutShort limits props data cursor

/-- A colour of which two of three bytes are there is ignored. -/
theorem Property.shortPayloads_ignored_shortColor :
    (ChannelProperties.apply ⟨.color, #[1, 2]⟩ {}).failure = some .truncated ∧
      (ChannelProperties.apply ⟨.color, #[1, 2]⟩ {}).state = {} := by
  have hshort : (ChannelProperties.apply ⟨.color, #[1, 2]⟩ {}).failure = some .truncated := by
    decide
  exact ⟨hshort, (shortPayloads_ignored ⟨.color, #[1, 2]⟩ {} #[] {}).1 {} hshort⟩

/-- Of two offsets the first one is there, and it holds: in the record, and in a list that has
nothing else in it. -/
theorem LayerProperties.apply_shortOffsets :
    (apply ⟨.offsets, #[0, 0, 0, 7]⟩ {}).failure = some .truncated ∧
      (apply ⟨.offsets, #[0, 0, 0, 7]⟩ {}).state = { xOffset := 7 } ∧
      (Property.run {} apply {}
        #[0, 0, 0, 15, 0, 0, 0, 4, 0, 0, 0, 7, 0, 0, 0, 0, 0, 0, 0, 0] {}).1 = { xOffset := 7 } ∧
      ({ xOffset := 7 } : LayerProperties) ≠ {} := by
  decide +kernel

end XcfFlatten
