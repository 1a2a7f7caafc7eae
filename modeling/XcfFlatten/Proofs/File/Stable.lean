import XcfFlatten.File.LayerRecord
import XcfFlatten.Proofs.File.Closed
import XcfFlatten.Proofs.File.PropertyLists

/-!
# Readers and the end of the data

What a reader gives may depend on where the data ends. A reader is stable if bytes appended to the
data never change a result (`Reader.Stable`). Everything that is made of `Reader.bytes` is
(`Reader.Stable.closed`). `Reader.bytesPadded` is not, as it makes up for missing bytes; but then it
leaves the reader at the end of the data (`Reader.Settles`), where nothing more can be read
(`Reader.FailsAtEnd`). That is why property lists are harmless: something has to be read behind each
of them.

* `LayerRecord.stable_read`, `Header.stable_read`, `stable_readLayerTable` — the records of a file
  are stable;
* `ImageProperties.settles_read` — and so are the properties of an image, or they end with the file.
-/

namespace XcfFlatten

namespace Reader

variable {α β : Type}

/-- A stretch of the data is the same where more follows, unless it reaches past the end. -/
theorem extract_append {data more : Bytes} {start length : Nat}
    (h : start + length ≤ data.size ∨ length = 0) :
    (data ++ more).extract start (start + length) = data.extract start (start + length) := by
  rw [Array.extract_append]
  rcases h with h | h
  · rw [show start + length - data.size = 0 by omega, Array.extract_zero, Array.append_empty]
  · rw [h, Nat.add_zero, Array.extract_eq_empty_of_le (Nat.min_le_left _ _), Array.empty_append,
      Array.extract_eq_empty_of_le (Nat.min_le_left _ _)]

/-! ### Stable readers -/

/-- Appended bytes never change a result. -/
def Stable (reader : Reader α) : Prop :=
  ∀ ⦃data cursor result⦄, reader data cursor = .ok result → ∀ more,
    reader (data ++ more) cursor = .ok result

/-- Appended bytes never change a result that leaves anything to read. -/
def Settles (reader : Reader α) : Prop :=
  ∀ ⦃data cursor a after⦄, reader data cursor = .ok (a, after) →
    data.size ≤ after.position ∨ ∀ more, reader (data ++ more) cursor = .ok (a, after)

/-- There is no result from the end of the data on. -/
def FailsAtEnd (reader : Reader α) : Prop :=
  ∀ ⦃data cursor result⦄, data.size ≤ cursor.position → reader data cursor ≠ .ok result

namespace Stable

variable {x : Reader α} {f : α → Reader β}

/-- A stable reader does not depend on where it stops. -/
theorem settles (h : Stable x) : Settles x := fun _ _ _ _ hx => Or.inr (h hx)

theorem pure (a : α) : Stable (pure a) := fun _ _ _ h _ => h

theorem throw (error : ReadError) : Stable (throw error : Reader α) := by
  intro data cursor result h
  cases h

/-- Both readers give the same on longer data, one after the other. -/
theorem bind (hx : Stable x) (hf : ∀ a, Stable (f a)) : Stable (x >>= f) := by
  intro data cursor result h more
  obtain ⟨a, after, ha, hresult⟩ := bind_eq_ok.mp h
  exact bind_eq_ok.mpr ⟨a, after, hx ha more, hf a hresult more⟩

theorem modify (g : Cursor → Cursor) : Stable (modify g : Reader Unit) := fun _ _ _ h _ => h

/-- Bytes that are there are there in front of others too. -/
theorem bytes (length : Nat) : Stable (bytes length) := by
  intro data cursor result h more
  rw [bytes_apply] at h ⊢
  -- The stretch that is taken lies inside the shorter data.
  split at h
  · next hlength =>
    cases h
    rw [if_pos (by rw [Array.size_append]; omega), extract_append (by omega)]
  · cases h

/-- **What is put together from bytes that are taken is stable**, whatever errors it may throw. -/
theorem closed : Closed @Stable fun _ => True where
  pure := pure
  throw _ := throw _
  bind := bind
  get _ _ _ h _ := h
  seek _ := modify _
  bytes := bytes

/-- Offsets are stable, whatever width they have. -/
theorem offset : Stable offset := closed.offset fun _ => trivial

/-- Behind a stable reader it depends on the second one alone whether appended bytes matter. -/
theorem bind_settles (hx : Stable x) (hf : ∀ a, Settles (f a)) : Settles (x >>= f) := by
  intro data cursor b after h
  obtain ⟨a, middle, ha, hb⟩ := bind_eq_ok.mp h
  rcases hf a hb with hend | hstable
  · exact Or.inl hend
  · exact Or.inr fun more => bind_eq_ok.mpr ⟨a, middle, hx ha more, hstable more⟩

end Stable

namespace FailsAtEnd

variable {x : Reader α} {f : α → Reader β}

/-- Where the first reader gives no result, the sequence gives none. -/
theorem bind (hx : FailsAtEnd x) : FailsAtEnd (x >>= f) := by
  intro data cursor result hend h
  obtain ⟨a, after, ha, -⟩ := bind_eq_ok.mp h
  exact hx hend ha

theorem throw (error : ReadError) : FailsAtEnd (throw error : Reader α) := by
  intro data cursor result hend h
  cases h

theorem ite {y : Reader α} {c : Prop} [Decidable c] (hx : FailsAtEnd x) (hy : FailsAtEnd y) :
    FailsAtEnd (if c then x else y) := by
  split
  · exact hx
  · exact hy

/-- To take any bytes at all, there have to be some. -/
theorem bytes {length : Nat} (hlength : 0 < length) : FailsAtEnd (bytes length) := by
  intro data cursor result hend h
  rw [bytes_apply, if_neg (by omega)] at h
  cases h

theorem word : FailsAtEnd word := bind (bytes (by decide))

/-- An offset has four bytes or eight, so at the end of the data there is none. -/
theorem offset : FailsAtEnd offset := by
  intro data cursor result hend h
  obtain ⟨a, after, ha, h⟩ := bind_eq_ok.mp h
  cases ha
  dsimp only at h
  -- The version chooses the width. Either way there is something to read.
  split at h
  · exact bind (bytes (by decide)) hend h
  · exact word hend h

end FailsAtEnd

namespace Settles

variable {x : Reader α} {f : α → Reader β}

/-- What is done with a result does not move the reader. -/
theorem map (hx : Settles x) (g : α → β) : Settles (x >>= fun a => Pure.pure (g a)) := by
  intro data cursor b after h
  obtain ⟨a, middle, ha, hb⟩ := bind_eq_ok.mp h
  cases hb
  rcases hx ha with hend | hstable
  · exact Or.inl hend
  · exact Or.inr fun more => bind_eq_ok.mpr ⟨a, after, hstable more, rfl⟩

theorem ite {y : Reader α} {c : Prop} [Decidable c] (hx : Settles x) (hy : Settles y) :
    Settles (if c then x else y) := by
  split
  · exact hx
  · exact hy

/-- Where something has to be read next, a result that is not stable comes to nothing. -/
theorem bind (hx : Settles x) (hf : ∀ a, Stable (f a)) (hend : ∀ a, FailsAtEnd (f a)) :
    Stable (x >>= f) := by
  intro data cursor result h more
  obtain ⟨a, middle, ha, hresult⟩ := bind_eq_ok.mp h
  rcases hx ha with hat | hstable
  · exact absurd hresult (hend a hat)
  · exact bind_eq_ok.mpr ⟨a, middle, hstable more, hf a hresult more⟩

/-- Bytes are made up for only past the end of the data. -/
theorem bytesPadded (length : Nat) : Settles (bytesPadded length) := by
  intro data cursor p after h
  let found := data.extract cursor.position (cursor.position + length)
  have hfound : found.size = min (cursor.position + length) data.size - cursor.position :=
    Array.size_extract
  have hafter : after.position = cursor.position + found.size := by
    cases h
    rfl
  -- With fewer bytes than asked for, the end is reached. Otherwise the stretch is inside the data.
  by_cases hshort : found.size < length
  · exact Or.inl (by omega)
  · refine Or.inr fun more => ?_
    have hmore : (data ++ more).extract cursor.position (cursor.position + length) = found :=
      extract_append (by omega)
    rw [← h]
    change Except.ok _ = Except.ok _
    rw [hmore]

end Settles

end Reader

open Reader (Stable Settles FailsAtEnd)

/-! ### Property lists -/

namespace Property

/-- A record either does not depend on the end of the data, or reaches it. -/
theorem settles_read? (limits : Limits) : Settles (read? limits) := by
  refine Stable.closed.word.bind_settles fun code => ?_
  -- Only colour maps and plain payloads are filled up, and both are the last thing that is read.
  split
  · refine Stable.settles ?_
    refine Stable.closed.word.bind fun _ => ?_
    exact (Stable.closed.skip trivial _).bind fun _ => Stable.pure _
  · refine Stable.closed.word.bind_settles fun _ => ?_
    refine (Stable.bytes 4).bind_settles fun count => ?_
    refine Settles.ite (Stable.closed.throw_bind trivial _).settles ?_
    exact (Settles.bytesPadded _).map fun p : Bytes × Nat =>
      some (⟨.colormap, count ++ p.1⟩ : Property)
  · refine Stable.settles ?_
    refine Stable.closed.word.bind fun _ => Stable.closed.float32.bind fun _ => ?_
    refine Stable.closed.int32.bind fun _ => ?_
    refine (Stable.closed.forIn (fun _ _ => ?_) _ _).bind fun _ => Stable.pure _
    exact Stable.closed.string.bind fun _ => Stable.pure _
  · next tag _ _ _ =>
    refine Stable.closed.word.bind_settles fun size => ?_
    refine Settles.ite (Stable.closed.throw_bind trivial _).settles ?_
    exact (Settles.bytesPadded _).map fun p : Bytes × Nat => some (⟨tag, p.1⟩ : Property)

theorem failsAtEnd_read? (limits : Limits) : FailsAtEnd (read? limits) :=
  FailsAtEnd.word.bind

section Lists

variable {σ : Type} (limits : Limits) (apply : Property → σ → Applied σ)

/-- A list does not end at the end of the data, as its terminator would have to be read there. -/
theorem foldRecords_ne_ok {data : Bytes} {cursor : Cursor} (hend : data.size ≤ cursor.position)
    (remaining : Nat) (state : σ) (after : Cursor) :
    (foldRecords limits apply data remaining cursor state).2 ≠ .ok after := by
  -- Either the records are used up, or another one is to be read, and there is nothing.
  cases remaining with
  | zero =>
    intro h
    cases h
  | succ remaining =>
    rw [foldRecords]
    cases hread : read? limits data cursor with
    | error error =>
      intro h
      cases h
    | ok p => exact absurd hread (failsAtEnd_read? limits hend)

/-- **Property lists.** Record by record, either the data has ended or what follows it is of no
consequence. -/
theorem foldRecords_append {data : Bytes} {cursor after : Cursor} {remaining : Nat}
    {state result : σ}
    (h : foldRecords limits apply data remaining cursor state = (result, .ok after)) :
    data.size ≤ after.position ∨
      ∀ more, foldRecords limits apply (data ++ more) remaining cursor state =
        (result, .ok after) := by
  -- By induction on how many records may still come.
  induction remaining generalizing cursor state with
  | zero => cases h
  | succ remaining ih =>
    obtain ⟨record?, middle, hread, hcases⟩ := (foldRecords_succ_iff limits apply).mp h
    rcases hcases with ⟨property, rfl, hterminator, rfl, rfl⟩ | ⟨next, hpasses, hrest⟩
    · -- The terminator may be the last the data has.
      refine (settles_read? limits hread).imp id fun hstable more => ?_
      exact (foldRecords_succ_iff limits apply).mpr
        ⟨_, _, hstable more, Or.inl ⟨property, rfl, hterminator, rfl, rfl⟩⟩
    · -- Every other record is followed by another, so that it does not end with the data.
      have hopen : ¬ data.size ≤ middle.position := fun hend =>
        foldRecords_ne_ok limits apply hend remaining next after (congrArg Prod.snd hrest)
      have hstable := (settles_read? limits hread).resolve_left hopen
      refine (ih hrest).imp id fun hmore more => ?_
      exact (foldRecords_succ_iff limits apply).mpr
        ⟨_, _, hstable more, Or.inr ⟨next, hpasses, hmore more⟩⟩

/-- A property list as a whole settles, since its fold over the records does. -/
theorem settles_readAll (state : σ) : Settles (readAll limits apply state) := by
  intro data cursor result after h
  have hfold := (readAll_eq_ok_iff limits apply).mp h
  refine (foldRecords_append limits apply hfold).imp id fun hmore more => ?_
  exact (readAll_eq_ok_iff limits apply).mpr (hmore more)

end Lists

end Property

/-! ### Records and tables -/

theorem ImageProperties.settles_read (limits : Limits) : Settles (read limits) :=
  Property.settles_readAll limits apply {}

/-- Behind the properties of a layer its offsets are read, so its record is stable. -/
theorem LayerRecord.stable_read (limits : Limits) : Stable (read limits) := by
  refine Stable.closed.word.bind fun width => Stable.closed.word.bind fun height => ?_
  refine Stable.closed.word.bind fun id => ?_
  split
  · exact Stable.throw _
  · refine Stable.closed.string.bind fun name => ?_
    -- The list could end with the data, but an offset has to be read behind it.
    refine (Property.settles_readAll limits LayerProperties.apply _).bind (fun props => ?_) fun _ =>
      FailsAtEnd.offset.bind
    exact Stable.offset.bind fun _ => Stable.offset.bind fun _ => Stable.pure _

theorem Header.stable_read : Stable read :=
  Stable.closed.readHeader (fun _ => trivial) Stable.modify

theorem stable_readLayerTable (limits : Limits) (room : Nat) (done : List Nat) :
    Stable (readLayerTable limits room done) :=
  Stable.closed.readLayerTable (fun _ => trivial) limits room done

/-- A table has at least the offset that ends it. -/
theorem failsAtEnd_readLayerTable (limits : Limits) (room : Nat) (done : List Nat) :
    FailsAtEnd (readLayerTable limits room done) := by
  cases room with
  | zero => exact FailsAtEnd.offset.bind
  | succ room => exact FailsAtEnd.offset.bind

end XcfFlatten
