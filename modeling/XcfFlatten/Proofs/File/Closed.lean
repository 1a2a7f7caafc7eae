import XcfFlatten.File.Header
import XcfFlatten.File.Hierarchy

/-!
# Readers put together from others

A reader of a record is a sequence of readers of its fields, and these come down to taking a number
of bytes. So what is to hold of all readers of the format has to be shown of few: that a result is
given or an error is thrown, that bytes are taken, that the position is looked at or set, and that
one reader goes on where another has stopped. A property that is closed in this sense
(`Reader.Closed`) holds of every scalar, of loops whose bodies have it, and of the header and the
tables of a file.

* `Reader.bind_eq_ok` and `Reader.map_eq_ok_iff` — what a sequence gives, by what its parts give;
* `Reader.Closed` — closed properties of readers, with a lemma for each scalar and each loop;
* `Reader.FailsOnly` — the first of them: which errors a reader may end with.
-/

namespace XcfFlatten

namespace Reader

variable {α β : Type}

/-! ### Running readers -/

/-- A sequence of two readers, run on the data: the second one starts with the result and the cursor
of the first. -/
theorem bind_apply (x : Reader α) (f : α → Reader β) (data : Bytes) (cursor : Cursor) :
    (x >>= f) data cursor = (x data cursor).bind fun p => f p.1 data p.2 := rfl

/-- What a sequence of two readers gives, the second gives from where the first has stopped. -/
theorem bind_eq_ok {x : Reader α} {f : α → Reader β} {data : Bytes} {cursor : Cursor}
    {result : β × Cursor} :
    (x >>= f) data cursor = .ok result ↔
      ∃ a after, x data cursor = .ok (a, after) ∧ f a data after = .ok result := by
  rw [bind_apply]
  -- A first reader that fails leaves nothing to the second one.
  cases x data cursor with
  | error error =>
    refine ⟨fun h => ?_, fun ⟨a, after, h, _⟩ => ?_⟩
    · cases h
    · cases h
  | ok p =>
    refine ⟨fun h => ⟨p.1, p.2, rfl, h⟩, fun ⟨a, after, h, hf⟩ => ?_⟩
    cases h
    exact hf

/-- Behind a reader that gives a result, the sequence goes on with the second reader. -/
theorem bind_of_ok {x : Reader α} {f : α → Reader β} {data : Bytes} {cursor after : Cursor} {a : α}
    (h : x data cursor = .ok (a, after)) : (x >>= f) data cursor = f a data after := by
  rw [bind_apply, h]
  rfl

/-- A function applied to what is read leaves the reader where it is. -/
theorem map_eq_ok_iff {x : Reader α} {f : α → β} {data : Bytes} {cursor after : Cursor} {b : β} :
    (f <$> x) data cursor = .ok (b, after) ↔ ∃ a, x data cursor = .ok (a, after) ∧ b = f a := by
  show (x >>= fun a => pure (f a)) data cursor = _ ↔ _
  rw [bind_eq_ok]
  constructor
  · rintro ⟨a, middle, hx, h⟩
    cases h
    exact ⟨a, hx, rfl⟩
  · rintro ⟨a, hx, rfl⟩
    exact ⟨a, after, hx, rfl⟩

/-- A result that is lifted leaves the cursor where it is. -/
theorem liftM_eq_ok_iff {result : Except ReadError α} {data : Bytes} {cursor after : Cursor}
    {a : α} :
    (MonadLiftT.monadLift result : Reader α) data cursor = .ok (a, after) ↔
      result = .ok a ∧ after = cursor := by
  -- A check never moves the cursor.
  cases result with
  | error error =>
    constructor
    · intro h
      cases h
    · rintro ⟨h, -⟩
      cases h
  | ok b =>
    constructor
    · intro h
      cases h
      exact ⟨rfl, rfl⟩
    · rintro ⟨h, rfl⟩
      cases h
      rfl

/-- Parsing gives what the reader gives from the beginning of the data on. -/
theorem parse_eq_ok_iff {reader : Reader α} {data : Bytes} {a : α} :
    reader.parse data = .ok a ↔ ∃ after, reader data {} = .ok (a, after) := by
  unfold parse
  cases reader data {} with
  | error error => exact ⟨nofun, nofun⟩
  | ok p =>
    constructor
    · intro h
      cases h
      exact ⟨p.2, rfl⟩
    · rintro ⟨after, h⟩
      cases h
      rfl

/-- And it fails as the reader does there. -/
theorem parse_eq_error_iff {reader : Reader α} {data : Bytes} {error : ReadError} :
    reader.parse data = .error error ↔ reader data {} = .error error := by
  unfold parse
  cases reader data {} with
  | error e =>
    constructor
    · intro h
      cases h
      rfl
    · intro h
      cases h
      rfl
  | ok p => exact ⟨nofun, nofun⟩

/-- The position may be set to any number. What is there is not looked at. -/
theorem seek_apply (position : Nat) (data : Bytes) (cursor : Cursor) :
    seek position data cursor = .ok ((), { cursor with position }) := rfl

/-- Bytes are taken only if all of them are there. -/
theorem bytes_apply (length : Nat) (data : Bytes) (cursor : Cursor) :
    bytes length data cursor =
      if length ≤ data.size - cursor.position then
        .ok (data.extract cursor.position (cursor.position + length),
          { cursor with position := cursor.position + length })
      else .error .truncated := by
  change (if length ≤ data.size - cursor.position then _ else _ : Reader Bytes) data cursor = _
  split
  · rfl
  · rfl

/-! ### Closed properties -/

/-- The property is passed on from readers to what is put together from them. A reader with the
property may throw the given errors, if no others. -/
structure Closed (P : ∀ ⦃α : Type⦄, Reader α → Prop) (errors : ReadError → Prop) : Prop where
  pure : ∀ {α : Type} (a : α), P (Pure.pure a)
  throw : ∀ {α : Type} {error : ReadError}, errors error → P (MonadExcept.throw error : Reader α)
  bind : ∀ {α β : Type} {x : Reader α} {f : α → Reader β}, P x → (∀ a, P (f a)) → P (x >>= f)
  get : P (MonadState.get : Reader Cursor)
  seek : ∀ position, P (Reader.seek position)
  bytes : ∀ length, P (Reader.bytes length)

namespace Closed

variable {P : ∀ ⦃α : Type⦄, Reader α → Prop} {errors : ReadError → Prop}

/-- Which of two readers is taken does not matter if both have the property. -/
theorem ite (_ : Closed P errors) {c : Prop} [Decidable c] {x y : Reader α} (hx : P x) (hy : P y) :
    P (if c then x else y) := by
  split
  · exact hx
  · exact hy

variable (h : Closed P errors)
include h

/-- What is done with a result does not matter. -/
theorem map {x : Reader α} (hx : P x) (g : α → β) : P (g <$> x) :=
  h.bind hx fun a => h.pure (g a)

/-- Behind an error nothing is read. -/
theorem throw_bind {error : ReadError} (herror : errors error) (f : α → Reader β) :
    P (MonadExcept.throw error >>= f) := h.throw herror

/-- A result that is lifted is given or thrown. -/
theorem liftM {result : Except ReadError α}
    (herror : ∀ error, result = .error error → errors error) :
    P (MonadLiftT.monadLift result : Reader α) := by
  cases result with
  | ok a => exact h.pure a
  | error error => exact h.throw (herror error rfl)

/-! Scalars are read off their bytes. -/

theorem position : P position := h.bind h.get fun _ => h.pure _

theorem byte : P byte := h.bind (h.bytes 1) fun _ => h.pure _

/-- Everything that has 32 bits is read off four bytes. -/
theorem word : P word := h.bind (h.bytes 4) fun _ => h.pure _

theorem int32 : P int32 := h.bind h.word fun _ => h.pure _

theorem float32 : P float32 := h.bind h.word fun _ => h.pure _

theorem flag : P flag := h.bind h.word fun _ => h.pure _

/-- A string has two parts, its length and as many bytes. -/
theorem string : P string := h.bind h.word fun _ => h.bind (h.bytes _) fun _ => h.pure _

/-- An offset of 64 bits may be refused. -/
theorem offset (herrors : ∀ n, errors (.negativeOffset n)) : P offset := by
  -- The version decides on the width, and only 64 bits can stand for a negative number.
  refine h.bind h.get fun cursor => h.ite ?_ h.word
  exact h.bind (h.bytes 8) fun _ => h.ite (h.throw (herrors _)) (h.pure _)

/-- So may a length that leads out of all positions. -/
theorem skip (herror : errors .badPosition) (length : Nat) : P (skip length) :=
  h.bind h.position fun _ => h.ite (h.seek _) (h.throw herror)

/-- A loop over a list has the property if its body has it. -/
theorem forIn {σ : Type} {body : α → σ → Reader (ForInStep σ)} (hbody : ∀ a s, P (body a s))
    (list : List α) (s : σ) : P (ForIn.forIn list s body) := by
  induction list generalizing s with
  | nil => exact h.pure s
  | cons a list ih =>
    rw [List.forIn_cons]
    refine h.bind (hbody a s) fun step => ?_
    -- The body says whether the loop goes on.
    cases step with
    | done s => exact h.pure s
    | yield s => exact ih s

/-- So has one that hands a state from element to element. -/
theorem foldlM {f : β → α → Reader β} (hf : ∀ b a, P (f b a)) (list : List α) (b : β) :
    P (list.foldlM f b) := by
  induction list generalizing b with
  | nil => exact h.pure b
  | cons a list ih =>
    rw [List.foldlM_cons]
    exact h.bind (hf b a) fun b => ih b

/-! The parts of a file that are read field by field may end with any error but one, which is for
the document as a whole to say. -/

section Parts

variable (herrors : ∀ {error : ReadError}, error ≠ .noVisibleLayers → errors error)
include herrors

/-- The table of layers is a loop over offsets. -/
theorem readLayerTable (limits : Limits) (room : Nat) (done : List Nat) :
    P (readLayerTable limits room done) := by
  -- The induction is on how many offsets the table may still have.
  induction room generalizing done with
  | zero =>
    refine h.bind (h.offset fun _ => herrors nofun) fun _ => ?_
    exact h.ite (h.pure _) (h.throw (herrors nofun))
  | succ room ih =>
    refine h.bind (h.offset fun _ => herrors nofun) fun _ => ?_
    exact h.ite (h.pure _) (ih _)

/-- So is the list of the smaller levels, which are passed over. -/
theorem skipLevels (limits : Limits) (room : Nat) : P (Hierarchy.skipLevels limits room) := by
  induction room with
  | zero =>
    -- With no room left, an offset that does not end the list is an error.
    refine h.bind (h.offset fun _ => herrors nofun) fun _ => ?_
    exact h.ite (h.throw (herrors nofun)) (h.pure _)
  | succ room ih =>
    refine h.bind (h.offset fun _ => herrors nofun) fun _ => ?_
    exact h.ite ih (h.pure _)

/-- The header sets the version, besides. -/
theorem readHeader (hmodify : ∀ g, P (modify g : Reader Unit)) : P Header.read := by
  refine h.bind (h.bytes 14) fun tag => ?_
  refine h.ite (h.throw_bind (herrors (by nofun)) _) ?_
  dsimp only
  -- The tag has to name a version, and the kind of the image has to be one of three.
  split
  · exact h.throw (herrors nofun)
  · refine h.ite (h.throw_bind (herrors (by nofun)) _) ?_
    refine h.bind (hmodify _) fun _ => ?_
    refine h.bind h.word fun width => h.bind h.word fun height => h.bind h.word fun id => ?_
    split
    · exact h.throw (herrors nofun)
    · -- Only newer files have a precision.
      refine h.ite ?_ ?_
      · exact h.bind (h.map h.word _) fun _ => h.pure _
      · exact h.bind (h.pure _) fun _ => h.pure _

end Parts

end Closed

/-! ### How readers fail -/

/-- Wherever the reader fails, it is with one of the given errors. -/
def FailsOnly (errors : ReadError → Prop) {α : Type} (reader : Reader α) : Prop :=
  ∀ ⦃data cursor error⦄, reader data cursor = .error error → errors error

namespace FailsOnly

variable {errors : ReadError → Prop} {x : Reader α} {f : α → Reader β}

theorem pure (a : α) : FailsOnly errors (pure a) := by
  intro data cursor error h
  cases h

theorem throw {error : ReadError} (h : errors error) :
    FailsOnly errors (throw error : Reader α) := by
  intro data cursor error' heq
  cases heq
  exact h

theorem modify (g : Cursor → Cursor) : FailsOnly errors (modify g : Reader Unit) := nofun

/-- A sequence with an error that its first part does not end with fails in the second part. -/
theorem bind_eq_error_iff (hx : FailsOnly errors x) {error : ReadError} (herror : ¬ errors error)
    {data : Bytes} {cursor : Cursor} :
    (x >>= f) data cursor = .error error ↔
      ∃ a after, x data cursor = .ok (a, after) ∧ f a data after = .error error := by
  rw [bind_apply]
  cases hread : x data cursor with
  | error error' =>
    constructor
    · intro heq
      -- The first reader would have failed with an error that is none of its own.
      have hsame : error' = error := Except.error.inj heq
      exact absurd (hx (hsame ▸ hread)) herror
    · rintro ⟨a, after, hok, -⟩
      cases hok
  | ok p =>
    constructor
    · intro heq
      exact ⟨p.1, p.2, rfl, heq⟩
    · rintro ⟨a, after, hok, heq⟩
      cases hok
      exact heq

/-- In a sequence either reader may be the one that fails. -/
theorem bind (hx : FailsOnly errors x) (hf : ∀ a, FailsOnly errors (f a)) :
    FailsOnly errors (x >>= f) := by
  intro data cursor error h
  by_cases hknown : errors error
  · exact hknown
  · obtain ⟨a, after, -, hrest⟩ := (hx.bind_eq_error_iff hknown).mp h
    exact hf a hrest

/-- Bytes are refused only for lack of data. -/
theorem bytes (h : errors .truncated) (length : Nat) : FailsOnly errors (bytes length) := by
  intro data cursor error heq
  rw [bytes_apply] at heq
  split at heq
  · cases heq
  · cases heq
    exact h

/-- Which errors may come up is a closed property, as long as data may end too early. -/
theorem closed (h : errors .truncated) : Closed (@FailsOnly errors) errors where
  pure := pure
  throw := throw
  bind := bind
  get := nofun
  seek _ := modify _
  bytes := bytes h

/-- What is parsed from the beginning of the data fails with one of these errors too. -/
theorem parse (hx : FailsOnly errors x) {data : Bytes} {error : ReadError}
    (h : x.parse data = .error error) : errors error := hx (parse_eq_error_iff.mp h)

end FailsOnly

end Reader

end XcfFlatten
