import XcfFlatten.File.Property

/-!
# Property lists, step by step

A property list is read record by record until its terminator. A record that is not known is skipped,
and one whose payload is too short is applied as far as it goes (`Property.Passes`); any other record
that cannot be applied ends the list with its error (`Applied.stop`). What one record does to a list
is said once (`Property.foldRecords_succ_iff`), and everything about whole lists follows from this by
induction.
-/

namespace XcfFlatten

namespace Applied

variable {σ : Type} {applied : Applied σ}

/-- Why a list ends with a record, if it does: a record that is too short is passed over. -/
def stop (applied : Applied σ) : Option ReadError :=
  if applied.failure = some .truncated then none else applied.failure

/-- A list goes on behind a record that has been applied, and behind one that was too short. -/
theorem stop_eq_none_iff :
    applied.stop = none ↔ applied.failure = none ∨ applied.failure = some .truncated := by
  unfold stop
  split
  · next htruncated => exact ⟨fun _ => Or.inr htruncated, fun _ => rfl⟩
  · next htruncated => exact ⟨Or.inl, fun h => h.resolve_right htruncated⟩

end Applied

namespace Property

variable {σ : Type} (limits : Limits) (apply : Property → σ → Applied σ)

/-- Where a list goes on behind a record that is no terminator, and with which state. -/
theorem foldRecords_of_read? {data : Bytes} {cursor middle : Cursor} {property : Property}
    (hread : read? limits data cursor = .ok (some property, middle))
    (hterminator : property.tag ≠ .terminator) (remaining : Nat) (state : σ) :
    foldRecords limits apply data (remaining + 1) cursor state =
      match (apply property state).stop with
      | some error => ((apply property state).state, .error error)
      | none => foldRecords limits apply data remaining middle (apply property state).state := by
  rw [foldRecords, hread]
  dsimp only
  -- Past the terminator, what counts is why the record could not be applied, if so.
  rw [if_neg hterminator]
  obtain ⟨next, failure⟩ := apply property state
  cases failure with
  | none => rfl
  | some error =>
    unfold Applied.stop
    dsimp only
    -- Only a lack of bytes is forgiven.
    by_cases htruncated : error = .truncated
    · rw [if_pos htruncated, if_pos (congrArg some htruncated)]
    · rw [if_neg htruncated, if_neg fun h => htruncated (Option.some.inj h)]

/-- Behind a record that is no terminator the list goes on, from whatever state the record has
left. -/
theorem foldRecords_of_record {data : Bytes} {cursor middle after : Cursor} {remaining : Nat}
    {state result : σ} {property : Property}
    (hread : read? limits data cursor = .ok (some property, middle))
    (hterminator : property.tag ≠ .terminator) :
    foldRecords limits apply data (remaining + 1) cursor state = (result, .ok after) ↔
      ((apply property state).failure = none ∨ (apply property state).failure = some .truncated) ∧
        foldRecords limits apply data remaining middle (apply property state).state =
          (result, .ok after) := by
  rw [foldRecords_of_read? limits apply hread hterminator, ← Applied.stop_eq_none_iff]
  -- With an error the list has ended, and not with its terminator.
  cases (apply property state).stop with
  | none => exact ⟨fun h => ⟨rfl, h⟩, fun h => h.2⟩
  | some error =>
    refine ⟨fun h => ?_, fun h => ?_⟩
    · cases h
    · cases h.1

/-- How a list goes on behind a record: one that is not known leaves the state, any other is applied
as far as it goes. -/
inductive Passes (apply : Property → σ → Applied σ) : Option Property → σ → σ → Prop
  | unknown (state : σ) : Passes apply none state state
  | known {property : Property} {state : σ} (hterminator : property.tag ≠ .terminator)
      (hfailure : (apply property state).failure = none ∨
        (apply property state).failure = some .truncated) :
      Passes apply (some property) state (apply property state).state

/-- **One step through a list.** A list that is read begins with its terminator, or with another
record behind which it goes on. -/
theorem foldRecords_succ_iff {data : Bytes} {cursor after : Cursor} {remaining : Nat}
    {state result : σ} :
    foldRecords limits apply data (remaining + 1) cursor state = (result, .ok after) ↔
      ∃ record? middle, read? limits data cursor = .ok (record?, middle) ∧
        ((∃ property, record? = some property ∧ property.tag = .terminator ∧ state = result ∧
            middle = after) ∨
          ∃ next, Passes apply record? state next ∧
            foldRecords limits apply data remaining middle next = (result, .ok after)) := by
  -- The first record decides: it cannot be read, or it is not known, or it ends the list, or it is
  -- applied.
  cases hread : read? limits data cursor with
  | error error =>
    rw [foldRecords, hread]
    refine ⟨fun h => ?_, fun ⟨_, _, h, _⟩ => ?_⟩
    · cases h
    · cases h
  | ok p =>
    obtain ⟨record?, middle⟩ := p
    cases record? with
    | none =>
      rw [foldRecords, hread]
      constructor
      · intro h
        exact ⟨none, middle, rfl, Or.inr ⟨state, .unknown state, h⟩⟩
      · -- A record that is not known is no terminator.
        rintro ⟨_, _, ⟨⟩, ⟨_, hnone, -⟩ | ⟨_, ⟨⟩, h⟩⟩
        · cases hnone
        · exact h
    | some property =>
      by_cases hterminator : property.tag = .terminator
      · rw [foldRecords, hread]
        dsimp only
        rw [if_pos hterminator]
        constructor
        · intro h
          cases h
          exact ⟨some property, _, rfl, Or.inl ⟨property, rfl, hterminator, rfl, rfl⟩⟩
        · rintro ⟨_, _, ⟨⟩, ⟨_, -, -, rfl, rfl⟩ | ⟨_, hpasses, -⟩⟩
          · rfl
          · cases hpasses with
            | known hother => exact absurd hterminator hother
      · -- A record that is applied and the list behind it.
        rw [foldRecords_of_record limits apply hread hterminator]
        constructor
        · rintro ⟨hfailure, h⟩
          exact ⟨some property, middle, rfl, Or.inr ⟨_, .known hterminator hfailure, h⟩⟩
        · rintro ⟨_, _, ⟨⟩, ⟨_, ⟨⟩, htag, -⟩ | ⟨_, hpasses, h⟩⟩
          · exact absurd htag hterminator
          · cases hpasses with
            | known _ hfailure => exact ⟨hfailure, h⟩

/-- A list is read exactly where the fold over its records comes to its terminator. -/
theorem readAll_eq_ok_iff {state result : σ} {data : Bytes} {cursor after : Cursor} :
    readAll limits apply state data cursor = .ok (result, after) ↔
      foldRecords limits apply data limits.maxProperties cursor state = (result, .ok after) := by
  unfold readAll run
  -- Reading a list is the fold with its outcome and its state put the other way round.
  obtain ⟨end', outcome⟩ := foldRecords limits apply data limits.maxProperties cursor state
  cases outcome with
  | error error =>
    refine ⟨fun h => ?_, fun h => ?_⟩
    · cases h
    · cases h
  | ok stop =>
    dsimp only
    rw [Except.ok.injEq, Prod.mk.injEq, Prod.mk.injEq, Except.ok.injEq]

end Property

end XcfFlatten
