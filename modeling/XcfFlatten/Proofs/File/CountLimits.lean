import XcfFlatten.Proofs.File.HierarchyPlan
import XcfFlatten.Proofs.File.PropertyRecords

/-!
# Limits on how many

Three lists of a file end with a mark of their own, and each of them has a limit on how many entries
may come before it. The limits are looked at in three ways: a property list is read in as many rounds
as the limit says, a table of layers has room for as many entries, and of the levels of a hierarchy
all but the first are counted.

A list that is not longer than it may be is read to its end, and any longer one is refused
(`Limits.admits_counts`). The tables of layers and of levels may have as many entries as their limits
say. A property list must stay below its limit: its last round is for the mark at its end
(`Property.readAll_fullList`).

* `Property.foldRecords_of_le` — a property list with too many records;
* `takes_layerTable` and `readLayerTable_of_lt` — tables of layers;
* `HierarchyPlan.readHierarchy_of_le` and `HierarchyPlan.readHierarchy_of_lt` — lists of levels.
-/

namespace XcfFlatten

variable {data : Bytes} {version start : Nat}

/-! ### Property lists -/

namespace Property

variable {σ : Type} {limits : Limits} {apply : Property → σ → Applied σ}

/-- As many rounds as there are records do not get to the end of the list. -/
theorem foldRecords_of_le {records : List StoredRecord}
    (hfits : ∀ record ∈ records, record.Fits limits)
    (happly : ∀ property ∈ StoredRecord.properties records, ∀ state,
      (apply property state).failure = none ∨ (apply property state).failure = some .truncated)
    (hsize : data.size < 2 ^ 64) {remaining : Nat} (hlength : remaining ≤ records.length)
    (h : data.HasAt start (StoredRecord.listBytes records)) (state : σ) :
    (foldRecords limits apply data remaining ⟨start, version⟩ state).2 =
      .error (.tooManyProperties limits.maxProperties) := by
  -- The induction goes along the records; the rounds are used up before they are.
  induction records generalizing remaining start state with
  | nil =>
    -- No record is left, so no round is left either, and none remains for the End.
    obtain rfl := Nat.le_zero.mp hlength
    rfl
  | cons record records ih =>
    cases remaining with
    | zero => rfl
    | succ remaining =>
      rw [StoredRecord.listBytes_cons] at h
      rw [StoredRecord.properties, List.filterMap_cons] at happly
      rw [foldRecords_record (hfits record List.mem_cons_self) (fun _ => hsize) h.left]
      have hrest := fun happly state =>
        ih (fun r hr => hfits r (List.mem_cons_of_mem _ hr)) happly (Nat.le_of_succ_le_succ hlength)
          h.right state
      cases hproperty : record.property? with
      | none =>
        rw [hproperty] at happly
        exact hrest happly state
      | some property =>
        rw [hproperty] at happly
        -- A handler that finds a payload too short warns and goes on.
        have hstop : (apply property state).stop = none :=
          Applied.stop_eq_none_iff.mpr (happly property List.mem_cons_self state)
        dsimp only
        rw [hstop]
        exact hrest (fun p hp => happly p (List.mem_cons_of_mem _ hp)) _

/-- A list that holds as many records as there are rounds is refused by the reading as a whole,
whatever state the handler reached. -/
theorem readAll_of_le {records : List StoredRecord}
    (hfits : ∀ record ∈ records, record.Fits limits)
    (happly : ∀ property ∈ StoredRecord.properties records, ∀ state,
      (apply property state).failure = none ∨ (apply property state).failure = some .truncated)
    (hsize : data.size < 2 ^ 64) (hlength : limits.maxProperties ≤ records.length)
    (h : data.HasAt start (StoredRecord.listBytes records)) (state : σ) :
    readAll limits apply state data ⟨start, version⟩ =
      .error (.tooManyProperties limits.maxProperties) := by
  have hfold : (run limits apply state data ⟨start, version⟩).2 = _ :=
    foldRecords_of_le hfits happly hsize hlength h state
  unfold readAll
  -- Only how the run ends matters, not what it has gathered.
  generalize run limits apply state data ⟨start, version⟩ = outcome at hfold
  obtain ⟨result, stop⟩ := outcome
  cases hfold
  rfl

end Property

/-! ### Tables of layers -/

/-- The table of layers is read up to its end, and comes out the other way round. -/
theorem takes_layerTable (limits : Limits) {places : List Nat}
    (hplaces : ∀ place ∈ places, place ≠ 0 ∧ Layout.FitsOffset version place) {room : Nat}
    (hroom : places.length ≤ room) (done : List Nat)
    (h : data.HasAt start (places.flatMap (Layout.offset version) ++ Layout.offset version 0)) :
    (readLayerTable limits room done).Takes data version start
      (start + (places.flatMap (Layout.offset version) ++ Layout.offset version 0).length)
      (places.reverse ++ done) := by
  induction places generalizing room start done with
  | nil =>
    have hend := Reader.Takes.offset h (Nat.two_pow_pos 32)
    -- The zero at the end is read even where there is no room for another layer.
    cases room with
    | zero => exact hend.bind (Reader.Takes.pure done)
    | succ room => exact hend.bind (Reader.Takes.pure done)
  | cons place places ih =>
    obtain ⟨room, rfl⟩ := Nat.exists_eq_add_one_of_ne_zero (Nat.ne_zero_of_lt hroom)
    obtain ⟨hne, hfits⟩ := hplaces place List.mem_cons_self
    rw [List.flatMap_cons, List.append_assoc] at h ⊢
    rw [List.length_append, ← Nat.add_assoc]
    refine (Reader.Takes.offset_of_fits h.left hfits).bind ?_
    rw [if_neg hne, List.reverse_cons, List.append_assoc]
    exact ih (fun p hp => hplaces p (List.mem_cons_of_mem _ hp)) (Nat.le_of_succ_le_succ hroom)
      (place :: done) h.right

/-- A longer table is refused. -/
theorem readLayerTable_of_lt (limits : Limits) {places : List Nat}
    (hplaces : ∀ place ∈ places, place ≠ 0 ∧ Layout.FitsOffset version place) {room : Nat}
    (hroom : room < places.length) (done : List Nat)
    (h : data.HasAt start (places.flatMap (Layout.offset version) ++ Layout.offset version 0)) :
    readLayerTable limits room done data ⟨start, version⟩ =
      .error (.tooManyLayers limits.maxLayers) := by
  induction places generalizing room start done with
  | nil => exact absurd hroom (Nat.not_lt_zero room)
  | cons place places ih =>
    obtain ⟨hne, hfits⟩ := hplaces place List.mem_cons_self
    rw [List.flatMap_cons, List.append_assoc] at h
    have hoffset := Reader.Takes.offset_of_fits h.left hfits
    cases room with
    | zero =>
      -- The table is full and another offset that is not zero comes.
      refine hoffset.bind_eq ?_
      rw [if_neg hne]
      rfl
    | succ room =>
      refine hoffset.bind_eq ?_
      rw [if_neg hne]
      exact ih (fun p hp => hplaces p (List.mem_cons_of_mem _ hp)) (Nat.lt_of_succ_lt_succ hroom)
        (place :: done) h.right

/-! ### All three -/

/-- From a place on, the reader does what is expected if a condition holds, and finds the data corrupt
if it does not. -/
def Reader.AdmitsIf {α : Type} (condition : Prop) (reader : Reader α) (data : Bytes)
    (version start : Nat) (expected : Except ReadError (α × Cursor)) : Prop :=
  (condition → reader data ⟨start, version⟩ = expected) ∧
    (¬ condition → ∃ error, reader data ⟨start, version⟩ = .error error ∧
      error.errorClass = .corrupt)

/-- **Limits on how many.** A property list is read to its end if it has fewer records than its limit
says, and is corrupt if it has as many or more. A table of layers is read to its end if it has at most
as many entries as its limit says, and is corrupt if it has more. And so are the levels of a hierarchy,
with the one that is followed among them, for every limit that admits any: what is left is to read
that level. -/
theorem Limits.admits_counts (limits : Limits) (data : Bytes) (version start : Nat) :
    (∀ (σ : Type) (apply : Property → σ → Applied σ) (state : σ) (records : List StoredRecord),
      (∀ record ∈ records, record.Fits limits) →
      (∀ property ∈ StoredRecord.properties records, ∀ state,
        (apply property state).failure = none ∨ (apply property state).failure = some .truncated) →
      data.size < 2 ^ 64 → data.HasAt start (StoredRecord.listBytes records) →
      (Property.readAll limits apply state).AdmitsIf (records.length < limits.maxProperties) data
        version start
        (.ok ((StoredRecord.properties records).foldl
            (fun state property => (apply property state).state) state,
          ⟨start + (StoredRecord.listBytes records).length, version⟩))) ∧
    (∀ places : List Nat, (∀ place ∈ places, place ≠ 0 ∧ Layout.FitsOffset version place) →
      data.HasAt start (places.flatMap (Layout.offset version) ++ Layout.offset version 0) →
      (readLayerTable limits limits.maxLayers []).AdmitsIf (places.length ≤ limits.maxLayers) data
        version start
        (.ok (places.reverse, ⟨start +
          (places.flatMap (Layout.offset version) ++ Layout.offset version 0).length, version⟩))) ∧
    ∀ (plan : HierarchyPlan) (channels : Nat) (window : Window) (content : TileContent)
      (compression : Compression) (width height : Nat),
      1 ≤ channels ∧ channels ≤ 4 → Layout.FitsOffset version plan.level →
      (∀ other ∈ plan.others, other ≠ 0 ∧ Layout.FitsOffset version other) →
      data.HasAt start (plan.head version channels) → 1 ≤ limits.maxLevels →
      (readHierarchy width height content compression limits window).AdmitsIf
        ((plan.level :: plan.others).length ≤ limits.maxLevels) data version start
        (Hierarchy.readLevelAt window width height channels content compression plan.level
          (start + (plan.head version channels).length) data
          ⟨start + (plan.head version channels).length, version⟩) := by
  refine ⟨fun σ apply state records hfits happly hsize h => ⟨fun hlength => ?_, fun hlength => ?_⟩,
    fun places hplaces h => ⟨fun hlength => ?_, fun hlength => ?_⟩,
    fun plan channels window content compression width height hchannels hlevel hothers h hpos =>
      ⟨fun hlength => ?_, fun hlength => ?_⟩⟩
  · exact (Property.Lists.records hfits happly (fun _ _ _ => hsize) hlength h).takes
  · exact ⟨_, Property.readAll_of_le hfits happly hsize (Nat.not_lt.mp hlength) h state, rfl⟩
  · -- A table that is not too long is read, and its places come in reverse.
    have htable := takes_layerTable limits hplaces hlength [] h
    rwa [List.append_nil] at htable
  · exact ⟨_, readLayerTable_of_lt limits hplaces (Nat.not_le.mp hlength) [] h, rfl⟩
  · rw [List.length_cons] at hlength
    exact HierarchyPlan.readHierarchy_of_le window content limits width height hchannels hlevel
      hothers h (by omega)
  · rw [List.length_cons] at hlength
    exact ⟨_, HierarchyPlan.readHierarchy_of_lt window content limits width height hchannels hlevel
      hothers h (by omega), rfl⟩

/-- Limits that admit one of each. -/
def oneOfEach : Limits := { maxProperties := 1, maxLayers := 1, maxLevels := 1 }

/-- A property list of one record. -/
def oneRecord : List StoredRecord := [.ordinary .visible [0, 0, 0, 1]]

/-- A hierarchy with one level next to the one that is followed. -/
def twoLevels : HierarchyPlan where
  width := 1
  height := 1
  level := 24
  others := [36]
  levelWidth := 1
  levelHeight := 1
  tiles := []

/-- Where the limits admit one of each, a list of one record is refused and an empty one is read, a
table of one layer is read and one of two is refused, and so is a list of two levels. -/
theorem admits_counts_oneOfEach :
    (∃ error, Property.readAll oneOfEach LayerProperties.apply {}
        (StoredRecord.listBytes oneRecord).toArray ⟨0, 3⟩ = .error error ∧
      error.errorClass = .corrupt) ∧
    (Property.readAll oneOfEach LayerProperties.apply {}).Takes
      (StoredRecord.listBytes []).toArray 3 0 8 {} ∧
    (readLayerTable oneOfEach 1 []).Takes
      (Layout.offset 11 (2 ^ 40) ++ Layout.offset 11 0).toArray 11 0 16 [2 ^ 40] ∧
    (∃ error, readLayerTable oneOfEach 1 []
        (Layout.offset 3 5 ++ Layout.offset 3 9 ++ Layout.offset 3 0).toArray ⟨0, 3⟩ =
      .error error ∧ error.errorClass = .corrupt) ∧
    ∃ error, readHierarchy 1 1 .mask .rle oneOfEach Reader.bytesPadded
        (twoLevels.head 3 1).toArray ⟨0, 3⟩ = .error error ∧ error.errorClass = .corrupt := by
  have hfailure : ∀ property ∈ StoredRecord.properties oneRecord, ∀ state,
      (LayerProperties.apply property state).failure = none ∨
        (LayerProperties.apply property state).failure = some .truncated := by
    intro property hproperty state
    cases List.mem_singleton.mp hproperty
    exact Or.inl rfl
  -- A list of one record is too long, the list of no record is not.
  have hfull := (oneOfEach.admits_counts _ 3 0).1 _ LayerProperties.apply {} oneRecord (by decide)
    hfailure (by decide) (Bytes.HasAt.whole _)
  have hempty := (oneOfEach.admits_counts _ 3 0).1 _ LayerProperties.apply {} [] nofun nofun
    (by decide) (Bytes.HasAt.whole _)
  have hlayer := (oneOfEach.admits_counts _ 11 0).2.1 [2 ^ 40] (by decide) (Bytes.HasAt.whole _)
  have hlayers := (oneOfEach.admits_counts _ 3 0).2.1 [5, 9] (by decide) (Bytes.HasAt.whole _)
  have hlevels := (oneOfEach.admits_counts _ 3 0).2.2 twoLevels 1 Reader.bytesPadded .mask .rle 1 1
    (by decide) (by decide) (by decide) (Bytes.HasAt.whole _) (by decide)
  exact ⟨hfull.2 (by decide), hempty.1 (by decide), hlayer.1 (by decide), hlayers.2 (by decide),
    hlevels.2 (by decide)⟩

/-- A property list of one record is refused by a limit of one. -/
theorem Property.readAll_fullList :
    oneRecord.length ≤ oneOfEach.maxProperties ∧ (∀ record ∈ oneRecord, record.Fits oneOfEach) ∧
      readAll oneOfEach LayerProperties.apply {} (StoredRecord.listBytes oneRecord).toArray {} =
        .error (.tooManyProperties 1) := by
  refine ⟨by decide, by decide, ?_⟩
  rfl

end XcfFlatten
