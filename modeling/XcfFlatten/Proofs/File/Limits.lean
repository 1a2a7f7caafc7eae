import XcfFlatten.Proofs.File.Appended

/-!
# Limits only gate

Limits are caps on what a file may ask for. Each of them is checked somewhere between the first
property list and the last tile table, and one of them, the number of records in a property list, is
how often a loop goes round. None of them may have a say in what a file means: with wider limits, a
document is what it was.

Two runs of the decoder are compared that have nothing in common but the data (`Reader.Gated`). As
long as no limit stops the run with the narrower ones, both are in the same state; so the whole
decoder goes through record by record, with one lemma for each place where a limit is looked at.

* `Property.foldRecords_gated`, `Hierarchy.gated_skipLevels`, `gated_readLayerTable` — the loops
  that a limit ends;
* `Document.decode_of_within` — documents, and every refusal that is not for a limit.
-/

namespace XcfFlatten

/-- Limits that are within others: each cap is at most the cap there. -/
structure Limits.Within (limits wider : Limits) : Prop where
  maxDimension : limits.maxDimension ≤ wider.maxDimension
  maxPixels : limits.maxPixels ≤ wider.maxPixels
  maxPropertySize : limits.maxPropertySize ≤ wider.maxPropertySize
  maxProperties : limits.maxProperties ≤ wider.maxProperties
  maxLayers : limits.maxLayers ≤ wider.maxLayers
  maxLevels : limits.maxLevels ≤ wider.maxLevels

/-- Whether an error says that a file asks for more than a limit allows. -/
def ReadError.isLimit : ReadError → Bool
  | sizeTooLarge _ _ _ | propertyTooLarge _ _ | tooManyProperties _ | tooManyLayers _
  | tooManyLevels _ => true
  | _ => false

/-! ### Two runs side by side -/

namespace Reader

variable {α β σ : Type}

/-- The first reader does what the second one does, unless a limit stops it. -/
def Gated (x y : Reader α) : Prop :=
  ∀ data cursor, x data cursor = y data cursor ∨
    ∃ error, x data cursor = .error error ∧ error.isLimit = true

namespace Gated

variable {x y : Reader α} {f g : α → Reader β}

theorem refl (x : Reader α) : Gated x x := fun _ _ => Or.inl rfl

/-- A run that a limit stops may have gone on otherwise. -/
theorem throw {error : ReadError} (h : error.isLimit = true) (y : Reader α) :
    Gated (throw error) y := fun _ _ => Or.inr ⟨error, rfl, h⟩

/-- What an error keeps from running is not looked at. -/
theorem throw_bind (error : ReadError) (f g : α → Reader β) :
    Gated (MonadExcept.throw error >>= f) (MonadExcept.throw error >>= g) := fun _ _ => Or.inl rfl

/-- Both runs go on from the same state, or the first has been stopped. -/
theorem bind (hx : Gated x y) (hf : ∀ a, Gated (f a) (g a)) : Gated (x >>= f) (y >>= g) := by
  intro data cursor
  rw [bind_apply, bind_apply]
  rcases hx data cursor with heq | ⟨error, hstop, hlimit⟩
  · rw [heq]
    cases y data cursor with
    | error error => exact Or.inl rfl
    | ok p => exact hf p.1 data p.2
  · rw [hstop]
    exact Or.inr ⟨error, rfl, hlimit⟩

/-- Where no limit is looked at, only what follows has to be compared. -/
theorem bind_right (x : Reader α) (hf : ∀ a, Gated (f a) (g a)) : Gated (x >>= f) (x >>= g) :=
  (refl x).bind hf

/-- Both runs take the same branch. -/
theorem ite {c : Prop} [Decidable c] {x' y' : Reader α} (hx : Gated x y) (hy : Gated x' y') :
    Gated (if c then x else x') (if c then y else y') := by
  split
  · exact hx
  · exact hy

/-- A check that refuses less with the wider limits. -/
theorem check {c d : Prop} [Decidable c] [Decidable d] (hdc : d → c) {error error' : ReadError}
    (herror : error.isLimit = true) {k k' : PUnit → Reader α} (hx : Gated x y) :
    Gated (if c then MonadExcept.throw error >>= k else x)
      (if d then MonadExcept.throw error' >>= k' else y) := by
  by_cases hc : c
  · rw [if_pos hc]
    exact fun _ _ => Or.inr ⟨error, rfl, herror⟩
  · rw [if_neg hc, if_neg fun hd => hc (hdc hd)]
    exact hx

/-- Loops over the same list are compared round by round. -/
theorem foldlM {f g : σ → β → Reader σ} (hf : ∀ s b, Gated (f s b) (g s b)) (list : List β)
    (s : σ) : Gated (list.foldlM f s) (list.foldlM g s) := by
  induction list generalizing s with
  | nil => exact refl _
  | cons b list ih =>
    rw [List.foldlM_cons, List.foldlM_cons]
    exact (hf s b).bind fun s => ih s

/-- What is parsed to the end without a limit in the way is parsed alike. -/
theorem parse (h : Gated x y) (data : Bytes) :
    x.parse data = y.parse data ∨ ∃ error, x.parse data = .error error ∧ error.isLimit = true := by
  rcases h data {} with heq | ⟨error, hstop, hlimit⟩
  · rw [Reader.parse, Reader.parse, heq]
    exact Or.inl rfl
  · exact Or.inr ⟨error, parse_eq_error_iff.mpr hstop, hlimit⟩

end Gated

end Reader

section Limits

variable {limits wider : Limits} (h : limits.Within wider)
include h

/-! ### Sizes -/

/-- A size that is let through is let through with wider limits. -/
theorem Limits.Within.gated_checkSize (what : String) (width height : Nat) :
    Reader.Gated (liftM (limits.checkSize what width height))
      (liftM (wider.checkSize what width height)) := by
  have hdimension := h.maxDimension
  have hpixels := h.maxPixels
  unfold Limits.checkSize
  -- Either the narrower limits refuse the size, or none of its numbers is above the wider ones.
  by_cases hrefused : limits.maxDimension < width ∨ limits.maxDimension < height ∨
      limits.maxPixels < width * height
  · rw [if_pos hrefused]
    exact Reader.Gated.throw rfl _
  · rw [if_neg hrefused, if_neg (by omega)]
    exact Reader.Gated.refl _

/-! ### Property lists -/

namespace Property

/-- One record looks at one limit at most. -/
theorem gated_read? : Reader.Gated (read? limits) (read? wider) := by
  refine Reader.Gated.bind_right _ fun code => ?_
  -- The size of a payload is capped where it is taken at its word.
  split
  · exact Reader.Gated.refl _
  · exact Reader.Gated.refl _
  · exact Reader.Gated.refl _
  · refine Reader.Gated.bind_right _ fun size => ?_
    refine Reader.Gated.check (fun hsize => ?_) rfl (Reader.Gated.refl _)
    exact Nat.lt_of_le_of_lt h.maxPropertySize hsize

variable {σ : Type} (apply : Property → σ → Applied σ)

/-- **Loops of records.** The loop may go round more often, but it ends at the same record. -/
theorem foldRecords_gated (data : Bytes) {remaining more : Nat} (hmore : remaining ≤ more)
    (cursor : Cursor) (state : σ) :
    foldRecords limits apply data remaining cursor state =
        foldRecords wider apply data more cursor state ∨
      ∃ error, (foldRecords limits apply data remaining cursor state).2 = .error error ∧
        error.isLimit = true := by
  -- By induction on the rounds of the narrower loop, which are the first of the wider one.
  induction remaining generalizing more cursor state with
  | zero => exact Or.inr ⟨_, rfl, rfl⟩
  | succ remaining ih =>
    obtain ⟨more, rfl⟩ := Nat.exists_eq_add_one_of_ne_zero (Nat.ne_zero_of_lt hmore)
    have hrest := ih (Nat.le_of_succ_le_succ hmore)
    rw [foldRecords, foldRecords]
    rcases gated_read? h data cursor with heq | ⟨error, hstop, hlimit⟩
    · rw [heq]
      cases read? wider data cursor with
      | error error => exact Or.inl rfl
      | ok p =>
        obtain ⟨property?, middle⟩ := p
        cases property? with
        | none => exact hrest middle state
        | some property =>
          -- What a record does to the state has nothing to do with limits.
          dsimp only
          split
          · exact Or.inl rfl
          · split
            · split
              · exact hrest middle _
              · exact Or.inl rfl
            · exact hrest middle _
    · rw [hstop]
      exact Or.inr ⟨error, rfl, hlimit⟩

/-- A property list is gated, whatever is done with its records. -/
theorem gated_readAll (state : σ) :
    Reader.Gated (readAll limits apply state) (readAll wider apply state) := by
  intro data cursor
  unfold readAll run
  -- Either both runs end alike, or a limit has stopped the narrower one.
  rcases foldRecords_gated h apply data h.maxProperties cursor state with
    heq | ⟨error, hstop, hlimit⟩
  · rw [heq]
    exact Or.inl rfl
  · refine Or.inr ⟨error, ?_, hlimit⟩
    generalize foldRecords limits apply data limits.maxProperties cursor state = result at hstop
    obtain ⟨state, outcome⟩ := result
    cases hstop
    rfl

end Property

/-! ### Tables -/

omit h in
/-- The table of layers is a loop that a limit ends, too. -/
theorem gated_readLayerTable {room more : Nat} (hmore : room ≤ more) (done : List Nat) :
    Reader.Gated (readLayerTable limits room done) (readLayerTable wider more done) := by
  induction room generalizing more done with
  | zero =>
    -- Where the narrower table is full, it has to end, however the wider one goes on.
    cases more
    all_goals
      refine Reader.Gated.bind_right _ fun offset => ?_
      exact Reader.Gated.ite (Reader.Gated.refl _) (Reader.Gated.throw rfl _)
  | succ room ih =>
    obtain ⟨more, rfl⟩ := Nat.exists_eq_add_one_of_ne_zero (Nat.ne_zero_of_lt hmore)
    refine Reader.Gated.bind_right _ fun offset => ?_
    exact Reader.Gated.ite (Reader.Gated.refl _) (ih (by omega) _)

omit h in
/-- And so is the list of levels. -/
theorem Hierarchy.gated_skipLevels {room more : Nat} (hmore : room ≤ more) :
    Reader.Gated (skipLevels limits room) (skipLevels wider more) := by
  induction room generalizing more with
  | zero =>
    -- The narrower loop is over. The list ends here, or the limit stops it.
    cases more
    all_goals
      refine Reader.Gated.bind_right _ fun offset => ?_
      exact Reader.Gated.ite (Reader.Gated.throw rfl _) (Reader.Gated.refl _)
  | succ room ih =>
    obtain ⟨more, rfl⟩ := Nat.exists_eq_add_one_of_ne_zero (Nat.ne_zero_of_lt hmore)
    refine Reader.Gated.bind_right _ fun offset => ?_
    exact Reader.Gated.ite (ih (by omega)) (Reader.Gated.refl _)

/-! ### Layers -/

variable (window : Window)

/-- Behind the list of levels no limit is looked at. -/
theorem gated_readHierarchy (width height : Nat) (content : TileContent)
    (compression : Compression) :
    Reader.Gated (readHierarchy width height content compression limits window)
      (readHierarchy width height content compression wider window) := by
  refine Reader.Gated.bind_right _ fun _ => Reader.Gated.bind_right _ fun _ => ?_
  refine Reader.Gated.bind_right _ fun channels => Reader.Gated.bind_right _ fun level => ?_
  refine Reader.Gated.ite (Reader.Gated.refl _) ?_
  have hlevels := h.maxLevels
  exact (Hierarchy.gated_skipLevels (by omega)).bind fun _ => Reader.Gated.refl _

/-- A mask has a property list and a hierarchy. -/
theorem gated_readMask (width height : Nat) (compression : Compression) :
    Reader.Gated (readMask width height compression limits window)
      (readMask width height compression wider window) := by
  refine Reader.Gated.bind_right _ fun maskWidth => Reader.Gated.bind_right _ fun maskHeight => ?_
  refine Reader.Gated.bind_right _ fun name => ?_
  refine (Property.gated_readAll h ChannelProperties.apply _).bind fun props => ?_
  refine Reader.Gated.ite (Reader.Gated.throw_bind _ _ _) ?_
  refine Reader.Gated.bind_right _ fun offset => Reader.Gated.bind_right _ fun _ => ?_
  exact (gated_readHierarchy h window _ _ .mask compression).bind fun _ => Reader.Gated.refl _

namespace LayerRecord

omit window in
/-- The record of a layer looks at limits in its property list alone. -/
theorem gated_read : Reader.Gated (read limits) (read wider) := by
  refine Reader.Gated.bind_right _ fun width => Reader.Gated.bind_right _ fun height => ?_
  refine Reader.Gated.bind_right _ fun id => ?_
  split
  · exact Reader.Gated.refl _
  · refine Reader.Gated.bind_right _ fun name => ?_
    exact (Property.gated_readAll h LayerProperties.apply _).bind fun _ => Reader.Gated.refl _

/-- Whether a mask is read is told by the record. -/
theorem gated_readMask? (record : LayerRecord) (compression : Compression) :
    Reader.Gated (record.readMask? compression limits window)
      (record.readMask? compression wider window) := by
  refine Reader.Gated.ite (Reader.Gated.refl _) ?_
  refine Reader.Gated.bind_right _ fun _ => ?_
  exact (gated_readMask h window _ _ compression).bind fun _ => Reader.Gated.refl _

/-- A layer checks its size before its pixels and its mask are read. -/
theorem gated_readLayer (record : LayerRecord) (compression : Compression) (paletteSize : Nat) :
    Reader.Gated (record.readLayer compression paletteSize limits window)
      (record.readLayer compression paletteSize wider window) := by
  refine (h.gated_checkSize _ _ _).bind fun _ => Reader.Gated.bind_right _ fun _ => ?_
  refine (gated_readHierarchy h window _ _ _ compression).bind fun tiles => ?_
  exact (gated_readMask? h window record compression).bind fun _ => Reader.Gated.refl _

end LayerRecord

/-! ### Documents -/

namespace Document

/-- Adding a layer to the canvas has nothing to do with limits. -/
theorem gated_readOnto (header : Header) (props : ImageProperties) (below : Option Canvas)
    (offset : Nat) :
    Reader.Gated (readOnto header props limits window below offset)
      (readOnto header props wider window below offset) := by
  refine Reader.Gated.bind_right _ fun _ => (LayerRecord.gated_read h).bind fun record => ?_
  refine Reader.Gated.ite ?_ (Reader.Gated.refl _)
  exact (record.gated_readLayer h window _ _).bind fun _ => Reader.Gated.refl _

/-- So the parts of a document are gated, from its header to its last layer. -/
theorem gated_read : Reader.Gated (read limits window) (read wider window) := by
  refine Reader.Gated.bind_right _ fun header => (h.gated_checkSize _ _ _).bind fun _ => ?_
  refine (Property.gated_readAll h ImageProperties.apply _).bind fun props => ?_
  refine (gated_readLayerTable h.maxLayers []).bind fun offsets => ?_
  refine (Reader.Gated.foldlM (gated_readOnto h window header props) offsets none).bind fun _ => ?_
  exact Reader.Gated.refl _

end Document

end Limits

namespace Document

/-- **Wider limits.** A file that is decoded within some limits is decoded to the same document
within wider ones. A file that is refused, but not for a limit, is refused for the same reason. So
limits decide whether a file is decoded, and never what it is decoded to. -/
theorem decode_of_within {limits wider : Limits} (h : limits.Within wider) (data : Bytes)
    (window : Window) :
    (∀ document, decode data limits window = .ok document →
      decode data wider window = .ok document) ∧
      ∀ error, decode data limits window = .error error → error.isLimit = false →
        decode data wider window = .error error := by
  -- Both runs are the same, or a limit has stopped the first, which then has neither a document nor
  -- another error.
  rcases (gated_read h window).parse data with heq | ⟨limit, hstop, hlimit⟩
  · have hsame : decode data limits window = decode data wider window := heq
    rw [hsame]
    exact ⟨fun document hdocument => hdocument, fun error herror _ => herror⟩
  · have hstop : decode data limits window = .error limit := hstop
    rw [hstop]
    constructor
    · intro document hdocument
      cases hdocument
    · rintro error herror hother
      cases herror
      rw [hlimit] at hother
      cases hother

/-- The limits that `wholeFile` just fits in. -/
def wholeFileLimits : Limits :=
  { maxDimension := 2, maxPixels := 2, maxPropertySize := 0, maxProperties := 1, maxLayers := 1,
    maxLevels := 0 }

/-- The error that a file is refused with. -/
def refusal? (data : Bytes) (limits : Limits) : Option ReadError :=
  match decode data limits with
  | .ok _ => none
  | .error error => some error

/-- A refusal that has been computed is one. -/
theorem decode_of_refusal? {data : Bytes} {limits : Limits} {error : ReadError}
    (h : refusal? data limits = some error) : decode data limits = .error error := by
  unfold refusal? at h
  split at h
  · cases h
  · next herror =>
    cases h
    exact herror

set_option maxRecDepth 10000 in
/-- `wholeFile` is decoded within these limits, and so within the usual ones. Without its pixels it
is refused within both. -/
theorem decode_wholeFile_of_within :
    (∃ document, decode wholeFile wholeFileLimits = .ok document ∧
      decode wholeFile = .ok document) ∧
      decode (wholeFile.extract 0 110) = .error .truncated := by
  have hwithin : wholeFileLimits.Within {} := by constructor <;> decide
  have hpixel : (decode wholeFile wholeFileLimits).toOption.map (fun d => d.canvas.colorAt? 1 0) =
      some (some (Rgb.gray 200).solid) := by decide +kernel
  -- The cut file is refused for its end and not for a limit.
  have hcut : decode (wholeFile.extract 0 110) wholeFileLimits = .error .truncated :=
    decode_of_refusal? (by decide +kernel)
  obtain ⟨document, hdecode, -⟩ := exists_decode hpixel
  exact ⟨⟨document, hdecode, (decode_of_within hwithin wholeFile _).1 document hdecode⟩,
    (decode_of_within hwithin _ _).2 _ hcut rfl⟩

end Document

end XcfFlatten
