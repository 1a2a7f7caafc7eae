import XcfFlatten.Proofs.File.RunsInPlace
import XcfFlatten.Proofs.Layer.Shape

/-!
# Interleaved planes

The planes of a tile, one for each channel, are encoded one by one and stored one behind the other. A
tile has them interleaved: next to one another stand the bytes that the planes have for one pixel.

* `RunLength.Interleaved.append_plane` — a channel decoded into its places of a tile leaves the planes
  of the channels before it alone;
* `RunLength.InPlace.decodeChannels_eq` — so channel after channel the tile gets its planes, and what
  each takes off the source is where the next begins;
* `RunLength.decodeTile_interleaved` — a tile is decoded just if its source begins with encodings of its
  planes, in place or not.
-/

namespace XcfFlatten

namespace RunLength

open RunRecord (EncodesAll storedAll)

variable {count channels : Nat} {planes : List Bytes}

/-! ### Planes in a tile -/

/-- A place is that of one channel. -/
theorem channel_eq_of_place_eq {i k c d : Nat} (hc : c < channels) (hd : d < channels)
    (h : i * channels + c = k * channels + d) : c = d := by
  rw [← Nat.mul_add_mod_of_lt (a := i) hc, h, Nat.mul_add_mod_of_lt hd]

/-- The first channels of a tile of `count` pixels hold planes: the byte of a plane for a pixel is the
pixel's byte for the channel. -/
structure Interleaved (count channels : Nat) (planes : List Bytes) (tile : Bytes) : Prop where
  size_eq : tile.size = count * channels
  getElem?_eq : ∀ i < count, ∀ c < planes.length,
    tile[i * channels + c]? = planes[c]?.bind fun plane => plane[i]?

namespace Interleaved

variable {tile other : Bytes}

/-- A tile is all in its planes. -/
theorem unique (h : Interleaved count channels planes tile)
    (hother : Interleaved count channels planes other) (hlength : planes.length = channels) :
    tile = other := by
  apply Array.ext_getElem?
  intro j
  -- Every place of the tile is that of a pixel and a channel.
  by_cases hj : j < count * channels
  · have hpos : 0 < channels := Nat.pos_of_mul_pos_left (Nat.zero_lt_of_lt hj)
    have hchannel : j % channels < planes.length := by
      rw [hlength]
      exact Nat.mod_lt j hpos
    have hpixel : j / channels < count := Nat.div_lt_of_lt_mul (by rwa [Nat.mul_comm])
    rw [← Nat.div_add_mod' j channels, h.getElem?_eq _ hpixel _ hchannel,
      hother.getElem?_eq _ hpixel _ hchannel]
  · rw [Array.getElem?_eq_none (h.size_eq ▸ Nat.not_lt.mp hj),
      Array.getElem?_eq_none (hother.size_eq ▸ Nat.not_lt.mp hj)]

/-- Another channel decoded into its places leaves the planes before it alone: two channels have no
place in common. -/
theorem append_plane {after plane : Bytes} (h : Interleaved count channels planes tile)
    (hchannel : planes.length < channels) (hcount : 0 < count) (hplane : plane.size = count)
    (hspread : Spread channels plane.toList (tile.extract planes.length tile.size) after) :
    Interleaved count channels (planes ++ [plane]) (tile.extract 0 planes.length ++ after) := by
  have hle : channels ≤ count * channels := Nat.le_mul_of_pos_left channels hcount
  have hsize := h.size_eq
  have hfirst : (tile.extract 0 planes.length).size = planes.length := by
    rw [Array.size_extract]
    omega
  -- The size stays. For each pixel and each channel that is there now, two cases.
  refine ⟨?_, fun i hi c hc => ?_⟩
  · rw [Array.size_append, hfirst, hspread.size_eq, Array.size_extract]
    omega
  rw [List.length_append, List.length_singleton] at hc
  by_cases hnew : c = planes.length
  · -- The places of the channel itself.
    have hplace := hspread.getElem?_mul i (by rwa [Array.length_toList, hplane])
    rw [Array.getElem?_append_right (by omega), hfirst, hnew, Nat.add_sub_cancel, hplace,
      List.getElem?_concat_length]
    exact Array.getElem?_toList
  -- The places of a channel before it are either in the part that is put back or none of its own.
  have hold : c < planes.length := by omega
  have hplace : i * channels + c < tile.size := by
    rw [hsize, Nat.mul_comm count]
    exact Tile.place_lt (by omega) hi
  rw [List.getElem?_append_left hold, ← h.getElem?_eq i hi c hold]
  by_cases hbefore : i * channels + c < planes.length
  · rw [Array.getElem?_append_left (by rwa [hfirst]), Array.getElem?_extract, if_pos (by omega),
      Nat.zero_add]
  · have hother : ∀ k < plane.toList.length, i * channels + c - planes.length ≠ k * channels := by
      intro k _ heq
      exact hnew (channel_eq_of_place_eq (i := i) (k := k) (by omega) hchannel (by omega))
    rw [Array.getElem?_append_right (by omega), hfirst, hspread.getElem?_of_ne _ hother,
      Array.getElem?_extract, if_pos (by omega), Nat.add_sub_cancel' (by omega)]

end Interleaved

/-- Planes put next to one another are interleaved. -/
theorem interleaved_interleave (hsize : ∀ plane ∈ planes, plane.size = count) :
    Interleaved count planes.length planes (interleave count planes) := by
  refine ⟨Array.size_ofFn, fun i hi c hc => ?_⟩
  -- The quotient gives the pixel back, and the remainder the channel.
  have hplace : i * planes.length + c < count * planes.length := by
    rw [Nat.mul_comm count]
    exact Tile.place_lt hc hi
  have hdiv : (i * planes.length + c) / planes.length = i := by
    rw [Nat.mul_comm, Nat.mul_add_div (Nat.zero_lt_of_lt hc), Nat.div_eq_of_lt hc, Nat.add_zero]
  have hpixel : i < planes[c].size := by rwa [hsize _ (List.getElem_mem hc)]
  rw [interleave, Array.getElem?_ofFn, dif_pos hplace, hdiv, Nat.mul_add_mod_of_lt hc,
    List.getD_eq_getElem?_getD, List.getElem?_eq_getElem hc, Option.getD_some,
    Array.getD_eq_getD_getElem?, Option.bind_some, Array.getElem?_eq_getElem hpixel, Option.getD_some]

/-- A tile whose channels are all there is its planes put next to one another. -/
theorem Interleaved.eq_interleave {tile : Bytes} (h : Interleaved count channels planes tile)
    (hlength : planes.length = channels) (hsize : ∀ plane ∈ planes, plane.size = count) :
    tile = interleave count planes :=
  h.unique (hlength ▸ interleaved_interleave hsize) hlength

/-! ### Tiles in place -/

namespace InPlace

section Channels

variable {rounds : Nat} {source tile : Bytes} {used rest : List UInt8}

/-- A channel fits into what a tile has from the channel's first place on. -/
theorem channel_fits (hcount : 0 < count) (h : Interleaved count channels planes tile)
    (hchannel : planes.length < channels) :
    ¬ (0 < count ∧ (tile.extract planes.length tile.size).size ≤ (count - 1) * channels) := by
  have hle : channels ≤ count * channels := Nat.le_mul_of_pos_left channels hcount
  have hsize := h.size_eq
  rw [Array.size_extract, Nat.sub_one_mul]
  omega

/-- A channel is decoded like off the list of what remains of the source. -/
theorem decodeChannel_eq (hcount : 0 < count) (hwords : count * channels < UInt64.size)
    (hrounds : source.size < rounds) (h : Interleaved count channels planes tile)
    (hchannel : planes.length < channels) (hsource : source.toList = used ++ rest) :
    decodeChannel rounds source count channels tile used.length planes.length =
      match decode count rest with
      | (bytes, .ok tail) => .ok (tile.extract 0 planes.length ++
          write (tile.extract planes.length tile.size) channels bytes, source.size - tail.length)
      | (_, .error error) => .error (.data error) := by
  have hle : channels ≤ count * channels := Nat.le_mul_of_pos_left channels hcount
  have htile := h.size_eq
  have hlength : source.size = used.length + rest.length := by
    rw [← Array.length_toList, hsource, List.length_append]
  have hremains : (source.extract used.length source.size).toList = rest := by
    rw [Array.toList_extract, List.extract_eq_take_drop, hsource, List.drop_left,
      List.take_of_length_le (by omega)]
  have hsize : (source.extract used.length source.size).size = rest.length := by
    rw [← Array.length_toList, hremains]
  -- The last byte of the channel has a place that a word can hold.
  have hplace : ¬ (0 < count ∧ UInt64.size ≤ (count - 1) * channels) := by
    rw [Nat.sub_one_mul]
    omega
  rw [decodeChannel, if_pos ⟨by omega, by omega⟩, decodeInto_eq (by omega), if_neg hplace,
    decodeInto_of_room (channel_fits hcount h hchannel), hremains, hsize]
  cases hdecode : decode count rest with
  | mk bytes outcome =>
    cases outcome with
    | error error => rfl
    | ok tail =>
      obtain ⟨records, -, hsplit, -⟩ := decode_eq_ok_iff.mp hdecode
      -- The bytes that were used are those that are no longer left.
      have htail := congrArg List.length hsplit
      rw [List.length_append] at htail
      change Except.ok (_, used.length + (rest.length - tail.length)) = _
      rw [show used.length + (rest.length - tail.length) = source.size - tail.length by omega]

/-- **The channels of a tile.** Decoding one into its places leaves those before it alone, so in the end
the tile holds the planes that are decoded off a list, interleaved. -/
theorem decodeChannels_eq {left : Nat} (hcount : 0 < count) (hwords : count * channels < UInt64.size)
    (hrounds : source.size < rounds) (h : Interleaved count channels planes tile)
    (hsize : ∀ plane ∈ planes, plane.size = count) (hleft : planes.length + left = channels)
    (hsource : source.toList = used ++ rest) :
    decodeChannels rounds source count channels left planes.length tile used.length =
      ((RunLength.decodeChannels count left rest).map fun others =>
        interleave count (planes ++ others)).mapError .data := by
  -- The induction takes the next channel off the source and adds its plane to those in the tile.
  induction left generalizing planes tile used rest with
  | zero =>
    rw [decodeChannels, RunLength.decodeChannels, h.eq_interleave hleft hsize]
    change _ = Except.ok (interleave count (planes ++ []))
    rw [List.append_nil]
  | succ left ih =>
    have hchannel : planes.length < channels := by omega
    rw [decodeChannels, decodeChannel_eq hcount hwords hrounds h hchannel hsource]
    cases hdecode : decode count rest with
    | mk plane outcome =>
      cases outcome with
      | error error =>
        rw [decodeChannels_succ_of_error hdecode]
        rfl
      | ok tail =>
        -- What was taken off the source is a whole number of records.
        obtain ⟨records, ⟨hplane, -⟩, hsplit⟩ := decode_eq_ok_iff_encodes.mp hdecode
        rw [hsplit, ← List.append_assoc] at hsource
        have hposition : source.size - tail.length = (used ++ storedAll records).length := by
          rw [← Array.length_toList, hsource, List.length_append, Nat.add_sub_cancel]
        have hspread := spread_write (Nat.zero_lt_of_lt hchannel) (Nat.le_of_eq hplane)
          (channel_fits hcount h hchannel)
        have hsizes : ∀ p ∈ planes ++ [plane], p.size = count :=
          List.forall_mem_append.mpr ⟨hsize, List.forall_mem_singleton.mpr hplane⟩
        have hgo := ih (h.append_plane hchannel hcount hplane hspread) hsizes
          (by rw [List.length_append, List.length_singleton]; omega) hsource
        rw [List.length_append, List.length_singleton] at hgo
        dsimp only
        rw [hposition, hgo, decodeChannels_succ_of_ok hdecode]
        cases RunLength.decodeChannels count left tail with
        | error error => rfl
        | ok others =>
          change Except.ok (interleave count (planes ++ [plane] ++ others)) =
            Except.ok (interleave count (planes ++ (plane :: others)))
          rw [List.append_assoc, List.singleton_append]

/-- **Tiles in place.** What is left in the buffer, and how decoding ends, is what decoding from a list
gives, as long as the size of the buffer fits 64 bits. -/
theorem decodeTile_eq (hrounds : source.size < rounds) (count channels : Nat) :
    decodeTile rounds source count channels =
      if UInt64.size ≤ count * channels then .error .place
      else (RunLength.decodeTile source count channels).mapError .data := by
  rw [decodeTile]
  by_cases hwords : UInt64.size ≤ count * channels
  · rw [if_pos hwords, if_pos hwords]
  rw [if_neg hwords, if_neg hwords]
  have hblank : Interleaved count channels [] (Array.replicate (count * channels) 0) :=
    ⟨Array.size_replicate, fun _ _ _ hc => (Nat.not_lt_zero _ hc).elim⟩
  -- A tile without pixels has empty planes, and none is read.
  by_cases hcount : count = 0
  · rw [if_pos hcount, RunLength.decodeTile, hcount, decodeChannels_zero, Nat.zero_mul]
    have hempty : interleave 0 (List.replicate channels #[]) = #[] :=
      Array.eq_empty_of_size_eq_zero (Array.size_ofFn.trans (Nat.zero_mul _))
    change _ = Except.ok (interleave 0 (List.replicate channels #[]))
    rw [hempty]
    rfl
  rw [if_neg hcount]
  have hsource : source.toList = [] ++ source.toList := rfl
  exact decodeChannels_eq (Nat.pos_of_ne_zero hcount) (Nat.not_le.mp hwords) hrounds hblank
    (List.forall_mem_nil _) (Nat.zero_add channels) hsource

end Channels

end InPlace

/-! ### Tiles -/

/-- **Interleaved planes.** However the planes of a tile are encoded, one behind the other they are
decoded to the tile, whatever bytes follow; nothing else is decoded; and in place, with a round for each
byte of the source and one more for every channel, it comes to the same. -/
theorem decodeTile_interleaved (count channels : Nat) :
    (∀ (planes : List Bytes) (encodings : List (List RunRecord)) (more : List UInt8),
      planes.length = channels → EncodesAll count planes encodings →
        ∃ tile, decodeTile (encodings.flatMap storedAll ++ more).toArray count channels = .ok tile ∧
          Interleaved count channels planes tile) ∧
    (∀ source tile, decodeTile source count channels = .ok tile →
      ∃ planes encodings more, planes.length = channels ∧ EncodesAll count planes encodings ∧
        source.toList = encodings.flatMap storedAll ++ more ∧
          Interleaved count channels planes tile) ∧
    ∀ (source : Bytes) (rounds : Nat), source.size < rounds →
      InPlace.decodeTile rounds source count channels =
        if UInt64.size ≤ count * channels then .error .place
        else (decodeTile source count channels).mapError .data := by
  refine ⟨?_, ?_, fun source rounds hrounds => InPlace.decodeTile_eq hrounds count channels⟩
  · rintro planes encodings more rfl hencodes
    -- Encodings of all planes are read plane by plane, whatever comes behind them.
    have hplanes := decodeChannels_eq_ok_iff.mpr
      ⟨Eq.refl planes.length, encodings, more, hencodes, rfl⟩
    refine ⟨interleave count planes, ?_, interleaved_interleave hencodes.size_eq⟩
    rw [decodeTile, hplanes]
    rfl
  · intro source tile h
    rw [decodeTile] at h
    cases hplanes : decodeChannels count channels source.toList with
    | error error =>
      rw [hplanes] at h
      cases h
    | ok planes =>
      rw [hplanes] at h
      cases h
      obtain ⟨rfl, encodings, more, hencodes, hsource⟩ := decodeChannels_eq_ok_iff.mp hplanes
      exact ⟨planes, encodings, more, rfl, hencodes, hsource,
        interleaved_interleave hencodes.size_eq⟩

/-- A plane of one byte four times, and a plane of four bytes as they are. -/
def stridedRuns : List (List RunRecord) :=
  [[.repeated 4 10 (by decide)], [.literal [1, 2, 3, 4] (by decide)]]

/-- The two planes of `stridedRuns` are interleaved. The byte behind them is left alone. -/
theorem decodeTile_interleaved_stridedRuns :
    EncodesAll 4 [#[10, 10, 10, 10], #[1, 2, 3, 4]] stridedRuns ∧
      decodeTile #[3, 10, 252, 1, 2, 3, 4, 77] 4 2 = .ok #[10, 1, 10, 2, 10, 3, 10, 4] := by
  have hencodes : EncodesAll 4 [#[10, 10, 10, 10], #[1, 2, 3, 4]] stridedRuns := by
    refine ⟨by decide, .cons ⟨rfl, ?_⟩ (.cons ⟨rfl, ?_⟩ .nil)⟩ <;>
      · intro record h
        cases h
        exact List.cons_ne_nil _ _
  obtain ⟨hencoded, -, hplace⟩ := decodeTile_interleaved 4 2
  obtain ⟨tile, hdecode, -⟩ :=
    hencoded [#[10, 10, 10, 10], #[1, 2, 3, 4]] stridedRuns [77] rfl hencodes
  -- In place, the two channels can be followed one by one.
  have hrounds : InPlace.decodeTile 9 #[3, 10, 252, 1, 2, 3, 4, 77] 4 2 =
      .ok #[10, 1, 10, 2, 10, 3, 10, 4] := by decide +kernel
  rw [hplace _ 9 (by decide), if_neg (by decide)] at hrounds
  change decodeTile #[3, 10, 252, 1, 2, 3, 4, 77] 4 2 = .ok tile at hdecode
  rw [hdecode] at hrounds ⊢
  exact ⟨hencodes, congrArg Except.ok (Except.ok.inj hrounds)⟩

end RunLength

end XcfFlatten
