import XcfFlatten.File.RunLength

/-!
# Runs and what follows them

Decoding reads no further than it has to: bytes behind the runs that fill a tile are left alone
(`RunLength.decodeTile_append`).
-/

namespace XcfFlatten.RunLength

variable {source rest : List UInt8} {room : Nat}

/-- A length is read the same with more behind it. -/
theorem runLength_append {length n : Nat} (h : runLength length source = .ok (n, rest))
    (more : List UInt8) :
    runLength length (source ++ more) = .ok (n, rest ++ more) := by
  unfold runLength at h ⊢
  -- A length that is announced is read off the next two bytes, which have to be there.
  by_cases hescape : length = 128
  · rw [if_pos hescape] at h ⊢
    match source, h with
    | high :: low :: tail, h =>
      cases h
      rfl
  · rw [if_neg hescape] at h ⊢
    cases h
    rfl

/-- So is a run, which takes the same bytes off the source. -/
theorem nextRun_append {run : Run} (h : nextRun room source = .ok (run, rest)) (more : List UInt8) :
    nextRun room (source ++ more) = .ok (run, rest ++ more) := by
  cases source with
  | nil => cases h
  | cons control source =>
    rw [List.cons_append, nextRun]
    rw [nextRun] at h
    -- The length comes first, then the check that the run fits, and then its bytes.
    cases hlength :
        runLength (if 128 ≤ control then 256 - control.toNat else control.toNat + 1) source with
    | error error =>
      rw [hlength] at h
      cases h
    | ok p =>
      obtain ⟨length, tail⟩ := p
      rw [hlength] at h
      rw [runLength_append hlength more]
      dsimp only at h ⊢
      by_cases hroom : room < length
      · rw [if_pos hroom] at h
        cases h
      · rw [if_neg hroom] at h ⊢
        -- A literal run needs all of its bytes, so they come before anything that is appended.
        by_cases hliteral : 128 ≤ control
        · rw [if_pos hliteral] at h ⊢
          by_cases hcut : (tail.take length).length < length
          · rw [if_pos hcut] at h
            cases h
          · rw [if_neg hcut] at h
            have hle : length ≤ tail.length := by
              rw [List.length_take] at hcut
              omega
            cases h
            rw [List.take_append_of_le_length hle, List.drop_append_of_le_length hle, if_neg hcut]
        · rw [if_neg hliteral] at h ⊢
          -- A repeated byte is a single one.
          cases tail with
          | nil => cases h
          | cons byte tail =>
            cases h
            rfl

/-- A run that is read goes behind what there is, and leaves less room. -/
theorem decodeOnto_of_ok {run : Run} (done : Array UInt8) (hroom : room ≠ 0)
    (hnext : nextRun room source = .ok (run, rest)) :
    decodeOnto done room source =
      decodeOnto (done ++ run.bytes) (room - run.bytes.length) rest := by
  rw [decodeOnto, if_neg hroom]
  -- The recursion carries the equation of the run along, which keeps `rw` from reaching the match.
  split
  · next h =>
    rw [hnext] at h
    cases h
  · next h =>
    rw [hnext] at h
    cases h
    rfl

/-- Where no run can be read, decoding stops with what there is. -/
theorem decodeOnto_of_error {error : RunError} (done : Array UInt8) (hroom : room ≠ 0)
    (hnext : nextRun room source = .error error) :
    decodeOnto done room source = (done, .error error) := by
  rw [decodeOnto, if_neg hroom]
  split
  · next h =>
    rw [hnext] at h
    cases h
    rfl
  · next h =>
    rw [hnext] at h
    cases h

/-- Runs that fill the room are the same with more behind them. -/
theorem decodeOnto_append {done bytes : Array UInt8}
    (h : decodeOnto done room source = (bytes, .ok rest)) (more : List UInt8) :
    decodeOnto done room (source ++ more) = (bytes, .ok (rest ++ more)) := by
  -- The induction follows the runs, each of which leaves less of the source.
  induction done, room, source using decodeOnto.induct with
  | case1 done source =>
    rw [decodeOnto, if_pos rfl] at h ⊢
    cases h
    rfl
  | case2 done room source hroom error hnext =>
    rw [decodeOnto_of_error done hroom hnext] at h
    cases h
  | case3 done room source hroom run tail hnext ih =>
    rw [decodeOnto_of_ok done hroom hnext] at h
    rw [decodeOnto_of_ok done hroom (nextRun_append hnext more)]
    exact ih h

section Channels

variable {count channels : Nat}

/-- The first channel that cannot be decoded ends the tile. -/
theorem decodeChannels_succ_of_error {bytes : Bytes} {error : RunError}
    (h : decode count source = (bytes, .error error)) :
    decodeChannels count (channels + 1) source = .error error := by
  rw [decodeChannels, h]
  rfl

/-- A channel that is decoded comes before those behind it. -/
theorem decodeChannels_succ_of_ok {plane : Bytes} (h : decode count source = (plane, .ok rest)) :
    decodeChannels count (channels + 1) source =
      (decodeChannels count channels rest).map (plane :: ·) := by
  rw [decodeChannels, h]
  change (decodeChannels count channels rest).bind _ = _
  cases decodeChannels count channels rest <;> rfl

/-- Channels are the same with more behind the last of them. -/
theorem decodeChannels_append {planes : List Bytes}
    (h : decodeChannels count channels source = .ok planes) (more : List UInt8) :
    decodeChannels count channels (source ++ more) = .ok planes := by
  induction channels generalizing source planes with
  | zero => exact h
  | succ channels ih =>
    cases hdecode : decode count source with
    | mk bytes outcome =>
      cases outcome with
      | error error =>
        rw [decodeChannels_succ_of_error hdecode] at h
        cases h
      | ok rest =>
        -- The first channel leaves the same rest with more behind it; the others go on from there.
        have hmore : decode count (source ++ more) = (bytes, .ok (rest ++ more)) :=
          decodeOnto_append hdecode more
        rw [decodeChannels_succ_of_ok hdecode] at h
        rw [decodeChannels_succ_of_ok hmore]
        cases hrest : decodeChannels count channels rest with
        | error error =>
          rw [hrest] at h
          cases h
        | ok others =>
          rw [hrest] at h
          rw [ih hrest]
          exact h

end Channels

/-- **Bytes behind a tile.** They do not change what is decoded. -/
theorem decodeTile_append {source more bytes : Bytes} {count channels : Nat}
    (h : decodeTile source count channels = .ok bytes) :
    decodeTile (source ++ more) count channels = .ok bytes := by
  unfold decodeTile at h ⊢
  cases hplanes : decodeChannels count channels source.toList with
  | error error =>
    rw [hplanes] at h
    cases h
  | ok planes =>
    rw [hplanes] at h
    -- The planes are the same, and only they are put into the tile.
    rw [Array.toList_append, decodeChannels_append hplanes]
    exact h

end XcfFlatten.RunLength
