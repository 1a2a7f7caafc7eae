import Mathlib.Data.List.Forall2
import Mathlib.Tactic.Ring
import XcfFlatten.File.Layout
import XcfFlatten.Proofs.File.RunLength

/-!
# The grammar of run lengths

A channel is stored as a sequence of records, one for each run. How long a run is stands in the
control byte, or the control byte announces it and it follows in 16 bits; a run of up to 127 bytes
may be stored either way, and an announced run may be empty. So there are many ways to store a
channel.

* `RunLength.nextRun_eq_ok_iff` — the next run is read off a source just if this begins with a record
  of it, and the run fits;
* `RunLength.decodeOnto_eq_ok_iff` — runs fill the room just if the source begins with records that
  do so, the last of which is not empty (`RunRecord.Fill`);
* `RunLength.decodeInto_eq_ok_iff` — the same for a channel of a buffer, with the places where its
  bytes are written;
* `RunLength.decodeChannels_eq_ok_iff` — planes are decoded just if the source begins with encodings
  of them, one behind the other (`RunRecord.EncodesAll`);
* `RunLength.decodeTile_planes` — so is a tile, whose channels are planes (`RunRecord.Planes`).
-/

namespace XcfFlatten

/-- A run as it is stored. -/
inductive RunRecord where
  /-- A byte to be repeated, with the length in the control byte. -/
  | repeated (count : Nat) (byte : UInt8) (fits : 1 ≤ count ∧ count ≤ 127)
  /-- A byte to be repeated, with the length announced. -/
  | longRepeated (count : Nat) (byte : UInt8) (fits : count ≤ 65535)
  /-- Bytes as they are, with the length in the control byte. -/
  | literal (bytes : List UInt8) (fits : 1 ≤ bytes.length ∧ bytes.length ≤ 127)
  /-- Bytes as they are, with the length announced. -/
  | longLiteral (bytes : List UInt8) (fits : bytes.length ≤ 65535)

namespace RunRecord

/-- The run that is stored. -/
def run : RunRecord → Run
  | repeated count byte _ | longRepeated count byte _ => .repeated count byte
  | literal bytes _ | longLiteral bytes _ => .literal bytes

/-- The bytes of the run. -/
def bytes (record : RunRecord) : List UInt8 := record.run.bytes

/-- The bytes of the record. -/
def stored : RunRecord → List UInt8
  | repeated count byte _ => [UInt8.ofNat (count - 1), byte]
  | longRepeated count byte _ =>
    [127, UInt8.ofNat (count / 256), UInt8.ofNat (count % 256), byte]
  | literal bytes _ => UInt8.ofNat (256 - bytes.length) :: bytes
  | longLiteral bytes _ =>
    128 :: UInt8.ofNat (bytes.length / 256) :: UInt8.ofNat (bytes.length % 256) :: bytes

/-- What records expand to. -/
def expand (records : List RunRecord) : List UInt8 := records.flatMap bytes

/-- Records as they are stored, one behind the other. -/
def storedAll (records : List RunRecord) : List UInt8 := records.flatMap stored

/-- The records are those of a channel of `count` bytes: so long are their runs together, and the
last one is not empty. -/
structure Fill (count : Nat) (records : List RunRecord) : Prop where
  sum_eq : (records.map fun record => record.bytes.length).sum = count
  last_ne : ∀ record, records.getLast? = some record → record.bytes ≠ []

/-- The first `used` bytes of a source are the records of a channel of `count` bytes. -/
structure Begins (source : Bytes) (count used : Nat) (records : List RunRecord) : Prop where
  fill : Fill count records
  used_le : used ≤ source.size
  take_eq : source.toList.take used = storedAll records

@[simp] theorem expand_cons (record : RunRecord) (records : List RunRecord) :
    expand (record :: records) = record.bytes ++ expand records := List.flatMap_cons

@[simp] theorem storedAll_cons (record : RunRecord) (records : List RunRecord) :
    storedAll (record :: records) = record.stored ++ storedAll records := List.flatMap_cons

/-- The channels of a tile of `count` pixels, each as records of its own. -/
structure Planes (count channels : Nat) (bytes : Bytes) (planes : List (List RunRecord)) :
    Prop where
  fill : ∀ records ∈ planes, Fill count records
  expand_eq : planes.map expand = (List.range channels).map (Layout.plane bytes count channels)

theorem stored_ne_nil (record : RunRecord) : record.stored ≠ [] := by
  cases record <;> exact List.cons_ne_nil _ _

namespace Fill

variable {count : Nat} {record : RunRecord} {records : List RunRecord}

theorem nil : Fill 0 [] := ⟨rfl, fun _ h => by cases h⟩

/-- Records of a channel expand to as many bytes as the channel has. -/
theorem length_expand (h : Fill count records) : (expand records).length = count := by
  rw [expand, List.length_flatMap, h.sum_eq]

/-- There is no record of a channel without bytes. -/
theorem eq_nil (h : Fill 0 records) : records = [] := by
  by_cases hne : records = []
  · exact hne
  have hlast := h.last_ne _ (List.getLast?_eq_some_getLast hne)
  have hpos : 0 < (records.map fun record => record.bytes.length).sum :=
    List.sum_pos_iff_exists_pos_nat.mpr
      ⟨_, List.mem_map_of_mem (List.getLast_mem hne), List.length_pos_iff.mpr hlast⟩
  exact absurd h.sum_eq (Nat.ne_of_gt hpos)

/-- A channel with bytes takes some bytes. -/
theorem length_storedAll_pos (h : Fill count records) (hcount : 0 < count) :
    0 < (storedAll records).length := by
  cases records with
  | nil => exact absurd h.sum_eq (Nat.ne_of_lt hcount)
  | cons record records =>
    rw [storedAll_cons, List.length_append]
    exact Nat.add_pos_left (List.length_pos_iff.mpr record.stored_ne_nil) _

/-- A first record leaves the rest of the channel to the others. -/
theorem cons_iff : Fill count (record :: records) ↔
    (record.bytes.length ≤ count ∧ 0 < count) ∧ Fill (count - record.bytes.length) records := by
  constructor
  · intro h
    have hpos : 0 < count := Nat.pos_of_ne_zero fun hzero =>
      List.cons_ne_nil record records (eq_nil (hzero ▸ h))
    have hsum := h.sum_eq
    rw [List.map_cons, List.sum_cons] at hsum
    refine ⟨⟨by omega, hpos⟩, by omega, fun last hlast => h.last_ne last ?_⟩
    rw [List.getLast?_cons, hlast, Option.getD_some]
  · rintro ⟨⟨hle, hpos⟩, h⟩
    refine ⟨?_, fun last hlast => ?_⟩
    · rw [List.map_cons, List.sum_cons, h.sum_eq]
      omega
    · cases records with
      | nil =>
        -- The only record has all of the bytes.
        have hall : 0 = count - record.bytes.length := h.sum_eq
        cases hlast
        exact List.ne_nil_of_length_pos (Nat.lt_of_lt_of_le hpos (Nat.sub_eq_zero_iff_le.mp hall.symm))
      | cons second records =>
        rw [List.getLast?_cons_cons] at hlast
        exact h.last_ne last hlast

end Fill

/-- The records are an encoding of a plane, the last of them not empty. -/
structure Encodes (plane : Bytes) (records : List RunRecord) : Prop where
  expand_eq : expand records = plane.toList
  last_ne : ∀ record, records.getLast? = some record → record.bytes ≠ []

/-- Encodings of planes of `count` bytes. -/
structure EncodesAll (count : Nat) (planes : List Bytes) (encodings : List (List RunRecord)) :
    Prop where
  size_eq : ∀ plane ∈ planes, plane.size = count
  encodes : List.Forall₂ Encodes planes encodings

section Encodes

variable {count : Nat} {plane : Bytes} {records : List RunRecord} {planes : List Bytes}
  {encodings : List (List RunRecord)}

/-- An encoding of a plane fills a channel of as many bytes. -/
theorem Encodes.fill (h : Encodes plane records) : Fill plane.size records := by
  refine ⟨?_, h.last_ne⟩
  rw [← Array.length_toList, ← h.expand_eq, expand, List.length_flatMap]

/-- Records that fill a channel are an encoding of what they expand to. -/
theorem Fill.encodes (h : Fill count records) : Encodes (expand records).toArray records :=
  ⟨rfl, h.last_ne⟩

/-- A first plane and its encoding, in front of the others. -/
theorem encodesAll_cons :
    EncodesAll count (plane :: planes) (records :: encodings) ↔
      (plane.size = count ∧ Encodes plane records) ∧ EncodesAll count planes encodings := by
  constructor
  · rintro ⟨hsize, hencodes⟩
    obtain ⟨hfirst, hothers⟩ := List.forall₂_cons.mp hencodes
    obtain ⟨hplane, hplanes⟩ := List.forall_mem_cons.mp hsize
    exact ⟨⟨hplane, hfirst⟩, hplanes, hothers⟩
  · rintro ⟨⟨hsize, hfirst⟩, hothers⟩
    exact ⟨List.forall_mem_cons.mpr ⟨hsize, hothers.size_eq⟩, .cons hfirst hothers.encodes⟩

/-- Records that fill channels are encodings of what they expand to. -/
theorem encodesAll_expand (h : ∀ records ∈ encodings, Fill count records) :
    EncodesAll count (encodings.map fun records => (expand records).toArray) encodings := by
  refine ⟨List.forall_mem_map.mpr fun records hmem => ?_, ?_⟩
  · rw [List.size_toArray, (h records hmem).length_expand]
  · exact List.forall₂_map_left_iff.mpr
      (List.forall₂_same.mpr fun records hmem => (h records hmem).encodes)

end Encodes

namespace Planes

variable {count channels : Nat} {bytes : Bytes} {planes : List (List RunRecord)}

theorem length_eq (h : Planes count channels bytes planes) : planes.length = channels := by
  have hlength := congrArg List.length h.expand_eq
  rwa [List.length_map, List.length_map, List.length_range] at hlength

/-- The channels of the tile are the planes that are encoded. -/
theorem encodesAll (h : Planes count channels bytes planes) :
    EncodesAll count
      ((List.range channels).map fun channel =>
        (Layout.plane bytes count channels channel).toArray) planes := by
  have harrays := congrArg (List.map List.toArray) h.expand_eq
  rw [List.map_map, List.map_map] at harrays
  exact harrays ▸ encodesAll_expand h.fill

/-- A tile takes some bytes, if it has pixels and channels at all. -/
theorem length_flatMap_pos (h : Planes count channels bytes planes) (hcount : 0 < count)
    (hchannels : 0 < channels) : 0 < (planes.flatMap storedAll).length := by
  have hlength := h.length_eq
  cases planes with
  | nil => exact absurd hlength (Nat.ne_of_lt hchannels)
  | cons records planes =>
    rw [List.flatMap_cons, List.length_append]
    exact Nat.add_pos_left ((h.fill records List.mem_cons_self).length_storedAll_pos hcount) _

end Planes

end RunRecord

@[simp] theorem Layout.length_plane (bytes : Bytes) (count channels channel : Nat) :
    (plane bytes count channels channel).length = count := by
  rw [plane, List.length_map, List.length_range]

namespace RunLength

variable {source rest : List UInt8} {room : Nat}

/-! ### One run -/

/-- A length is taken as it is, or read off the next two bytes if it is announced. -/
theorem runLength_eq_ok_iff {length n : Nat} :
    runLength length source = .ok (n, rest) ↔
      length ≠ 128 ∧ n = length ∧ source = rest ∨
        length = 128 ∧ n ≤ 65535 ∧
          source = UInt8.ofNat (n / 256) :: UInt8.ofNat (n % 256) :: rest := by
  unfold runLength
  by_cases hannounced : length = 128
  · -- Announced: two bytes give the length, and the length gives the two bytes back.
    rw [if_pos hannounced]
    constructor
    · intro h
      match source, h with
      | high :: low :: tail, h =>
        cases h
        have hhigh := high.toNat_lt
        have hlow := low.toNat_lt
        have hdiv : (high.toNat * 256 + low.toNat) / 256 = high.toNat := by omega
        have hmod : (high.toNat * 256 + low.toNat) % 256 = low.toNat := by omega
        rw [hdiv, hmod, UInt8.ofNat_toNat, UInt8.ofNat_toNat]
        exact Or.inr ⟨hannounced, by omega, rfl⟩
    · rintro (⟨hne, -, -⟩ | ⟨-, hle, rfl⟩)
      · exact absurd hannounced hne
      · have hhigh : (UInt8.ofNat (n / 256)).toNat = n / 256 :=
          UInt8.toNat_ofNat_of_lt' (by simp only [UInt8.size]; omega)
        have hlow : (UInt8.ofNat (n % 256)).toNat = n % 256 :=
          UInt8.toNat_ofNat_of_lt' (by simp only [UInt8.size]; omega)
        dsimp only
        rw [hhigh, hlow, Nat.div_add_mod']
  · -- Otherwise the source is left as it is.
    rw [if_neg hannounced]
    constructor
    · intro h
      cases h
      exact Or.inl ⟨hannounced, rfl, rfl⟩
    · rintro (⟨-, rfl, rfl⟩ | ⟨heq, -, -⟩)
      · rfl
      · exact absurd heq hannounced

/-- A control byte below 128, with its length and the byte to be repeated behind it. -/
theorem nextRun_repeated {control byte : UInt8} {length : Nat} (hcontrol : ¬ 128 ≤ control)
    (hlength : runLength (control.toNat + 1) source = .ok (length, byte :: rest))
    (hroom : length ≤ room) :
    nextRun room (control :: source) = .ok (.repeated length byte, rest) := by
  rw [nextRun, if_neg hcontrol, hlength]
  dsimp only
  rw [if_neg (Nat.not_lt.mpr hroom), if_neg hcontrol]

/-- A control byte from 128 on, with its length and as many bytes behind it. -/
theorem nextRun_literal {control : UInt8} {bytes : List UInt8} (hcontrol : 128 ≤ control)
    (hlength : runLength (256 - control.toNat) source = .ok (bytes.length, bytes ++ rest))
    (hroom : bytes.length ≤ room) :
    nextRun room (control :: source) = .ok (.literal bytes, rest) := by
  rw [nextRun, if_pos hcontrol, hlength]
  dsimp only
  rw [if_neg (Nat.not_lt.mpr hroom), if_pos hcontrol, List.take_left, if_neg (Nat.lt_irrefl _),
    List.drop_left]

/-- A run is read back from its record. -/
theorem nextRun_stored (record : RunRecord) (hroom : record.bytes.length ≤ room)
    (rest : List UInt8) :
    nextRun room (record.stored ++ rest) = .ok (record.run, rest) := by
  -- In each of the four kinds the control byte says which kind it is, and the length is read back.
  -- Short runs have theirs in the control byte, which is below 128 only for a repeated byte.
  cases record with
  | repeated count byte fits =>
    have hcontrol : (UInt8.ofNat (count - 1)).toNat = count - 1 :=
      UInt8.toNat_ofNat_of_lt' (by simp only [UInt8.size]; omega)
    refine nextRun_repeated ?_ (runLength_eq_ok_iff.mpr (Or.inl ⟨?_, ?_, rfl⟩)) ?_
    · rw [UInt8.le_iff_toNat_le, hcontrol]
      change ¬ 128 ≤ count - 1
      omega
    · omega
    · omega
    · rwa [RunRecord.bytes, RunRecord.run, Run.bytes, List.length_replicate] at hroom
  | longRepeated count byte fits =>
    refine nextRun_repeated (by decide) (runLength_eq_ok_iff.mpr (Or.inr ⟨rfl, fits, rfl⟩)) ?_
    rwa [RunRecord.bytes, RunRecord.run, Run.bytes, List.length_replicate] at hroom
  | literal bytes fits =>
    have hcontrol : (UInt8.ofNat (256 - bytes.length)).toNat = 256 - bytes.length :=
      UInt8.toNat_ofNat_of_lt' (by simp only [UInt8.size]; omega)
    refine nextRun_literal ?_ (runLength_eq_ok_iff.mpr (Or.inl ⟨?_, ?_, rfl⟩)) hroom
    · rw [UInt8.le_iff_toNat_le, hcontrol]
      change 128 ≤ 256 - bytes.length
      omega
    · omega
    · omega
  | longLiteral bytes fits =>
    exact nextRun_literal (by decide) (runLength_eq_ok_iff.mpr (Or.inr ⟨rfl, fits, rfl⟩)) hroom

/-- A control byte below 128, its length and the byte behind it are the record of a repeated byte. -/
theorem exists_record_repeated {control byte : UInt8} {length : Nat} (hcontrol : ¬ 128 ≤ control)
    (hlength : runLength (control.toNat + 1) source = .ok (length, byte :: rest)) :
    ∃ record : RunRecord, record.run = .repeated length byte ∧
      control :: source = record.stored ++ rest := by
  have hlt : control.toNat < 128 :=
    Nat.not_le.mp fun hle => hcontrol (UInt8.le_iff_toNat_le.mpr hle)
  -- The length is that of the control byte, or 127 announces it.
  rcases runLength_eq_ok_iff.mp hlength with ⟨hshort, rfl, rfl⟩ | ⟨hlong, hle, rfl⟩
  · refine ⟨.repeated (control.toNat + 1) byte (by omega), rfl, ?_⟩
    rw [RunRecord.stored, Nat.add_sub_cancel, UInt8.ofNat_toNat]
    rfl
  · have hback : control = 127 := UInt8.toNat_inj.mp (by change control.toNat = 127; omega)
    refine ⟨.longRepeated length byte hle, rfl, ?_⟩
    rw [hback]
    rfl

/-- A control byte from 128 on, its length and as many bytes are the record of these bytes. -/
theorem exists_record_literal {control : UInt8} {bytes : List UInt8} (hcontrol : 128 ≤ control)
    (hlength : runLength (256 - control.toNat) source = .ok (bytes.length, bytes ++ rest)) :
    ∃ record : RunRecord, record.run = .literal bytes ∧
      control :: source = record.stored ++ rest := by
  have hle : 128 ≤ control.toNat := UInt8.le_iff_toNat_le.mp hcontrol
  have hlt := control.toNat_lt
  -- The length is that of the control byte, or 128 announces it.
  rcases runLength_eq_ok_iff.mp hlength with ⟨hshort, hlen, rfl⟩ | ⟨hlong, hlen, rfl⟩
  · have hback : UInt8.ofNat (256 - bytes.length) = control := by
      rw [hlen, show 256 - (256 - control.toNat) = control.toNat by omega, UInt8.ofNat_toNat]
    refine ⟨.literal bytes (by omega), rfl, ?_⟩
    rw [RunRecord.stored, hback]
    rfl
  · have hback : control = 128 := UInt8.toNat_inj.mp (by change control.toNat = 128; omega)
    refine ⟨.longLiteral bytes hlen, rfl, ?_⟩
    rw [hback]
    rfl

/-- What is read as a run is the record of one. -/
theorem exists_record_of_nextRun {run : Run} (h : nextRun room source = .ok (run, rest)) :
    ∃ record : RunRecord, record.run = run ∧ run.bytes.length ≤ room ∧
      source = record.stored ++ rest := by
  cases source with
  | nil => cases h
  | cons control source =>
    rw [nextRun] at h
    split at h
    · cases h
    next length tail hread =>
    by_cases hroom : room < length
    · rw [if_pos hroom] at h
      cases h
    rw [if_neg hroom] at h
    -- The run fits. The control byte says whether a single byte follows or all of them.
    by_cases hliteral : 128 ≤ control
    · rw [if_pos hliteral] at h hread
      by_cases hcut : (tail.take length).length < length
      · rw [if_pos hcut] at h
        cases h
      rw [if_neg hcut] at h
      have htake : (tail.take length).length = length := by
        rw [List.length_take] at hcut ⊢
        omega
      cases h
      -- As many bytes as the length says are there, in front of what is left.
      have hbytes : runLength (256 - control.toNat) source =
          .ok ((tail.take length).length, tail.take length ++ tail.drop length) := by
        rw [htake, List.take_append_drop, hread]
      obtain ⟨record, hrun, hstored⟩ := exists_record_literal hliteral hbytes
      exact ⟨record, hrun, htake.symm ▸ Nat.not_lt.mp hroom, hstored⟩
    · rw [if_neg hliteral] at h hread
      cases tail with
      | nil => cases h
      | cons byte tail =>
        cases h
        obtain ⟨record, hrun, hstored⟩ := exists_record_repeated hliteral hread
        refine ⟨record, hrun, ?_, hstored⟩
        rw [Run.bytes, List.length_replicate]
        exact Nat.not_lt.mp hroom

/-- **The next run.** It is read just if the source begins with a record of it, and it fits. -/
theorem nextRun_eq_ok_iff {run : Run} :
    nextRun room source = .ok (run, rest) ↔
      ∃ record : RunRecord, record.run = run ∧ run.bytes.length ≤ room ∧
        source = record.stored ++ rest := by
  refine ⟨exists_record_of_nextRun, ?_⟩
  rintro ⟨record, rfl, hroom, rfl⟩
  exact nextRun_stored record hroom rest

/-! ### Runs that fill a channel -/

/-- Records that fill the room are read one after another, and what is behind them is left. -/
theorem decodeOnto_storedAll {records : List RunRecord} (h : RunRecord.Fill room records)
    (done : Array UInt8) (rest : List UInt8) :
    decodeOnto done room (RunRecord.storedAll records ++ rest) =
      (done ++ RunRecord.expand records, .ok rest) := by
  -- Record by record, each leaves its room to the others.
  induction records generalizing done room with
  | nil =>
    have hroom : room = 0 := h.sum_eq.symm
    rw [decodeOnto, if_pos hroom]
    rfl
  | cons record records ih =>
    obtain ⟨⟨hle, hpos⟩, hrest⟩ := RunRecord.Fill.cons_iff.mp h
    have hnext := nextRun_stored record hle (RunRecord.storedAll records ++ rest)
    have hassoc : done ++ record.bytes ++ RunRecord.expand records =
        done ++ RunRecord.expand (record :: records) := by
      apply Array.toList_inj.mp
      simp only [Array.toList_appendList, RunRecord.expand_cons, List.append_assoc]
    rw [RunRecord.storedAll_cons, List.append_assoc, decodeOnto_of_ok done (Nat.ne_of_gt hpos) hnext,
      ← hassoc]
    exact ih hrest _

/-- Where the room is filled, there were records that fill it. -/
theorem exists_records_of_decodeOnto {done bytes : Array UInt8}
    (h : decodeOnto done room source = (bytes, .ok rest)) :
    ∃ records, RunRecord.Fill room records ∧ source = RunRecord.storedAll records ++ rest ∧
      bytes = done ++ RunRecord.expand records := by
  -- The induction follows the runs, each of which gives a record.
  induction done, room, source using decodeOnto.induct with
  | case1 done source =>
    rw [decodeOnto, if_pos rfl] at h
    cases h
    exact ⟨[], RunRecord.Fill.nil, rfl, Array.append_empty.symm⟩
  | case2 done room source hroom error hnext =>
    rw [decodeOnto_of_error done hroom hnext] at h
    cases h
  | case3 done room source hroom run tail hnext ih =>
    rw [decodeOnto_of_ok done hroom hnext] at h
    obtain ⟨records, hfill, htail, hbytes⟩ := ih h
    obtain ⟨record, rfl, hle, hsource⟩ := nextRun_eq_ok_iff.mp hnext
    refine ⟨record :: records, ?_, ?_, ?_⟩
    · exact RunRecord.Fill.cons_iff.mpr ⟨⟨hle, Nat.pos_of_ne_zero hroom⟩, hfill⟩
    · rw [hsource, htail, RunRecord.storedAll_cons, List.append_assoc]
    · apply Array.toList_inj.mp
      rw [hbytes]
      simp only [Array.toList_appendList, RunRecord.expand_cons, List.append_assoc]
      rfl

/-- **Runs that fill the room.** They are read just if the source begins with records of them, and
what comes behind these is left. -/
theorem decodeOnto_eq_ok_iff {done bytes : Array UInt8} :
    decodeOnto done room source = (bytes, .ok rest) ↔
      ∃ records, RunRecord.Fill room records ∧ source = RunRecord.storedAll records ++ rest ∧
        bytes = done ++ RunRecord.expand records := by
  refine ⟨exists_records_of_decodeOnto, ?_⟩
  rintro ⟨records, hfill, rfl, rfl⟩
  exact decodeOnto_storedAll hfill done rest

/-- A channel is decoded just if the source begins with its records. -/
theorem decode_eq_ok_iff {count : Nat} {bytes : Array UInt8} :
    decode count source = (bytes, .ok rest) ↔
      ∃ records, RunRecord.Fill count records ∧ source = RunRecord.storedAll records ++ rest ∧
        bytes = (RunRecord.expand records).toArray := by
  unfold decode
  rw [decodeOnto_eq_ok_iff]
  simp only [List.toArray_appendList, List.nil_append]

/-! ### Channels in a buffer -/

section Write

variable {stride : Nat} (list : List UInt8) (start : Nat) (buffer : Bytes)

/-- Bytes written from one place of a channel on leave all other places alone. -/
theorem getElem?_foldl_set_of_ne {i : Nat}
    (hi : ∀ k < list.length, i ≠ (start + k) * stride) :
    ((list.zipIdx start).foldl (fun buffer (b, k) => buffer.setIfInBounds (k * stride) b)
      buffer)[i]? = buffer[i]? := by
  induction list generalizing start buffer with
  -- The places go up in steps of the stride, from that of the first byte.
  | nil => rfl
  | cons b list ih =>
    have hhead : i ≠ start * stride := hi 0 (Nat.succ_pos _)
    rw [List.zipIdx_cons, List.foldl_cons, ih]
    · exact Array.getElem?_setIfInBounds_ne hhead.symm
    · intro k hk
      have := hi (k + 1) (Nat.succ_lt_succ hk)
      rwa [← Nat.add_assoc, Nat.add_right_comm] at this

/-- And each of them is found at its own place. -/
theorem getElem?_foldl_set (hstride : 0 < stride) {k : Nat} (hk : k < list.length)
    (hroom : (start + k) * stride < buffer.size) :
    ((list.zipIdx start).foldl (fun buffer (b, k) => buffer.setIfInBounds (k * stride) b)
      buffer)[(start + k) * stride]? = list[k]? := by
  induction list generalizing start buffer k with
  | nil => cases hk
  | cons b list ih =>
    rw [List.zipIdx_cons, List.foldl_cons]
    cases k with
    | zero =>
      -- The bytes behind the first are written to later places.
      rw [getElem?_foldl_set_of_ne]
      · rw [Nat.add_zero] at hroom ⊢
        rw [Array.getElem?_setIfInBounds_self_of_lt hroom]
        rfl
      · intro k hk heq
        have := Nat.eq_of_mul_eq_mul_right hstride heq
        omega
    | succ k =>
      rw [← Nat.add_assoc, Nat.add_right_comm] at hroom ⊢
      exact ih (start + 1) _ (Nat.lt_of_succ_lt_succ hk) (by rwa [Array.size_setIfInBounds])

end Write

/-- The bytes of a channel are written where they belong. -/
theorem getElem?_write {buffer bytes : Bytes} {stride k : Nat} (hstride : 0 < stride)
    (hk : k < bytes.size) (hroom : k * stride < buffer.size) :
    (write buffer stride bytes)[k * stride]? = bytes[k]? := by
  have h := getElem?_foldl_set bytes.toList 0 buffer hstride (k := k) hk (by rwa [Nat.zero_add])
  rwa [Nat.zero_add, Array.getElem?_toList] at h

section Buffer

variable {source buffer : Bytes} {count stride used : Nat}

/-- With places for all of them, a channel is decoded and then written. -/
theorem decodeInto_of_room (h : ¬ (0 < count ∧ buffer.size ≤ (count - 1) * stride))
    (source : Bytes) :
    decodeInto source buffer count stride =
      (write buffer stride (decode count source.toList).1,
        (decode count source.toList).2.map fun rest => source.size - rest.length) := if_neg h

/-- In particular if the place of the last byte is inside the buffer. -/
theorem decodeInto_eq (hroom : (count - 1) * stride < buffer.size) (source : Bytes) :
    decodeInto source buffer count stride =
      (write buffer stride (decode count source.toList).1,
        (decode count source.toList).2.map fun rest => source.size - rest.length) :=
  decodeInto_of_room (fun h => Nat.not_le.mpr hroom h.2) source

/-- Records at the beginning of a source are decoded. -/
theorem decodeInto_of_begins {records : List RunRecord}
    (h : RunRecord.Begins source count used records)
    (hroom : (count - 1) * stride < buffer.size) :
    decodeInto source buffer count stride =
      (write buffer stride (RunRecord.expand records).toArray, .ok used) := by
  have hsource : source.toList = RunRecord.storedAll records ++ source.toList.drop used := by
    rw [← h.take_eq, List.take_append_drop]
  -- The bytes used are those that are no longer left.
  have hused : source.size - (source.toList.drop used).length = used := by
    have hle := h.used_le
    rw [List.length_drop, Array.length_toList]
    omega
  rw [decodeInto_eq hroom, decode_eq_ok_iff.mpr ⟨records, h.fill, hsource, rfl⟩]
  change (_, Except.ok (source.size - (source.toList.drop used).length)) = _
  rw [hused]

/-- What is decoded are records at the beginning of the source. -/
theorem exists_begins_of_decodeInto (hroom : (count - 1) * stride < buffer.size)
    (h : (decodeInto source buffer count stride).2 = .ok used) :
    ∃ records, RunRecord.Begins source count used records := by
  rw [decodeInto_eq hroom] at h
  cases hdecode : decode count source.toList with
  | mk bytes outcome =>
    rw [hdecode] at h
    cases outcome with
    | error error => cases h
    | ok rest =>
      obtain ⟨records, hfill, hsource, -⟩ := decode_eq_ok_iff.mp hdecode
      have hsize : source.size = (RunRecord.storedAll records).length + rest.length := by
        rw [← Array.length_toList, hsource, List.length_append]
      -- The bytes used are those that the records take up.
      have hused : used = (RunRecord.storedAll records).length := by
        rw [← Except.ok.inj h]
        dsimp only
        omega
      refine ⟨records, hfill, by omega, ?_⟩
      rw [hused, hsource, List.take_left]

/-- The byte of a channel that is found at one of its places in the buffer. -/
theorem getElem?_write_expand {records : List RunRecord} (hfill : RunRecord.Fill count records)
    (hstride : 0 < stride) (hroom : (count - 1) * stride < buffer.size) {k : Nat} (hk : k < count) :
    (write buffer stride (RunRecord.expand records).toArray)[k * stride]? =
      (RunRecord.expand records)[k]? := by
  have hplace : k * stride ≤ (count - 1) * stride := Nat.mul_le_mul_right _ (Nat.le_sub_one_of_lt hk)
  have hlt : k < (RunRecord.expand records).toArray.size := by
    rwa [List.size_toArray, hfill.length_expand]
  rw [getElem?_write hstride hlt (Nat.lt_of_le_of_lt hplace hroom), List.getElem?_toArray]

end Buffer

/-- **Run lengths.** A channel is decoded just if its source begins with records of the channel, and
then up to their end and to what they expand to; in all other cases the data is corrupt. So every way
to split a channel into runs is decoded to the channel, whatever bytes follow. -/
theorem decodeInto_eq_ok_iff {buffer : Bytes} {count stride : Nat} (hstride : 0 < stride)
    (hroom : (count - 1) * stride < buffer.size) :
    (∀ source used, (decodeInto source buffer count stride).2 = .ok used ↔
      ∃ records, RunRecord.Begins source count used records) ∧
    (∀ source used records, RunRecord.Begins source count used records → ∀ k < count,
      (decodeInto source buffer count stride).1[k * stride]? = (RunRecord.expand records)[k]?) ∧
    (∀ source, (¬ ∃ used records, RunRecord.Begins source count used records) →
      ∃ error, (decodeInto source buffer count stride).2 = .error error ∧
        (ReadError.runs error).errorClass = .corrupt) ∧
    ∀ records, RunRecord.Fill count records → ∀ more : List UInt8, ∃ bytes,
      decodeInto (RunRecord.storedAll records ++ more).toArray buffer count stride =
          (bytes, .ok (RunRecord.storedAll records).length) ∧
        ∀ k < count, bytes[k * stride]? = (RunRecord.expand records)[k]? := by
  refine ⟨fun source used => ⟨exists_begins_of_decodeInto hroom, ?_⟩, ?_, fun source hnone => ?_, ?_⟩
  · rintro ⟨records, hbegins⟩
    -- What a source that begins with records is decoded to is known.
    rw [decodeInto_of_begins hbegins hroom]
  · intro source used records hbegins k hk
    rw [decodeInto_of_begins hbegins hroom]
    exact getElem?_write_expand hbegins.fill hstride hroom hk
  · -- Errors are all of one class. And were there a result, there would be records.
    cases houtcome : (decodeInto source buffer count stride).2 with
    | error error => exact ⟨error, rfl, rfl⟩
    | ok used =>
      obtain ⟨records, hbegins⟩ := exists_begins_of_decodeInto hroom houtcome
      exact absurd ⟨used, records, hbegins⟩ hnone
  · -- Whatever follows the records, the source begins with them.
    intro records hfill more
    have hbegins : RunRecord.Begins (RunRecord.storedAll records ++ more).toArray count
        (RunRecord.storedAll records).length records := by
      refine ⟨hfill, ?_, List.take_left⟩
      rw [List.size_toArray, List.length_append]
      exact Nat.le_add_right _ _
    refine ⟨_, decodeInto_of_begins hbegins hroom, fun k hk => ?_⟩
    exact getElem?_write_expand hfill hstride hroom hk

/-- An empty run, three bytes as they are, and a byte twice. -/
def sampleRecords : List RunRecord :=
  [.longRepeated 0 7 (by decide), .literal [1, 2, 3] (by decide), .repeated 2 9 (by decide)]

/-- The records of `sampleRecords` fill a channel of five bytes, every second byte of a buffer. A
byte behind them is left alone. -/
theorem decodeInto_sampleRecords :
    ∃ bytes, decodeInto #[127, 0, 0, 7, 253, 1, 2, 3, 1, 9, 77] (Array.replicate 9 0) 5 2 =
        (bytes, .ok 10) ∧
      bytes[0]? = some 1 ∧ bytes[4]? = some 3 ∧ bytes[8]? = some 9 := by
  have hfill : RunRecord.Fill 5 sampleRecords := ⟨rfl, fun record h => by cases h; decide⟩
  have hroom : (5 - 1) * 2 < (Array.replicate 9 (0 : UInt8)).size := by decide
  obtain ⟨-, -, -, hstored⟩ := decodeInto_eq_ok_iff (Nat.succ_pos 1) hroom
  obtain ⟨bytes, hdecode, hbytes⟩ := hstored sampleRecords hfill [77]
  exact ⟨bytes, hdecode, hbytes 0 (by decide), hbytes 2 (by decide), hbytes 4 (by decide)⟩

/-! ### Tiles -/

section Planes

open RunRecord (EncodesAll encodesAll_cons storedAll)

variable {count channels : Nat} {planes : List Bytes}

/-- A channel is decoded just if the source begins with an encoding of it. -/
theorem decode_eq_ok_iff_encodes {plane : Bytes} :
    decode count source = (plane, .ok rest) ↔
      ∃ records, (plane.size = count ∧ RunRecord.Encodes plane records) ∧
        source = storedAll records ++ rest := by
  rw [decode_eq_ok_iff]
  constructor
  · rintro ⟨records, hfill, hsource, rfl⟩
    refine ⟨records, ⟨?_, hfill.encodes⟩, hsource⟩
    rw [List.size_toArray, hfill.length_expand]
  · -- Records that encode a plane fill a channel, and what they fill it with is the plane.
    rintro ⟨records, ⟨rfl, hencodes⟩, hsource⟩
    refine ⟨records, hencodes.fill, hsource, ?_⟩
    rw [hencodes.expand_eq, Array.toArray_toList]

/-- Channels without bytes take nothing off the source. -/
theorem decodeChannels_zero (channels : Nat) (source : List UInt8) :
    decodeChannels 0 channels source = .ok (List.replicate channels #[]) := by
  induction channels with
  | zero => rfl
  | succ channels ih =>
    have hdecode : decode 0 source = (#[], .ok source) := by
      rw [decode, decodeOnto, if_pos rfl]
    rw [decodeChannels_succ_of_ok hdecode, ih]
    rfl

/-- **Planes one behind the other.** They are decoded just if the source begins with encodings of
them. -/
theorem decodeChannels_eq_ok_iff :
    decodeChannels count channels source = .ok planes ↔
      planes.length = channels ∧ ∃ encodings more, EncodesAll count planes encodings ∧
        source = encodings.flatMap storedAll ++ more := by
  -- The induction takes the first channel off the source.
  induction channels generalizing source planes with
  | zero =>
    rw [decodeChannels]
    constructor
    · intro h
      cases h
      exact ⟨rfl, [], source, ⟨fun _ hp => (List.not_mem_nil hp).elim, .nil⟩, rfl⟩
    · rintro ⟨hlength, -⟩
      rw [List.length_eq_zero_iff.mp hlength]
  | succ channels ih =>
    constructor
    · intro h
      cases hdecode : decode count source with
      | mk plane outcome =>
        cases outcome with
        | error error =>
          rw [decodeChannels_succ_of_error hdecode] at h
          cases h
        | ok rest =>
          rw [decodeChannels_succ_of_ok hdecode] at h
          cases hrest : decodeChannels count channels rest with
          | error error =>
            rw [hrest] at h
            cases h
          | ok others =>
            rw [hrest] at h
            cases h
            -- The first plane, by what is decoded first, and the others by induction.
            obtain ⟨records, hplane, hsource⟩ := decode_eq_ok_iff_encodes.mp hdecode
            obtain ⟨hlength, encodings, more, hothers, hmore⟩ := ih.mp hrest
            refine ⟨congrArg (· + 1) hlength, records :: encodings, more,
              encodesAll_cons.mpr ⟨hplane, hothers⟩, ?_⟩
            rw [hsource, hmore, List.flatMap_cons, List.append_assoc]
    · rintro ⟨hlength, encodings, more, hencodes, hsource⟩
      -- The other way round, there is a first plane with an encoding of its own.
      cases planes with
      | nil => cases hlength
      | cons plane planes =>
        cases encodings with
        | nil => cases hencodes.encodes
        | cons records encodings =>
          obtain ⟨hplane, hothers⟩ := encodesAll_cons.mp hencodes
          rw [List.flatMap_cons, List.append_assoc] at hsource
          have hdecode := decode_eq_ok_iff_encodes.mpr ⟨records, hplane, hsource⟩
          have hrest := ih.mpr ⟨Nat.succ.inj hlength, encodings, more, hothers, rfl⟩
          rw [decodeChannels_succ_of_ok hdecode, hrest]
          rfl

end Planes

/-- A tile has a plane for each channel. -/
theorem length_planes (bytes : Bytes) (count channels : Nat) :
    ((List.range channels).map fun c => (Layout.plane bytes count channels c).toArray).length =
      channels := by
  rw [List.length_map, List.length_range]

/-- Putting the bytes of each channel next to one another again undoes taking them apart. -/
theorem interleave_planes {bytes : Bytes} {count channels : Nat}
    (hsize : bytes.size = count * channels) :
    interleave count ((List.range channels).map fun c =>
      (Layout.plane bytes count channels c).toArray) = bytes := by
  apply Array.ext
  · rw [interleave, Array.size_ofFn, length_planes, hsize]
  · intro j hj hj'
    have hlt : j < count * channels := hsize ▸ hj'
    have hpos : 0 < channels := Nat.pos_of_mul_pos_left (Nat.zero_lt_of_lt hlt)
    have hchannel : j % channels < channels := Nat.mod_lt j hpos
    have hpixel : j / channels < count := Nat.div_lt_of_lt_mul (by rwa [Nat.mul_comm])
    -- The byte at a place is that of its channel, which is the remainder, for its pixel, which is
    -- the quotient.
    refine (Array.getElem_ofFn hj).trans ?_
    dsimp only
    rw [length_planes, List.getD_eq_getElem?_getD, List.getElem?_map, List.getElem?_range hchannel]
    change (Layout.plane bytes count channels (j % channels)).toArray.getD (j / channels) 0 = _
    rw [Array.getD_eq_getD_getElem?, List.getElem?_toArray, Layout.plane, List.getElem?_map,
      List.getElem?_range hpixel]
    change bytes.getD (j / channels * channels + j % channels) 0 = _
    rw [Nat.div_add_mod', Array.getD_eq_getD_getElem?, Array.getElem?_eq_getElem hj']
    rfl

/-- **Runs of a tile.** However its channels are split into runs, they are decoded to the tile's bytes,
whatever bytes follow. -/
theorem decodeTile_planes {bytes : Bytes} {count channels : Nat} {planes : List (List RunRecord)}
    (h : RunRecord.Planes count channels bytes planes) (hsize : bytes.size = count * channels)
    (more : Bytes) :
    decodeTile ((planes.flatMap RunRecord.storedAll).toArray ++ more) count channels = .ok bytes := by
  -- The source begins with encodings of the planes of the tile.
  have hchannels := decodeChannels_eq_ok_iff.mpr
    ⟨length_planes bytes count channels, planes, more.toList, h.encodesAll, rfl⟩
  rw [decodeTile, Array.toList_append, hchannels]
  exact congrArg Except.ok (interleave_planes hsize)

end RunLength

end XcfFlatten
