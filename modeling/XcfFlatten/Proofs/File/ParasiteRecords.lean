import XcfFlatten.File.Parasite.InPlace
import XcfFlatten.File.Stored
import XcfFlatten.Proofs.File.HeaderGrammar
import XcfFlatten.Proofs.File.PropertyRecords
import XcfFlatten.Proofs.Text.Utf8

/-!
# Parasites, record by record

A payload of parasites is a sequence of records (`StoredParasite`) and whatever stands behind them,
which may end inside a further record (`Parasite.EndsInside`). A record can be taken off bytes
exactly if they begin with a complete one, and whatever bytes do not, end inside one
(`Parasite.take?_eq_some_iff`, `Parasite.take?_eq_none_iff`). So there is only one way to read a
payload, and reading it gives the records of its longest prefix that is made of complete records:

* `Parasite.parse_listBytes` — complete records are read, and what is behind them is not;
* `Parasite.Reads.isPrefix` — no other sequence of records goes on further;
* `Parasite.InPlace.parse_eq` — reading in place gives the same. It holds lengths against the whole
  payload first, but in the end nothing counts but what is left (`Parasite.InPlace.bytes_eq`).

A parasite whose name is a text without NUL is read back from the record that it is stored in
(`Parasite.Storable.parasite_stored`). `Parasite.parse_leading_records` puts all of this together.
-/

namespace XcfFlatten

/-! ### Records -/

/-- A parasite as it is stored. All bytes of the name count for its length, also those that do not
count for the name. -/
structure StoredParasite where
  name : List UInt8
  flags : UInt32
  data : List UInt8

namespace StoredParasite

/-- The record's bytes. -/
def bytes (record : StoredParasite) : List UInt8 :=
  StoredRecord.stringBytes record.name ++
    (Layout.word record.flags.toNat ++ StoredRecord.stringBytes record.data)

/-- The parasite that the record stands for. -/
def parasite (record : StoredParasite) : Parasite :=
  ⟨nameText record.name, record.flags.toNat, record.data⟩

/-- Both lengths fit in the numbers that they are stored as. -/
structure Fits (record : StoredParasite) : Prop where
  name_lt : record.name.length < 2 ^ 32
  data_lt : record.data.length < 2 ^ 32

/-- Records one after another. -/
def listBytes (records : List StoredParasite) : List UInt8 := records.flatMap bytes

/-- A record takes twelve bytes besides its name and its data. -/
theorem length_bytes (record : StoredParasite) :
    record.bytes.length = record.name.length + record.data.length + 12 := by
  unfold bytes StoredRecord.stringBytes
  simp only [List.length_append, Layout.length_word]
  omega

end StoredParasite

namespace Parasite

/-! ### What can be taken off -/

section Taking

variable {source rest : List UInt8}

/-- Bytes are taken off the front. -/
theorem takeBytes?_eq_some_iff {count : Nat} {bytes : List UInt8} :
    takeBytes? count source = some (bytes, rest) ↔
      bytes.length = count ∧ source = bytes ++ rest := by
  unfold takeBytes?
  dsimp only
  constructor
  · intro h
    split at h
    · next hlength =>
      obtain ⟨rfl, rfl⟩ := Prod.mk.inj (Option.some.inj h)
      exact ⟨hlength, (List.take_append_drop count source).symm⟩
    · cases h
  · rintro ⟨rfl, rfl⟩
    rw [List.take_left, List.drop_left, if_pos rfl]

/-- Bytes cannot be taken off if there are fewer. -/
theorem takeBytes?_eq_none_iff {count : Nat} :
    takeBytes? count source = none ↔ source.length < count := by
  unfold takeBytes?
  dsimp only
  rw [List.length_take]
  split
  · next h => exact ⟨nofun, fun hlt => by omega⟩
  · next h => exact ⟨fun _ => by omega, fun _ => rfl⟩

/-- A word is the number that four bytes stand for. -/
theorem takeWord?_eq (source : List UInt8) :
    takeWord? source =
      (takeBytes? 4 source).map fun p => (Bytes.toNat p.1.toArray, p.2) := by
  match source with
  | [] | [_] | [_, _] | [_, _, _] => rfl
  | a :: b :: c :: d :: tail =>
    -- Four bytes are put together with the first one in front.
    have hbytes : takeBytes? 4 (a :: b :: c :: d :: tail) = some ([a, b, c, d], tail) :=
      takeBytes?_eq_some_iff.mpr ⟨rfl, rfl⟩
    have hnumber : Bytes.toNat [a, b, c, d].toArray =
        (((0 * 256 + a.toNat) * 256 + b.toNat) * 256 + c.toNat) * 256 + d.toNat := rfl
    rw [hbytes, Option.map_some, hnumber, Nat.zero_mul, Nat.zero_add]
    rfl

theorem takeWord?_word {n : Nat} (h : n < 2 ^ 32) (rest : List UInt8) :
    takeWord? (Layout.word n ++ rest) = some (n, rest) := by
  have hbytes : takeBytes? 4 (Layout.word n ++ rest) = some (Layout.word n, rest) :=
    takeBytes?_eq_some_iff.mpr ⟨Layout.length_word n, rfl⟩
  have hnumber : Bytes.toNat (Layout.word n).toArray = n := Layout.toNat_number h
  rw [takeWord?_eq, hbytes, Option.map_some, hnumber]

/-- What is taken off as a word stands in front, as a word of 32 bits. -/
theorem takeWord?_eq_some_iff {n : Nat} :
    takeWord? source = some (n, rest) ↔ n < 2 ^ 32 ∧ source = Layout.word n ++ rest := by
  constructor
  · intro h
    rw [takeWord?_eq] at h
    obtain ⟨⟨part, tail⟩, hbytes, hword⟩ := Option.map_eq_some_iff.mp h
    obtain ⟨rfl, rfl⟩ := Prod.mk.inj hword
    obtain ⟨hlength, rfl⟩ := takeBytes?_eq_some_iff.mp hbytes
    obtain ⟨hpart, hlt⟩ := Layout.number_toNat part
    rw [hlength] at hpart hlt
    refine ⟨hlt, ?_⟩
    rw [Layout.word, hpart]
  · rintro ⟨hlt, rfl⟩
    exact takeWord?_word hlt rest

theorem takeWord?_eq_none_iff : takeWord? source = none ↔ source.length < 4 := by
  rw [takeWord?_eq, Option.map_eq_none_iff, takeBytes?_eq_none_iff]

/-- Bytes with their length in front are taken off together. -/
theorem takeBlob?_stringBytes {blob : List UInt8} (h : blob.length < 2 ^ 32) (rest : List UInt8) :
    takeBlob? (StoredRecord.stringBytes blob ++ rest) = some (blob, rest) := by
  rw [takeBlob?, StoredRecord.stringBytes, List.append_assoc, takeWord?_word h, Option.bind_some]
  exact takeBytes?_eq_some_iff.mpr ⟨rfl, rfl⟩

theorem takeBlob?_eq_some_iff {blob : List UInt8} :
    takeBlob? source = some (blob, rest) ↔
      blob.length < 2 ^ 32 ∧ source = StoredRecord.stringBytes blob ++ rest := by
  constructor
  · intro h
    obtain ⟨⟨n, tail⟩, hword, hbytes⟩ := Option.bind_eq_some_iff.mp h
    obtain ⟨hlt, rfl⟩ := takeWord?_eq_some_iff.mp hword
    obtain ⟨rfl, rfl⟩ := takeBytes?_eq_some_iff.mp hbytes
    exact ⟨hlt, (List.append_assoc _ _ _).symm⟩
  · rintro ⟨hlt, rfl⟩
    exact takeBlob?_stringBytes hlt rest

/-- **Complete records** are what can be taken off. -/
theorem take?_eq_some_iff {parasite : Parasite} :
    take? source = some (parasite, rest) ↔
      ∃ record : StoredParasite, record.Fits ∧ source = record.bytes ++ rest ∧
        parasite = record.parasite := by
  constructor
  · intro h
    -- Each part is taken off what the one before it left.
    obtain ⟨⟨name, behindName⟩, hname, h⟩ := Option.bind_eq_some_iff.mp h
    obtain ⟨⟨flags, behindFlags⟩, hflags, h⟩ := Option.bind_eq_some_iff.mp h
    obtain ⟨⟨data, behindData⟩, hdata, h⟩ := Option.map_eq_some_iff.mp h
    obtain ⟨rfl, rfl⟩ := Prod.mk.inj h
    obtain ⟨hnamelt, rfl⟩ := takeBlob?_eq_some_iff.mp hname
    obtain ⟨hflagslt, rfl⟩ := takeWord?_eq_some_iff.mp hflags
    obtain ⟨hdatalt, rfl⟩ := takeBlob?_eq_some_iff.mp hdata
    have hnat : (UInt32.ofNat flags).toNat = flags := UInt32.toNat_ofNat_of_lt' hflagslt
    refine ⟨⟨name, UInt32.ofNat flags, data⟩, ⟨hnamelt, hdatalt⟩, ?_, ?_⟩
    · rw [StoredParasite.bytes, hnat, List.append_assoc, List.append_assoc]
    · rw [StoredParasite.parasite, hnat]
      rfl
  · rintro ⟨record, hfits, rfl, rfl⟩
    rw [StoredParasite.bytes, List.append_assoc, List.append_assoc]
    refine Option.bind_eq_some_iff.mpr ⟨_, takeBlob?_stringBytes hfits.name_lt _, ?_⟩
    refine Option.bind_eq_some_iff.mpr ⟨_, takeWord?_word record.flags.toNat_lt _, ?_⟩
    exact Option.map_eq_some_iff.mpr ⟨_, takeBlob?_stringBytes hfits.data_lt _, rfl⟩

end Taking

/-- Where a blob ends, its bytes tell. -/
theorem stringBytes_append_inj {a b restA restB : List UInt8} (ha : a.length < 2 ^ 32)
    (hb : b.length < 2 ^ 32)
    (h : StoredRecord.stringBytes a ++ restA = StoredRecord.stringBytes b ++ restB) :
    a = b ∧ restA = restB := by
  have htake := takeBlob?_stringBytes ha restA
  rw [h, takeBlob?_stringBytes hb restB] at htake
  obtain ⟨rfl, rfl⟩ := Prod.mk.inj (Option.some.inj htake)
  exact ⟨rfl, rfl⟩

/-- And so do those of a record. -/
theorem bytes_append_inj {a b : StoredParasite} {restA restB : List UInt8} (ha : a.Fits)
    (hb : b.Fits) (h : a.bytes ++ restA = b.bytes ++ restB) : a = b ∧ restA = restB := by
  unfold StoredParasite.bytes at h
  simp only [List.append_assoc] at h
  obtain ⟨hname, h⟩ := stringBytes_append_inj ha.name_lt hb.name_lt h
  -- The flags can be taken off both in the same way.
  have htake := takeWord?_word a.flags.toNat_lt (StoredRecord.stringBytes a.data ++ restA)
  rw [h, takeWord?_word b.flags.toNat_lt] at htake
  obtain ⟨hflags, hbehind⟩ := Prod.mk.inj (Option.some.inj htake)
  obtain ⟨hdata, hrest⟩ := stringBytes_append_inj ha.data_lt hb.data_lt hbehind.symm
  obtain ⟨nameA, flagsA, dataA⟩ := a
  obtain ⟨nameB, flagsB, dataB⟩ := b
  obtain rfl : nameA = nameB := hname
  obtain rfl : flagsA = flagsB := UInt32.toNat_inj.mp hflags.symm
  obtain rfl : dataA = dataB := hdata
  exact ⟨rfl, hrest⟩

/-- Bytes that end before a record is complete: one of its numbers is missing, or the name or the
data is longer than what is left. -/
inductive EndsInside : List UInt8 → Prop where
  | nameLength {tail : List UInt8} (h : tail.length < 4) : EndsInside tail
  | name {n : Nat} {tail : List UInt8} (hn : n < 2 ^ 32) (h : tail.length < n) :
      EndsInside (Layout.word n ++ tail)
  | flags {name tail : List UInt8} (hname : name.length < 2 ^ 32) (h : tail.length < 4) :
      EndsInside (StoredRecord.stringBytes name ++ tail)
  | dataLength {name tail : List UInt8} {flags : UInt32} (hname : name.length < 2 ^ 32)
      (h : tail.length < 4) :
      EndsInside (StoredRecord.stringBytes name ++ (Layout.word flags.toNat ++ tail))
  | data {name tail : List UInt8} {flags : UInt32} {n : Nat} (hname : name.length < 2 ^ 32)
      (hn : n < 2 ^ 32) (h : tail.length < n) :
      EndsInside
        (StoredRecord.stringBytes name ++ (Layout.word flags.toNat ++ (Layout.word n ++ tail)))

/-- A blob cannot be taken off if its length is missing, or if it is longer than what is left. -/
theorem takeBlob?_eq_none_iff {source : List UInt8} :
    takeBlob? source = none ↔
      source.length < 4 ∨
        ∃ n tail, n < 2 ^ 32 ∧ tail.length < n ∧ source = Layout.word n ++ tail := by
  rw [takeBlob?, Option.bind_eq_none_iff]
  constructor
  · intro h
    cases hword : takeWord? source with
    | none => exact Or.inl (takeWord?_eq_none_iff.mp hword)
    | some p =>
      obtain ⟨hlt, hsource⟩ := takeWord?_eq_some_iff.mp hword
      exact Or.inr ⟨p.1, p.2, hlt, takeBytes?_eq_none_iff.mp (h p hword), hsource⟩
  · -- Either there is no length, or it is one of more bytes than are left.
    rintro (hshort | ⟨n, tail, hlt, hlong, rfl⟩) p hword
    · rw [takeWord?_eq_none_iff.mpr hshort] at hword
      cases hword
    · rw [takeWord?_eq_some_iff.mpr ⟨hlt, rfl⟩] at hword
      cases hword
      exact takeBytes?_eq_none_iff.mpr hlong

/-- **Incomplete records.** Where nothing can be taken off, the bytes end inside a record. -/
theorem take?_eq_none_iff {source : List UInt8} : take? source = none ↔ EndsInside source := by
  constructor
  · intro h
    -- The part that cannot be taken off is the one that is cut.
    cases hname : takeBlob? source with
    | none =>
      rcases takeBlob?_eq_none_iff.mp hname with hshort | ⟨n, tail, hlt, hlong, rfl⟩
      · exact .nameLength hshort
      · exact .name hlt hlong
    | some p =>
      obtain ⟨name, behindName⟩ := p
      obtain ⟨hnamelt, rfl⟩ := takeBlob?_eq_some_iff.mp hname
      have h := Option.bind_eq_none_iff.mp h _ hname
      cases hflags : takeWord? behindName with
      | none => exact .flags hnamelt (takeWord?_eq_none_iff.mp hflags)
      | some p =>
        obtain ⟨flags, behindFlags⟩ := p
        obtain ⟨hflagslt, rfl⟩ := takeWord?_eq_some_iff.mp hflags
        have hnat : (UInt32.ofNat flags).toNat = flags := UInt32.toNat_ofNat_of_lt' hflagslt
        have h := Option.bind_eq_none_iff.mp h _ hflags
        rw [← hnat]
        rcases takeBlob?_eq_none_iff.mp (Option.map_eq_none_iff.mp h) with
          hshort | ⟨n, tail, hlt, hlong, rfl⟩
        · exact .dataLength hnamelt hshort
        · exact .data hnamelt hlt hlong
  · -- In front of what is missing everything can be taken off, and then nothing more.
    have hnone : ∀ {name behindName : List UInt8}, name.length < 2 ^ 32 →
        ((takeWord? behindName).bind fun p => takeBlob? p.2) = none →
          take? (StoredRecord.stringBytes name ++ behindName) = none := by
      intro name behindName hname h
      rw [take?, takeBlob?_stringBytes hname, Option.bind_some]
      refine Option.bind_eq_none_iff.mpr fun p hp => ?_
      exact Option.map_eq_none_iff.mpr (Option.bind_eq_none_iff.mp h p hp)
    intro h
    cases h with
    | nameLength h =>
      exact Option.bind_eq_none_iff.mpr fun p hp => by
        rw [takeBlob?_eq_none_iff.mpr (Or.inl h)] at hp
        cases hp
    | name hn h =>
      exact Option.bind_eq_none_iff.mpr fun p hp => by
        rw [takeBlob?_eq_none_iff.mpr (Or.inr ⟨_, _, hn, h, rfl⟩)] at hp
        cases hp
    | flags hname h =>
      apply hnone hname
      rw [takeWord?_eq_none_iff.mpr h]
      rfl
    | @dataLength name tail flags hname h =>
      apply hnone hname
      rw [takeWord?_word flags.toNat_lt]
      exact takeBlob?_eq_none_iff.mpr (Or.inl h)
    | @data name tail flags n hname hn h =>
      apply hnone hname
      rw [takeWord?_word flags.toNat_lt]
      exact takeBlob?_eq_none_iff.mpr (Or.inr ⟨n, tail, hn, h, rfl⟩)

/-! ### Whole payloads -/

/-- Bytes begin with the given records, all of them complete, and end inside a further one. -/
structure Reads (payload : List UInt8) (records : List StoredParasite) (tail : List UInt8) :
    Prop where
  payload_eq : payload = StoredParasite.listBytes records ++ tail
  fits : ∀ record ∈ records, record.Fits
  endsInside : EndsInside tail

/-- A parasite that can be taken off goes in front of those already there. -/
theorem parseOnto_of_some {source rest : List UInt8} {parasite : Parasite}
    (h : take? source = some (parasite, rest)) (done : List Parasite) :
    parseOnto done source = parseOnto (parasite :: done) rest := by
  rw [parseOnto]
  split
  · next htake =>
    rw [h] at htake
    cases htake
    rfl
  · next htake =>
    rw [h] at htake
    cases htake

/-- Where no parasite can be taken off, the parsing ends. -/
theorem parseOnto_of_none {source : List UInt8} (h : take? source = none) (done : List Parasite) :
    parseOnto done source = done.reverse := by
  rw [parseOnto]
  split
  · next htake =>
    rw [h] at htake
    cases htake
  · rfl

/-- The record in front of others is taken off first. -/
theorem take?_listBytes {record : StoredParasite} (h : record.Fits)
    (records : List StoredParasite) (tail : List UInt8) :
    take? (StoredParasite.listBytes (record :: records) ++ tail) =
      some (record.parasite, StoredParasite.listBytes records ++ tail) := by
  refine take?_eq_some_iff.mpr ⟨record, h, ?_, rfl⟩
  rw [StoredParasite.listBytes, List.flatMap_cons, List.append_assoc]
  rfl

namespace Reads

variable {payload tail : List UInt8} {records : List StoredParasite}

/-- Reading gives the parasites of the complete records, behind those already there. -/
theorem parseOnto_eq (h : Reads payload records tail) (done : List Parasite) :
    parseOnto done payload = done.reverse ++ records.map StoredParasite.parasite := by
  obtain ⟨rfl, hfits, hends⟩ := h
  -- By induction on the records; behind the last of them nothing can be taken off.
  induction records generalizing done with
  | nil =>
    rw [List.map_nil, List.append_nil]
    exact parseOnto_of_none (take?_eq_none_iff.mpr hends) done
  | cons record records ih =>
    rw [parseOnto_of_some (take?_listBytes (hfits record List.mem_cons_self) _ tail),
      ih _ fun other hmem => hfits other (List.mem_cons_of_mem _ hmem), List.reverse_cons,
      List.append_assoc]
    rfl

/-- **The longest prefix.** Whatever complete records the bytes begin with, they are the first ones
of those that are read. -/
theorem isPrefix (h : Reads payload records tail) {others : List StoredParasite}
    (hothers : ∀ record ∈ others, record.Fits)
    (hbegins : StoredParasite.listBytes others <+: payload) : others <+: records := by
  obtain ⟨rfl, hfits, hends⟩ := h
  obtain ⟨rest, hrest⟩ := hbegins
  -- By induction on the given records, each of which is the next one that is read.
  induction others generalizing records with
  | nil => exact List.nil_prefix
  | cons other others ih =>
    have htake := take?_listBytes (hothers other List.mem_cons_self) others rest
    rw [hrest] at htake
    cases records with
    | nil =>
      -- Nothing can be taken off the tail.
      rw [StoredParasite.listBytes, List.flatMap_nil, List.nil_append,
        take?_eq_none_iff.mpr hends] at htake
      cases htake
    | cons record records =>
      rw [StoredParasite.listBytes, StoredParasite.listBytes, List.flatMap_cons, List.flatMap_cons,
        List.append_assoc, List.append_assoc] at hrest
      obtain ⟨rfl, hbehind⟩ := bytes_append_inj (hothers other List.mem_cons_self)
        (hfits record List.mem_cons_self) hrest
      refine (List.prefix_cons_inj other).mpr (ih ?_ ?_ hbehind)
      · exact fun other hmem => hothers other (List.mem_cons_of_mem _ hmem)
      · exact fun record hmem => hfits record (List.mem_cons_of_mem _ hmem)

end Reads

/-- All bytes are complete records and the beginning of a further one. -/
theorem exists_reads (payload : List UInt8) : ∃ records tail, Reads payload records tail := by
  -- By induction on what reading them takes off, one record after another.
  induction [], payload using parseOnto.induct with
  | case1 done source parasite rest htake ih =>
    obtain ⟨record, hfits, rfl, -⟩ := take?_eq_some_iff.mp htake
    obtain ⟨records, tail, hpayload, hall, hends⟩ := ih
    refine ⟨record :: records, tail, ?_, ?_, hends⟩
    · rw [hpayload, StoredParasite.listBytes, StoredParasite.listBytes, List.flatMap_cons,
        List.append_assoc]
    · intro other hmem
      rcases List.mem_cons.mp hmem with rfl | hmem
      · exact hfits
      · exact hall other hmem
  | case2 done source htake =>
    exact ⟨[], source, rfl, fun _ hmem => (List.not_mem_nil hmem).elim, take?_eq_none_iff.mp htake⟩

/-- Parsing gives the parasites of the complete records. -/
theorem parse_listBytes {payload : Bytes} {records : List StoredParasite} {tail : List UInt8}
    (h : Reads payload.toList records tail) :
    parse payload = records.map StoredParasite.parasite := h.parseOnto_eq []

/-! ### In place -/

namespace InPlace

/-- Holding a length against the whole payload first makes no difference: no more is ever left. -/
theorem bytes_eq (length : Nat) : bytes length = Reader.bytes length := by
  funext payload cursor
  change (if payload.size < length then throw .truncated else Reader.bytes length : Reader Bytes)
    payload cursor = _
  split
  · next hlong =>
    rw [Reader.bytes_apply, if_neg (by omega)]
    rfl
  · rfl

/-- A reader gives what an operation takes off what is left, and leaves what that leaves. Where
nothing can be taken off, it fails. -/
structure TakesOff {α : Type} (payload : Bytes) (reader : Reader α)
    (take : List UInt8 → Option (α × List UInt8)) : Prop where
  ok : ∀ {position : Nat} (version : Nat) {a : α} {rest : List UInt8}, position ≤ payload.size →
    take (payload.toList.drop position) = some (a, rest) →
      ∃ after ≤ payload.size, rest = payload.toList.drop after ∧
        reader payload ⟨position, version⟩ = .ok (a, ⟨after, version⟩)
  error : ∀ {position : Nat} (version : Nat), position ≤ payload.size →
    take (payload.toList.drop position) = none →
      ∃ error, reader payload ⟨position, version⟩ = .error error

namespace TakesOff

variable {α β : Type} {payload : Bytes}

/-- A reader that goes by the first result takes off what is left behind that. -/
theorem bind {x : Reader α} {f : α → Reader β} {take : List UInt8 → Option (α × List UInt8)}
    {next : α → List UInt8 → Option (β × List UInt8)} (hx : TakesOff payload x take)
    (hf : ∀ a, TakesOff payload (f a) (next a)) :
    TakesOff payload (x >>= f) fun source => (take source).bind fun p => next p.1 p.2 where
  ok := by
    intro position version b rest hle h
    obtain ⟨⟨a, behind⟩, ha, hb⟩ := Option.bind_eq_some_iff.mp h
    obtain ⟨middle, hmiddle, rfl, hxok⟩ := hx.ok version hle ha
    obtain ⟨after, hafter, hrest, hfok⟩ := (hf a).ok version hmiddle hb
    exact ⟨after, hafter, hrest, (Reader.bind_of_ok hxok).trans hfok⟩
  error := by
    intro position version hle h
    -- It fails where the first part cannot be taken off, or the second not behind it.
    cases ha : take (payload.toList.drop position) with
    | none =>
      obtain ⟨error, hxerror⟩ := hx.error version hle ha
      exact ⟨error, by rw [Reader.bind_apply, hxerror]; rfl⟩
    | some p =>
      obtain ⟨a, behind⟩ := p
      obtain ⟨middle, hmiddle, rfl, hxok⟩ := hx.ok version hle ha
      rw [ha, Option.bind_some] at h
      obtain ⟨error, hferror⟩ := (hf a).error version hmiddle h
      exact ⟨error, (Reader.bind_of_ok hxok).trans hferror⟩

theorem map {x : Reader α} {take : List UInt8 → Option (α × List UInt8)} (f : α → β)
    (hx : TakesOff payload x take) :
    TakesOff payload (f <$> x) fun source => (take source).map fun p => (f p.1, p.2) where
  ok := by
    intro position version b rest hle h
    obtain ⟨⟨a, behind⟩, ha, hb⟩ := Option.map_eq_some_iff.mp h
    obtain ⟨rfl, rfl⟩ := Prod.mk.inj hb
    obtain ⟨after, hafter, hrest, hxok⟩ := hx.ok version hle ha
    exact ⟨after, hafter, hrest, Reader.map_eq_ok_iff.mpr ⟨a, hxok, rfl⟩⟩
  error := by
    intro position version hle h
    obtain ⟨error, hxerror⟩ := hx.error version hle (Option.map_eq_none_iff.mp h)
    refine ⟨error, ?_⟩
    change (x >>= fun a => pure (f a)) payload _ = _
    rw [Reader.bind_apply, hxerror]
    rfl

/-- Whatever is made of the next bytes is made of those in front of what is left. -/
theorem bytes (count : Nat) (f : Bytes → α) :
    TakesOff payload (f <$> Reader.bytes count) fun source =>
      (takeBytes? count source).map fun p => (f p.1.toArray, p.2) where
  ok := by
    intro position version a rest hle h
    obtain ⟨⟨part, tail⟩, hpart, ha⟩ := Option.map_eq_some_iff.mp h
    obtain ⟨rfl, rfl⟩ := Prod.mk.inj ha
    obtain ⟨hlength, hleft⟩ := takeBytes?_eq_some_iff.mp hpart
    -- As many bytes are left as are taken off, so that the end is not passed.
    have hroom := congrArg List.length hleft
    rw [List.length_drop, Array.length_toList, List.length_append, hlength] at hroom
    have hextract : payload.extract position (position + count) = part.toArray := by
      apply Array.toList_inj.mp
      rw [Array.toList_extract, List.extract_eq_take_drop, Nat.add_sub_cancel_left, hleft,
        ← hlength, List.take_left]
    refine ⟨position + count, by omega, ?_, Reader.map_eq_ok_iff.mpr ⟨part.toArray, ?_, rfl⟩⟩
    · rw [← List.drop_drop, hleft, ← hlength, List.drop_left]
    · rw [Reader.bytes_apply, if_pos (by dsimp only; omega), hextract]
  error := by
    intro position version hle h
    have hshort := takeBytes?_eq_none_iff.mp (Option.map_eq_none_iff.mp h)
    rw [List.length_drop, Array.length_toList] at hshort
    refine ⟨.truncated, ?_⟩
    change (Reader.bytes count >>= fun part => pure (f part)) payload _ = _
    rw [Reader.bind_apply, Reader.bytes_apply, if_neg (by dsimp only; omega)]
    rfl

theorem word : TakesOff payload Reader.word takeWord? := by
  rw [show takeWord? = _ from funext takeWord?_eq]
  exact bytes 4 Bytes.toNat

theorem blob : TakesOff payload InPlace.blob takeBlob? := by
  have hbytes : ∀ count,
      TakesOff payload (Array.toList <$> InPlace.bytes count) (takeBytes? count) := by
    intro count
    -- Bytes are handed on as a list, which changes nothing about them.
    have hlist : takeBytes? count = fun source =>
        (takeBytes? count source).map fun p => (p.1.toArray.toList, p.2) :=
      funext fun _ => Option.map_id'.symm
    rw [bytes_eq, hlist]
    exact bytes count Array.toList
  have hblob := word.bind hbytes
  exact hblob

/-- **One record.** It is read in place as it is taken off. -/
theorem record : TakesOff payload InPlace.record take? := by
  have hblob : TakesOff payload InPlace.blob takeBlob? := blob
  have hrecord := hblob.bind fun name => word.bind fun flags =>
    hblob.map fun data => Parasite.mk (Utf8.decodeLossy (name.takeWhile (· != 0))) flags data
  exact hrecord

end TakesOff

/-- A record has twelve bytes at least, so the rounds suffice. -/
theorem parseFrom_eq {payload : Bytes} {rounds position : Nat} (version : Nat)
    (done : List Parasite) (hle : position ≤ payload.size)
    (hrounds : payload.size < position + 12 * rounds) :
    parseFrom payload rounds ⟨position, version⟩ done =
      some (parseOnto done (payload.toList.drop position)) := by
  -- By induction on the rounds, each of which reads a record or is the last.
  induction rounds generalizing position done with
  | zero => omega
  | succ rounds ih =>
    rw [parseFrom]
    split
    · next hend =>
      rw [List.drop_eq_nil_of_le (by rwa [Array.length_toList]), parseOnto_of_none rfl]
    cases htake : take? (payload.toList.drop position) with
    | none =>
      obtain ⟨error, herror⟩ := TakesOff.record.error version hle htake
      rw [herror, parseOnto_of_none htake]
    | some p =>
      obtain ⟨parasite, rest⟩ := p
      obtain ⟨after, hafter, rfl, hok⟩ := TakesOff.record.ok version hle htake
      obtain ⟨record, -, hleft, -⟩ := take?_eq_some_iff.mp htake
      -- What is left has become shorter by the length of the record.
      have hlength := congrArg List.length hleft
      rw [List.length_drop, Array.length_toList, List.length_append, StoredParasite.length_bytes,
        List.length_drop, Array.length_toList] at hlength
      rw [hok, parseOnto_of_some htake]
      exact ih (parasite :: done) hafter (by omega)

/-- **Reading in place** gives the parasites of the payload. -/
theorem parse_eq (payload : Bytes) :
    parse (payload.size / 12 + 1) payload = some (Parasite.parse payload) :=
  parseFrom_eq 0 [] (Nat.zero_le _) (by omega)

end InPlace

/-! ### Parasites as they are stored -/

/-- What a record can hold: a name that has no NUL, flags of 32 bits, and a name and data whose
lengths have 32 bits too, the NUL behind the name included. -/
structure Storable (parasite : Parasite) : Prop where
  nul_notMem : 0 ∉ Utf8.encode parasite.name
  name_lt : (Utf8.encode parasite.name).length + 1 < 2 ^ 32
  flags_lt : parasite.flags < 2 ^ 32
  data_lt : parasite.data.length < 2 ^ 32

/-- The record of a parasite, with a NUL behind the name. -/
def stored (parasite : Parasite) : StoredParasite :=
  ⟨Utf8.encode parasite.name ++ [0], UInt32.ofNat parasite.flags, parasite.data⟩

namespace Storable

variable {parasite : Parasite}

/-- The record of a parasite that can be stored fits in its lengths. -/
theorem fits_stored (h : parasite.Storable) : parasite.stored.Fits where
  name_lt := by
    rw [stored, List.length_append]
    exact h.name_lt
  data_lt := h.data_lt

/-- The record of a parasite that can be stored stands for that parasite. -/
theorem parasite_stored (h : parasite.Storable) : parasite.stored.parasite = parasite := by
  have hname : nameText (Utf8.encode parasite.name ++ [0]) = parasite.name := by
    -- The first NUL is the one behind the name.
    have hall : ∀ b ∈ Utf8.encode parasite.name, (b != 0) = true := by
      intro b hmem
      refine bne_iff_ne.mpr fun h0 => h.nul_notMem ?_
      rwa [← h0]
    rw [nameText, List.takeWhile_append_of_pos hall]
    exact (congrArg Utf8.decodeLossy (List.append_nil _)).trans (Utf8.decodeLossy_encode _)
  have hflags : (UInt32.ofNat parasite.flags).toNat = parasite.flags :=
    UInt32.toNat_ofNat_of_lt' h.flags_lt
  rw [stored, StoredParasite.parasite, hname, hflags]

end Storable

/-- **The leading complete records.** Parasites that are stored one after another are read back, in
order and as they were, whatever incomplete record follows. And of any payload the records of the
longest prefix are read that is made of complete ones, also when they are read in place. -/
theorem parse_leading_records :
    (∀ (parasites : List Parasite) (tail : List UInt8),
      (∀ parasite ∈ parasites, parasite.Storable) → EndsInside tail →
        parse (StoredParasite.listBytes (parasites.map stored) ++ tail).toArray = parasites) ∧
    ∀ payload : Bytes,
      InPlace.parse (payload.size / 12 + 1) payload = some (parse payload) ∧
      ∃ records tail, Reads payload.toList records tail ∧
        parse payload = records.map StoredParasite.parasite ∧
        ∀ others : List StoredParasite, (∀ record ∈ others, record.Fits) →
          StoredParasite.listBytes others <+: payload.toList → others <+: records := by
  constructor
  · intro parasites tail hstorable hends
    -- The records are complete, and the tail ends inside a further one.
    have hreads : Reads (StoredParasite.listBytes (parasites.map stored) ++ tail)
        (parasites.map stored) tail := by
      refine ⟨rfl, ?_, hends⟩
      intro record hmem
      obtain ⟨parasite, hparasite, rfl⟩ := List.mem_map.mp hmem
      exact (hstorable parasite hparasite).fits_stored
    have hback : ∀ parasite ∈ parasites, (StoredParasite.parasite ∘ stored) parasite = parasite :=
      fun parasite hmem => (hstorable parasite hmem).parasite_stored
    calc parse (StoredParasite.listBytes (parasites.map stored) ++ tail).toArray
        = (parasites.map stored).map StoredParasite.parasite := parse_listBytes hreads
      _ = parasites.map id := by rw [List.map_map, List.map_congr_left hback]; rfl
      _ = parasites := List.map_id parasites
  · intro payload
    obtain ⟨records, tail, hreads⟩ := exists_reads payload.toList
    exact ⟨InPlace.parse_eq payload, records, tail, hreads, parse_listBytes hreads,
      fun others hothers hbegins => hreads.isPrefix hothers hbegins⟩

/-- A comment and a profile, and of a third parasite the length of its name alone. -/
theorem parse_comment_profile :
    parse (StoredParasite.listBytes ([⟨"gimp-comment", 1, [104, 101, 108, 108, 111, 0]⟩,
        ⟨"icc-profile", 1, [1, 2, 3]⟩].map stored) ++ Layout.word 100).toArray =
      [⟨"gimp-comment", 1, [104, 101, 108, 108, 111, 0]⟩, ⟨"icc-profile", 1, [1, 2, 3]⟩] ∧
    ∃ records tail,
      Reads (stored ⟨"icc-profile", 1, [1, 2, 3]⟩).bytes records tail ∧
        [stored ⟨"icc-profile", 1, [1, 2, 3]⟩] <+: records := by
  have hcomment : Storable ⟨"gimp-comment", 1, [104, 101, 108, 108, 111, 0]⟩ :=
    ⟨by decide, by decide, by decide, by decide⟩
  have hprofile : Storable ⟨"icc-profile", 1, [1, 2, 3]⟩ :=
    ⟨by decide, by decide, by decide, by decide⟩
  constructor
  · -- A length of 100 with nothing behind it is the beginning of a name.
    have hends : EndsInside (Layout.word 100 ++ []) := .name (by decide) (by decide)
    refine parse_leading_records.1 _ _ ?_ hends
    exact List.forall_mem_cons.mpr ⟨hcomment, List.forall_mem_singleton.mpr hprofile⟩
  · obtain ⟨-, records, tail, hreads, -, hlongest⟩ := parse_leading_records.2
      (stored ⟨"icc-profile", 1, [1, 2, 3]⟩).bytes.toArray
    refine ⟨records, tail, hreads, hlongest _ ?_ ?_⟩
    · exact List.forall_mem_singleton.mpr hprofile.fits_stored
    · exact ⟨[], (List.append_nil _).trans (List.append_nil _)⟩

end Parasite

end XcfFlatten
