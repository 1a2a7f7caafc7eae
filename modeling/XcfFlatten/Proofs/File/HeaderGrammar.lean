import Mathlib.Data.List.Basic
import Mathlib.Data.List.Induction
import XcfFlatten.Proofs.File.Takes

/-!
# Which bytes are a header

The format documents two kinds of tags, `gimp xcf file` and `gimp xcf v` with three digits, each
with a NUL behind it (`Header.DocumentedTag`). More tags than these are accepted
(`Header.AcceptedTag`): the byte between the magic and the version is never looked at, and a plus
sign may take the place of the first digit.

* `Header.version?_eq_some_iff` — the versions that four bytes can name;
* `Header.documentedTag_iff` — the accepted tags that are documented;
* `Header.read_eq_ok_iff_hasAt` — a header is read exactly where it stands, and is passed over as a
  whole;
* `isXcf_eq` and `peekSize_eq` — looking at a header gives what is there, and goes back.
-/

namespace XcfFlatten

/-! ### Numbers that have been read -/

namespace Layout

/-- Bytes are the number that they stand for, in as many bytes. -/
theorem number_toNat (bytes : List UInt8) :
    number bytes.length (Bytes.toNat bytes.toArray) = bytes ∧
      Bytes.toNat bytes.toArray < 256 ^ bytes.length := by
  induction bytes using List.reverseRecOn with
  | nil => exact ⟨rfl, Nat.one_pos⟩
  | append_singleton bytes b ih =>
    obtain ⟨hbytes, hlt⟩ := ih
    -- The last byte is the remainder.
    have hb : b.toNat < 256 := b.toNat_lt
    have hhigh : (Bytes.toNat bytes.toArray * 256 + b.toNat) / 256 = Bytes.toNat bytes.toArray := by
      omega
    have hlow : UInt8.ofNat (Bytes.toNat bytes.toArray * 256 + b.toNat) = b := by
      apply UInt8.toNat_inj.mp
      rw [UInt8.toNat_ofNat']
      omega
    rw [Bytes.toNat_concat, List.length_append, List.length_singleton, number, hhigh, hlow, hbytes]
    refine ⟨rfl, ?_⟩
    rw [Nat.pow_succ]
    omega

end Layout

namespace Bytes.HasAt

variable {data : Bytes} {place : Nat} {a b : List UInt8}

/-- A part that stands right behind another one stands in a row with it. -/
theorem join (ha : data.HasAt place a) (hb : data.HasAt (place + a.length) b) :
    data.HasAt place (a ++ b) := by
  obtain ⟨before, behind, hdata, rfl⟩ := ha
  obtain ⟨through, after, hdata', hlength⟩ := hb
  have hsplit : before ++ a ++ behind = through ++ (b ++ after) := by
    rw [List.append_assoc, ← hdata, hdata']
  obtain ⟨-, hbehind⟩ := List.append_inj hsplit (by rw [List.length_append, hlength])
  exact ⟨before, after, by rw [hdata, hbehind, List.append_assoc], rfl⟩

/-- Each byte of a part is in the data. -/
theorem getElem? (h : data.HasAt place a) {i : Nat} (hi : i < a.length) :
    data[place + i]? = a[i]? := by
  obtain ⟨before, after, hdata, rfl⟩ := h
  rw [← Array.getElem?_toList, hdata, List.getElem?_append_right (Nat.le_add_right _ _),
    Nat.add_sub_cancel_left, List.getElem?_append_left hi]

end Bytes.HasAt

namespace Reader

variable {data part : Bytes} {cursor after : Cursor}

/-- Bytes are read exactly where they stand. -/
theorem bytes_eq_ok_iff {length : Nat} (hlength : 0 < length) :
    bytes length data cursor = .ok (part, after) ↔
      part.size = length ∧ data.HasAt cursor.position part.toList ∧
        after = ⟨cursor.position + length, cursor.version⟩ := by
  constructor
  · intro h
    rw [bytes_apply] at h
    split at h
    · next hroom =>
      cases h
      have hplace : cursor.position ≤ data.toList.length := by
        rw [Array.length_toList]
        omega
      -- The data is cut in front of what is read, and behind it.
      refine ⟨?_, ⟨data.toList.take cursor.position, data.toList.drop (cursor.position + length),
        ?_, List.length_take_of_le hplace⟩, rfl⟩
      · rw [Array.size_extract]
        omega
      · rw [Array.toList_extract, List.extract_eq_take_drop, Nat.add_sub_cancel_left,
          ← List.drop_drop, List.take_append_drop, List.take_append_drop]
    · cases h
  · rintro ⟨hsize, hat, rfl⟩
    have htakes := Takes.bytes hat cursor.version
    rwa [Array.length_toList, hsize] at htakes

/-- A word is read exactly where it stands. -/
theorem word_eq_ok_iff {n : Nat} :
    word data cursor = .ok (n, after) ↔
      n < 2 ^ 32 ∧ data.HasAt cursor.position (Layout.word n) ∧
        after = ⟨cursor.position + 4, cursor.version⟩ := by
  constructor
  · intro h
    -- Any four bytes are the word of the number that they stand for.
    obtain ⟨part, hpart, rfl⟩ := map_eq_ok_iff.mp h
    obtain ⟨hsize, hat, hafter⟩ := (bytes_eq_ok_iff (by decide)).mp hpart
    obtain ⟨hnumber, hlt⟩ := Layout.number_toNat part.toList
    rw [Array.length_toList, hsize] at hnumber hlt
    exact ⟨hlt, by rwa [Layout.word, hnumber], hafter⟩
  · rintro ⟨hlt, hat, rfl⟩
    exact Takes.word hat hlt

end Reader

/-! ### Colour models -/

/-- The id of a base type is its place in the list of all of them. -/
theorem BaseType.ofId?_eq_some_iff {id : Nat} {base : BaseType} :
    ofId? id = some base ↔ id = all.idxOf base := by
  have hnodup : all.Nodup := by decide
  constructor
  · intro h
    obtain ⟨hlt, rfl⟩ := List.getElem?_eq_some_iff.mp h
    exact (hnodup.idxOf_getElem id hlt).symm
  · rintro rfl
    exact List.getElem?_idxOf (by cases base <;> decide)

/-! ### Versions -/

/-- The byte of a decimal digit. -/
def Header.digit (d : Fin 10) : UInt8 := UInt8.ofNat (48 + d)

namespace Unsigned

/-- The characters that count as digits are the ten decimal ones. -/
theorem digit?_eq_some_iff {b : UInt8} {n : Nat} :
    digit? (Char.ofNat b.toNat) = some n ↔ ∃ d : Fin 10, b = Header.digit d ∧ n = d := by
  -- The table of the 256 bytes decides it.
  have hall : ∀ i < 256, digit? (Char.ofNat i) =
      if 48 ≤ i ∧ i < 58 then some (i - 48) else none := by decide +kernel
  rw [hall b.toNat b.toNat_lt]
  constructor
  · intro h
    split at h
    · next hdigit =>
      refine ⟨⟨b.toNat - 48, by omega⟩, ?_, (Option.some.inj h).symm⟩
      apply UInt8.toNat_inj.mp
      rw [Header.digit, UInt8.toNat_ofNat']
      dsimp only
      omega
    · cases h
  · rintro ⟨d, rfl, rfl⟩
    have hd : (Header.digit d).toNat = 48 + d := by
      rw [Header.digit, UInt8.toNat_ofNat']
      omega
    rw [hd, if_pos (by omega), Nat.add_sub_cancel_left]

/-- Where there is room for as many digits as there are, nothing but digits is a number. -/
theorem digits_eq_ok_iff {value n : Nat} {bytes : List UInt8}
    (hroom : (value + 1) * 10 ^ bytes.length ≤ 2 ^ 32) :
    digits value (bytes.map fun b => Char.ofNat b.toNat) = .ok n ↔
      ∃ ds : List (Fin 10), bytes = ds.map Header.digit ∧
        n = ds.foldl (fun m (d : Fin 10) => m * 10 + d.val) value := by
  -- By induction on the bytes, whatever number the digits before them have made up.
  induction bytes generalizing value with
  | nil =>
    constructor
    · intro h
      cases h
      exact ⟨[], rfl, rfl⟩
    · rintro ⟨ds, hds, hn⟩
      rw [hn, List.map_eq_nil_iff.mp hds.symm]
      rfl
  | cons b bytes ih =>
    rw [List.length_cons, Nat.pow_succ, Nat.mul_comm _ 10, ← Nat.mul_assoc] at hroom
    rw [List.map_cons, digits]
    cases hdigit : digit? (Char.ofNat b.toNat) with
    | none =>
      -- The first fault ends the number, and there are no digits with such a byte among them.
      refine ⟨nofun, ?_⟩
      rintro ⟨ds, hds, -⟩
      obtain ⟨d, ds, rfl, rfl, -⟩ := List.map_eq_cons_iff.mp hds.symm
      rw [digit?_eq_some_iff.mpr ⟨d, rfl, rfl⟩] at hdigit
      cases hdigit
    | some m =>
      obtain ⟨d, rfl, rfl⟩ := digit?_eq_some_iff.mp hdigit
      -- One more digit still leaves room for the others.
      have hnext : (value * 10 + d + 1) * 10 ^ bytes.length ≤ 2 ^ 32 :=
        (Nat.mul_le_mul_right _ (by omega : value * 10 + d + 1 ≤ (value + 1) * 10)).trans hroom
      have hlt : value * 10 + d < 0x100000000 := by
        have hone : value * 10 + d + 1 ≤ (value * 10 + d + 1) * 10 ^ bytes.length :=
          Nat.le_mul_of_pos_right _ (Nat.pow_pos (by decide))
        omega
      dsimp only
      rw [if_pos hlt, ih hnext]
      constructor
      · rintro ⟨ds, rfl, rfl⟩
        exact ⟨d :: ds, rfl, rfl⟩
      · rintro ⟨ds, hds, rfl⟩
        obtain ⟨e, ds, rfl, he, rfl⟩ := List.map_eq_cons_iff.mp hds.symm
        have hed : (some (e : Nat)) = some (d : Nat) :=
          (digit?_eq_some_iff.mpr ⟨e, he.symm, rfl⟩).symm.trans hdigit
        exact ⟨ds, rfl, by rw [List.foldl_cons, Option.some.inj hed]⟩

end Unsigned

namespace Header

/-- The number that digits stand for. -/
def value (digits : List (Fin 10)) : Nat := digits.foldl (fun m (d : Fin 10) => m * 10 + d.val) 0

/-- The four bytes that name a version. -/
inductive VersionTag : List UInt8 → Nat → Prop
  | first : VersionTag (ascii "file") 0
  | digits (ds : List (Fin 10)) (h : ds.length = 3) :
      VersionTag (ascii "v" ++ ds.map digit) (value ds)
  | plus (ds : List (Fin 10)) (h : ds.length = 2) :
      VersionTag (ascii "v+" ++ ds.map digit) (value ds)

/-- Three bytes are a number if they are digits, or a plus sign and digits. -/
theorem parse_eq_ok_iff {bytes : List UInt8} (hlength : bytes.length = 3) {n : Nat} :
    Unsigned.parse (bytes.map fun b => Char.ofNat b.toNat) = .ok n ↔
      ∃ ds : List (Fin 10), (bytes = ds.map digit ∨ bytes = 0x2b :: ds.map digit) ∧
        n = value ds := by
  have hchar : ∀ i < 256, Char.ofNat i = '+' → i = 43 := by decide +kernel
  have hdigit : ∀ d : Fin 10, digit d ≠ 0x2b := by decide
  obtain ⟨a, bytes, rfl⟩ := List.exists_cons_of_length_eq_add_one hlength
  have hrest : bytes.length = 2 := Nat.succ.inj hlength
  by_cases hplus : a = 0x2b
  · subst hplus
    -- Something follows the sign, so that it is taken off.
    obtain ⟨b, rest, rfl⟩ := List.exists_cons_of_length_eq_add_one hrest
    have hparse : Unsigned.parse ((0x2b :: b :: rest).map fun b => Char.ofNat b.toNat) =
        Unsigned.digits 0 ((b :: rest).map fun b => Char.ofNat b.toNat) := rfl
    rw [hparse, Unsigned.digits_eq_ok_iff (by rw [hrest]; decide)]
    constructor
    · rintro ⟨ds, hds, hn⟩
      exact ⟨ds, Or.inr (congrArg (List.cons 0x2b) hds), hn⟩
    · rintro ⟨ds, hds | hds, hn⟩
      · obtain ⟨d, -, -, hd, -⟩ := List.map_eq_cons_iff.mp hds.symm
        exact absurd hd (hdigit d)
      · exact ⟨ds, (List.cons.inj hds).2, hn⟩
  · -- Without a sign all three bytes have to be digits.
    have ha : Char.ofNat a.toNat ≠ '+' := by
      intro h
      exact hplus (UInt8.toNat_inj.mp (hchar a.toNat a.toNat_lt h))
    have hparse : Unsigned.parse ((a :: bytes).map fun b => Char.ofNat b.toNat) =
        Unsigned.digits 0 ((a :: bytes).map fun b => Char.ofNat b.toNat) := by
      unfold Unsigned.parse
      rw [List.map_cons]
      split
      · next h => cases h
      · next h => exact absurd (List.cons.inj h).1 ha
      · next h => exact absurd (List.cons.inj h).1 ha
      · rfl
    rw [hparse, Unsigned.digits_eq_ok_iff (by rw [hlength]; decide)]
    constructor
    · rintro ⟨ds, hds, hn⟩
      exact ⟨ds, Or.inl hds, hn⟩
    · rintro ⟨ds, hds | hds, hn⟩
      · exact ⟨ds, hds, hn⟩
      · exact absurd (List.cons.inj hds).1 hplus

/-- What stands behind a `v` is read as a number. -/
theorem version?_cons (bytes : List UInt8) :
    version? (0x76 :: bytes) =
      (Unsigned.parse (bytes.map fun b => Char.ofNat b.toNat)).toOption := by
  have hfile : 0x76 :: bytes ≠ ascii "file" := by
    intro heq
    cases (List.cons.inj heq).1
  exact if_neg hfile

/-- Four bytes name a version in one of three ways. -/
theorem version?_eq_some_iff {tag : List UInt8} (hlength : tag.length = 4) {n : Nat} :
    version? tag = some n ↔ VersionTag tag n := by
  constructor
  · intro h
    -- The name is either `file` or a `v` with three characters behind it.
    unfold version? at h
    split at h
    · next hfile =>
      cases h
      rw [hfile]
      exact .first
    · split at h
      · next digits _ =>
        have hdigits : digits.length = 3 := Nat.succ.inj hlength
        cases hparse : Unsigned.parse (digits.map fun b => Char.ofNat b.toNat) with
        | error error =>
          rw [hparse] at h
          cases h
        | ok m =>
          rw [hparse] at h
          cases h
          obtain ⟨ds, rfl | rfl, rfl⟩ := (parse_eq_ok_iff hdigits).mp hparse
          · exact .digits ds (by rwa [List.length_map] at hdigits)
          · exact .plus ds (by rwa [List.length_cons, List.length_map, Nat.succ_inj] at hdigits)
      · cases h
  · intro h
    cases h with
    | first => rfl
    | digits ds h =>
      have hparse := (parse_eq_ok_iff (by rw [List.length_map, h])).mpr ⟨ds, Or.inl rfl, rfl⟩
      exact (version?_cons _).trans (congrArg Except.toOption hparse)
    | plus ds h =>
      have hparse := (parse_eq_ok_iff (by rw [List.length_cons, List.length_map, h])).mpr
        ⟨ds, Or.inr rfl, rfl⟩
      exact (version?_cons _).trans (congrArg Except.toOption hparse)

/-! ### Tags -/

/-- The tags that the format documents, and the versions that they name. -/
inductive DocumentedTag : List UInt8 → Nat → Prop
  | first : DocumentedTag (ascii "gimp xcf file" ++ [0]) 0
  | numbered (ds : List (Fin 10)) (h : ds.length = 3) :
      DocumentedTag (ascii "gimp xcf v" ++ ds.map digit ++ [0]) (value ds)

/-- A tag: the magic, any byte, the version, and a NUL. -/
def tagBytes (gap : UInt8) (version : List UInt8) : List UInt8 := magic ++ gap :: version ++ [0]

/-- The tags that are accepted, and the versions that they name. -/
def AcceptedTag (tag : List UInt8) (version : Nat) : Prop :=
  ∃ gap name, VersionTag name version ∧ tag = tagBytes gap name

/-- A version name is four bytes long. -/
theorem VersionTag.length_eq {name : List UInt8} {version : Nat} (h : VersionTag name version) :
    name.length = 4 := by
  cases h with
  | first => rfl
  | digits ds h => rw [List.length_append, List.length_map, h]; rfl
  | plus ds h => rw [List.length_append, List.length_map, h]; rfl

/-- What is checked of a tag. -/
theorem AcceptedTag.spec {tag : List UInt8} {version : Nat} (h : AcceptedTag tag version) :
    tag.length = 14 ∧ tag.take 8 = magic ∧ tag[13]? = some 0 ∧
      version? ((tag.drop 9).take 4) = some version := by
  obtain ⟨gap, name, hname, rfl⟩ := h
  have hversion := (version?_eq_some_iff hname.length_eq).mpr hname
  match name, hname.length_eq with
  | [_, _, _, _], _ => exact ⟨rfl, rfl, rfl, hversion⟩

/-- Nothing else is checked of it. -/
theorem acceptedTag_of_spec {tag : List UInt8} {version : Nat} (hlength : tag.length = 14)
    (hmagic : tag.take 8 = magic) (hnul : tag[13]? = some 0)
    (hversion : version? ((tag.drop 9).take 4) = some version) : AcceptedTag tag version := by
  have hname : ((tag.drop 9).take 4).length = 4 := by
    rw [List.length_take, List.length_drop, hlength]
    rfl
  have hgap : 8 < tag.length := by omega
  refine ⟨tag.get ⟨8, hgap⟩, (tag.drop 9).take 4, (version?_eq_some_iff hname).mp hversion, ?_⟩
  -- The tag is put together from its four pieces again.
  have hlast : (tag.drop 9).drop 4 = [0] := by
    rw [List.drop_drop, List.drop_eq_getElem_cons (by omega), List.drop_of_length_le (by omega)]
    exact congrArg (List.cons · []) (Option.some.inj ((List.getElem?_eq_getElem _).symm.trans hnul))
  rw [tagBytes, ← hmagic, List.append_assoc, List.cons_append, ← hlast, List.take_append_drop,
    List.get_eq_getElem, ← List.drop_eq_getElem_cons hgap, List.take_append_drop]

/-- An accepted tag is documented if it has a blank in front of the version, and no plus sign. -/
theorem documentedTag_iff {tag : List UInt8} {version : Nat} :
    DocumentedTag tag version ↔
      AcceptedTag tag version ∧ tag[8]? = some 0x20 ∧ tag[10]? ≠ some 0x2b := by
  have hdigit : ∀ d : Fin 10, digit d ≠ 0x2b := by decide
  constructor
  · intro h
    cases h with
    | first => exact ⟨⟨0x20, _, .first, rfl⟩, rfl, by decide⟩
    | numbered ds h =>
      refine ⟨⟨0x20, _, .digits ds h, rfl⟩, rfl, ?_⟩
      obtain ⟨d, ds, rfl⟩ := List.exists_cons_of_length_eq_add_one h
      intro hplus
      -- Byte 10 is the first digit, and no digit is a plus sign.
      exact hdigit d (Option.some.inj hplus)
  · rintro ⟨⟨gap, name, hname, rfl⟩, hgap, hplus⟩
    have hblank : gap = 0x20 := Option.some.inj hgap
    subst hblank
    cases hname with
    | first => exact .first
    | digits ds h => exact .numbered ds h
    -- The sign stands where the documented tag has a digit.
    | plus ds h => exact absurd rfl hplus

/-! ### Headers -/

/-- Reads what stands behind the tag. -/
def readFields (version : Nat) : Reader Header := do
  let width ← Reader.word
  let height ← Reader.word
  let id ← Reader.word
  match BaseType.ofId? id with
  | none => throw (.unknownImageType id)
  | some baseType =>
    let precision ← if 4 ≤ version then some <$> Reader.word else pure none
    pure { version, width, height, baseType, precision }

/-- What stands behind the tag. -/
def fields (header : Header) : List UInt8 :=
  Layout.word header.width ++ (Layout.word header.height ++
    (Layout.word (BaseType.all.idxOf header.baseType) ++
      (header.precision.map Layout.word).getD []))

/-- What stands behind the tag can be stored: numbers have 32 bits, and there is a precision exactly
from version 4 on. -/
structure Fits (header : Header) : Prop where
  width_lt : header.width < 2 ^ 32
  height_lt : header.height < 2 ^ 32
  precision_isSome : header.precision.isSome ↔ 4 ≤ header.version
  precision_lt : ∀ precision ∈ header.precision, precision < 2 ^ 32

section

variable {data : Bytes} {cursor after : Cursor} {header : Header}

/-- A header is read where an accepted tag of a version that is understood stands, and then the rest
of it. -/
theorem read_eq_ok_iff :
    read data cursor = .ok (header, after) ↔
      ∃ tag version, AcceptedTag tag version ∧ data.HasAt cursor.position tag ∧
        version ≤ newestVersion ∧
        readFields version data ⟨cursor.position + tag.length, version⟩ = .ok (header, after) := by
  constructor
  · intro h
    obtain ⟨tag, _, hread, h⟩ := Reader.bind_eq_ok.mp h
    obtain ⟨hsize, hat, rfl⟩ := (Reader.bytes_eq_ok_iff (by decide)).mp hread
    have hlength : tag.toList.length = 14 := by rw [Array.length_toList, hsize]
    dsimp only at h
    split at h
    · cases h
    · next htagged =>
      obtain ⟨hmagic, hnul⟩ := not_or.mp htagged
      cases hversion : version? ((tag.toList.drop 9).take 4) with
      | none =>
        rw [hversion] at h
        cases h
      | some version =>
        -- The tag has passed every check that there is.
        have haccepted : AcceptedTag tag.toList version :=
          acceptedTag_of_spec hlength (not_not.mp hmagic) (not_not.mp hnul) hversion
        rw [hversion] at h
        dsimp only at h
        split at h
        · cases h
        · next hnewest =>
          refine ⟨tag.toList, version, haccepted, hat, Nat.not_lt.mp hnewest, ?_⟩
          rw [hlength]
          exact h
  · rintro ⟨tag, version, haccepted, hat, hnewest, h⟩
    obtain ⟨hlength, hmagic, hnul, hversion⟩ := haccepted.spec
    have htagged : ¬ (tag.take 8 ≠ magic ∨ tag[13]? ≠ some 0) :=
      not_or.mpr ⟨fun hne => hne hmagic, fun hne => hne hnul⟩
    -- Fourteen bytes stand there, as many as are asked for.
    have hread : (Reader.bytes _).Takes data cursor.version _ _ _ :=
      Reader.Takes.bytes hat cursor.version
    rw [hlength] at hread h
    refine Reader.bind_eq_ok.mpr ⟨_, _, hread, ?_⟩
    dsimp only
    rw [if_neg htagged, hversion]
    dsimp only
    rw [if_neg (Nat.not_lt.mpr hnewest)]
    exact h

/-- What stands behind the tag is read word by word. -/
theorem readFields_eq_ok_iff {version : Nat} :
    readFields version data cursor = .ok (header, after) ↔
      header.version = version ∧ header.Fits ∧ data.HasAt cursor.position header.fields ∧
        after = ⟨cursor.position + header.fields.length, cursor.version⟩ := by
  unfold readFields
  simp only [Reader.bind_eq_ok, Reader.word_eq_ok_iff]
  constructor
  · rintro ⟨width, _, ⟨hwidthlt, hwidth, rfl⟩, height, _, ⟨hheightlt, hheight, rfl⟩, id, _,
      ⟨-, hid, rfl⟩, h⟩
    cases hbase : BaseType.ofId? id with
    | none =>
      -- An id that is not known has no base type.
      rw [hbase] at h
      cases h
    | some baseType =>
      rw [hbase] at h
      rw [BaseType.ofId?_eq_some_iff.mp hbase] at hid
      dsimp only at h
      -- Whether one more word is read depends on the version alone.
      split at h
      · next hnew =>
        simp only [Reader.bind_eq_ok, Reader.map_eq_ok_iff, Reader.word_eq_ok_iff] at h
        obtain ⟨_, _, ⟨precision, ⟨hlt, hprecision, rfl⟩, rfl⟩, hheader⟩ := h
        cases hheader
        refine ⟨rfl, ⟨hwidthlt, hheightlt, ⟨fun _ => hnew, fun _ => rfl⟩, ?_⟩, ?_, rfl⟩
        · rintro _ ⟨⟩
          exact hlt
        · exact hwidth.join (hheight.join (hid.join hprecision))
      · next hold =>
        cases h
        refine ⟨rfl, ⟨hwidthlt, hheightlt, ⟨nofun, fun hnew => absurd hnew hold⟩, nofun⟩, ?_, rfl⟩
        exact hwidth.join (hheight.join ((List.append_nil _).symm ▸ hid))
  · -- The words stand one behind the other, and each fits.
    rintro ⟨rfl, hfits, hat, rfl⟩
    have hid : BaseType.all.idxOf header.baseType < 2 ^ 32 :=
      Nat.lt_of_le_of_lt List.idxOf_le_length (by decide)
    have hprecision := hat.right.right.right
    refine ⟨_, _, ⟨hfits.width_lt, hat.left, rfl⟩, _, _, ⟨hfits.height_lt, hat.right.left, rfl⟩,
      _, _, ⟨hid, hat.right.right.left, rfl⟩, ?_⟩
    rw [BaseType.ofId?_eq_some_iff.mpr rfl]
    dsimp only
    obtain ⟨version, width, height, baseType, precision⟩ := header
    cases precision with
    | none =>
      rw [if_neg fun hnew => Bool.false_ne_true (hfits.precision_isSome.mpr hnew)]
      rfl
    | some precision =>
      rw [if_pos (hfits.precision_isSome.mp rfl)]
      have hlt := hfits.precision_lt precision rfl
      exact ((Reader.Takes.word hprecision hlt).map some).bind (Reader.Takes.pure _)

/-- A header is read exactly where it stands, and is passed over as a whole. -/
theorem read_eq_ok_iff_hasAt :
    read data cursor = .ok (header, after) ↔
      header.version ≤ newestVersion ∧ header.Fits ∧ ∃ tag, AcceptedTag tag header.version ∧
        data.HasAt cursor.position (tag ++ header.fields) ∧
        after = ⟨cursor.position + (tag ++ header.fields).length, header.version⟩ := by
  rw [read_eq_ok_iff]
  simp only [readFields_eq_ok_iff, List.length_append, ← Nat.add_assoc]
  constructor
  · rintro ⟨tag, _, haccepted, htag, hnewest, rfl, hfits, hfields, rfl⟩
    exact ⟨hnewest, hfits, tag, haccepted, htag.join hfields, rfl⟩
  · rintro ⟨hnewest, hfits, tag, haccepted, hat, rfl⟩
    exact ⟨tag, header.version, haccepted, hat.left, hnewest, rfl, hfits, hat.right, rfl⟩

end

end Header

/-! ### Looking at the header -/

/-- A reader that is attempted always comes back, from somewhere, with what it gives. -/
theorem Reader.exists_attempt {α : Type} (reader : Reader α) (astray : Nat) (data : Bytes)
    (cursor : Cursor) :
    ∃ stop, reader.attempt astray data cursor =
      .ok ((reader data { position := cursor.position }).map Prod.fst,
        { cursor with position := stop }) := by
  unfold attempt
  cases reader data { position := cursor.position } with
  | ok p => exact ⟨p.2.position, rfl⟩
  | error error => exact ⟨astray, rfl⟩

/-- What is said about a file depends on the first bytes only, and there may be too few of them. -/
theorem isXcf_eq (data : Bytes) (cursor : Cursor) :
    isXcf data cursor =
      .ok ((data.extract cursor.position (cursor.position + Header.magic.length)).toList ==
        Header.magic, cursor) := by
  -- The zeros that fill up the window are cut off again.
  have hfound : ∀ found padding : Bytes, (found ++ padding).toList.take found.size = found.toList := by
    intro found padding
    rw [Array.toList_append, ← Array.length_toList, List.take_left]
  show Except.ok _ = _
  rw [hfound]

/-- The probe never fails as a reading and puts the cursor back: what the header read gave, or its
error, is handed out as a value. -/
theorem peekSize_eq (data : Bytes) (cursor : Cursor) (astray : Nat) :
    peekSize data cursor astray =
      .ok ((Header.read data { position := cursor.position }).map fun (header, _) =>
        (header.width, header.height), cursor) := by
  -- Wherever a failed read left the cursor, it is sought back.
  obtain ⟨stop, hattempt⟩ := Header.read.exists_attempt astray data cursor
  unfold peekSize
  dsimp only
  rw [Reader.bind_of_ok (rfl : Reader.position data cursor = .ok (cursor.position, cursor)),
    Reader.bind_of_ok hattempt, Reader.bind_of_ok (Reader.seek_apply _ _ _)]
  cases Header.read data { position := cursor.position } with
  | ok p => rfl
  | error error => rfl

namespace Header

/-- Where a header can be read, the file is an XCF file. -/
theorem isXcf_of_read {data : Bytes} {cursor after : Cursor} {header : Header}
    (h : read data cursor = .ok (header, after)) : isXcf data cursor = .ok (true, cursor) := by
  obtain ⟨-, -, tag, ⟨gap, name, -, rfl⟩, hat, -⟩ := read_eq_ok_iff_hasAt.mp h
  have hmagic : data.HasAt cursor.position magic := hat.left.left.left
  rw [isXcf_eq, hmagic.extract, beq_self_eq_true]

/-- **Headers.** A header is read exactly where it stands: a tag of a version up to the newest, the
words of the size, the id of a colour model, and from version 4 on a precision. The size is found
there and nowhere else. Of the accepted tags those are documented which have a blank in front of the
version and no plus sign. -/
theorem accepts_iff (data : Bytes) (cursor : Cursor) :
    (∀ header after, read data cursor = .ok (header, after) ↔
      header.version ≤ newestVersion ∧ header.Fits ∧ ∃ tag, AcceptedTag tag header.version ∧
        data.HasAt cursor.position (tag ++ header.fields) ∧
        after = ⟨cursor.position + (tag ++ header.fields).length, header.version⟩) ∧
    (∀ astray size, peekSize data cursor astray = .ok (.ok size, cursor) ↔
      ∃ header : Header, header.version ≤ newestVersion ∧ header.Fits ∧
        size = (header.width, header.height) ∧ ∃ tag, AcceptedTag tag header.version ∧
          data.HasAt cursor.position (tag ++ header.fields)) ∧
    ∀ tag version, DocumentedTag tag version ↔
      AcceptedTag tag version ∧ tag[8]? = some 0x20 ∧ tag[10]? ≠ some 0x2b := by
  refine ⟨fun header after => read_eq_ok_iff_hasAt, fun astray size => ?_, fun tag version =>
    documentedTag_iff⟩
  rw [peekSize_eq]
  constructor
  · intro h
    -- What the probe gives comes from the header that the read gives.
    cases hread : read data { position := cursor.position } with
    | error error =>
      rw [hread] at h
      cases h
    | ok p =>
      rw [hread] at h
      cases h
      obtain ⟨hnewest, hfits, tag, haccepted, hat, -⟩ := read_eq_ok_iff_hasAt.mp hread
      exact ⟨p.1, hnewest, hfits, rfl, tag, haccepted, hat⟩
  · rintro ⟨header, hnewest, hfits, rfl, tag, haccepted, hat⟩
    have hread : read data { position := cursor.position } = _ :=
      read_eq_ok_iff_hasAt.mpr ⟨hnewest, hfits, tag, haccepted, hat, rfl⟩
    rw [hread]
    rfl

/-- A header with an underscore in front of its version. -/
def underscored : Bytes :=
  (ascii "gimp xcf_file" ++ [0] ++ Layout.word 2 ++ Layout.word 1 ++ Layout.word 0).toArray

/-- A header whose version has a plus sign. -/
def plusSigned : Bytes :=
  (ascii "gimp xcf v+11" ++ [0] ++ Layout.word 2 ++ Layout.word 1 ++ Layout.word 0 ++
    Layout.word 255).toArray

/-- The data begins with a header that is read, but not with a tag that is documented. -/
def ReadsUndocumented (data : Bytes) : Prop :=
  (∃ header after, read data {} = .ok (header, after)) ∧
    ∀ tag version, DocumentedTag tag version → ¬ data.HasAt 0 tag

/-- Neither the underscore nor the plus sign is documented, and both are read over. -/
theorem readsUndocumented : ReadsUndocumented underscored ∧ ReadsUndocumented plusSigned := by
  have hlength : ∀ {tag version}, DocumentedTag tag version → tag.length = 14 := fun h =>
    (documentedTag_iff.mp h).1.spec.1
  constructor
  · refine ⟨⟨⟨0, 2, 1, .rgb, none⟩, ⟨26, 0⟩, rfl⟩, ?_⟩
    intro tag version h hat
    -- Every documented tag has a blank where the file has an underscore.
    have hgap : underscored[0 + 8]? = some 0x20 :=
      (hat.getElem? (by rw [hlength h]; decide)).trans (documentedTag_iff.mp h).2.1
    exact absurd hgap (by decide)
  · refine ⟨⟨⟨11, 2, 1, .rgb, some 255⟩, ⟨30, 11⟩, rfl⟩, ?_⟩
    intro tag version h hat
    -- No documented tag has a plus sign behind its v.
    have hplus : plusSigned[0 + 10]? ≠ some 0x2b := by
      rw [hat.getElem? (by rw [hlength h]; decide)]
      exact (documentedTag_iff.mp h).2.2
    exact hplus rfl

end Header

end XcfFlatten
