import XcfFlatten.Text.Utf8

/-!
# UTF-8 is read as it is

Lenient reading replaces what is not UTF-8. Of the bytes of a text nothing is replaced
(`Utf8.decodeLossy_encode`). The first byte of a character tells how many follow, and the range that
it sets for the next one leaves out overlong forms, surrogates and values past the last code point
only: no character needs them (`Utf8.exists_lead?_three`, `Utf8.exists_lead?_four`). Every following
byte brings six bits of the code point, and the first byte the bits above them.
-/

namespace XcfFlatten.Utf8

/-- The bytes of a text. -/
def encode (text : String) : List UInt8 := text.toUTF8.data.toList

/-- They are the bytes of its characters, one after another. -/
theorem encode_eq (text : String) :
    encode text = text.toList.flatMap String.utf8EncodeChar := by
  rw [encode, String.toUTF8_eq_toByteArray, ← String.utf8Encode_toList, List.utf8Encode,
    List.data_toByteArray]

/-! ### Bytes behind the first -/

/-- A byte of the full range, with the last six bits of a number. -/
def sixBits (n : Nat) : UInt8 := UInt8.ofNat (n % 0x40 + 0x80)

@[simp] theorem toNat_sixBits (n : Nat) : (sixBits n).toNat = n % 0x40 + 0x80 :=
  UInt8.toNat_ofNat_of_lt' (by rw [UInt8.size]; omega)

theorem sixBits_fits (n : Nat) : 0x80 ≤ sixBits n ∧ sixBits n ≤ 0xBF := by
  simp only [UInt8.le_iff_toNat_le, toNat_sixBits, UInt8.reduceToNat]
  omega

/-- A byte within the bounds continues the character, and behind it any such byte does. -/
theorem continuation_cons {n : Nat} {low high b : UInt8} (h : low ≤ b ∧ b ≤ high)
    (rest : List UInt8) :
    continuation (n + 1) low high (b :: rest) = b :: continuation n 0x80 0xBF rest := if_pos h

/-! ### First bytes -/

/-- These bytes begin a character of two. -/
theorem lead?_two {b : UInt8} (h : 0xC2 ≤ b.toNat ∧ b.toNat ≤ 0xDF) :
    lead? b = some (1, 0x80, 0xBF) := by
  have hlow : ¬ b < 0xC2 := by
    rw [UInt8.lt_iff_toNat_lt]
    exact Nat.not_lt.mpr h.1
  rw [lead?, if_neg hlow, if_pos (UInt8.le_iff_toNat_le.mpr h.2)]

/-- Of three bytes, the first asks for more than the full range only at the two ends of a gap. -/
theorem exists_lead?_three {b second : UInt8} (h : 0xE0 ≤ b.toNat ∧ b.toNat ≤ 0xEF)
    (hsecond : 0x80 ≤ second ∧ second ≤ 0xBF) (hlow : b.toNat = 0xE0 → 0xA0 ≤ second)
    (hhigh : b.toNat = 0xED → second ≤ 0x9F) :
    ∃ low high, lead? b = some (2, low, high) ∧ low ≤ second ∧ second ≤ high := by
  unfold lead?
  simp only [UInt8.lt_iff_toNat_lt, UInt8.le_iff_toNat_le (a := b), ← UInt8.toNat_inj,
    UInt8.reduceToNat]
  rw [if_neg (by omega), if_neg (by omega)]
  -- The first and the last but two of these bytes narrow what may follow: neither a longer form nor
  -- a surrogate.
  by_cases he0 : b.toNat = 0xE0
  · rw [if_pos he0]
    exact ⟨_, _, rfl, hlow he0, hsecond.2⟩
  by_cases hed : b.toNat = 0xED
  · rw [if_neg he0, if_pos hed]
    exact ⟨_, _, rfl, hsecond.1, hhigh hed⟩
  rw [if_neg he0, if_neg hed, if_pos h.2]
  exact ⟨_, _, rfl, hsecond.1, hsecond.2⟩

/-- And of four. -/
theorem exists_lead?_four {b second : UInt8} (h : 0xF0 ≤ b.toNat ∧ b.toNat ≤ 0xF4)
    (hsecond : 0x80 ≤ second ∧ second ≤ 0xBF) (hlow : b.toNat = 0xF0 → 0x90 ≤ second)
    (hhigh : b.toNat = 0xF4 → second ≤ 0x8F) :
    ∃ low high, lead? b = some (3, low, high) ∧ low ≤ second ∧ second ≤ high := by
  unfold lead?
  simp only [UInt8.lt_iff_toNat_lt, UInt8.le_iff_toNat_le (a := b), ← UInt8.toNat_inj,
    UInt8.reduceToNat]
  rw [if_neg (by omega), if_neg (by omega), if_neg (by omega), if_neg (by omega),
    if_neg (by omega)]
  -- Again two of the bytes narrow what may follow, here the shorter forms and what lies beyond the
  -- last character.
  by_cases hf0 : b.toNat = 0xF0
  · rw [if_pos hf0]
    exact ⟨_, _, rfl, hlow hf0, hsecond.2⟩
  by_cases hf4 : b.toNat = 0xF4
  · rw [if_neg hf0, if_neg (by omega), if_pos hf4]
    exact ⟨_, _, rfl, hsecond.1, hhigh hf4⟩
  rw [if_neg hf0, if_pos (by omega)]
  exact ⟨_, _, rfl, hsecond.1, hsecond.2⟩

/-! ### Characters -/

theorem next_of_lead? {first low high : UInt8} {following : List UInt8}
    (hfirst : 0x80 ≤ first.toNat) (hlead : lead? first = some (following.length, low, high))
    {rest : List UInt8}
    (hfollowing : continuation following.length low high (following ++ rest) = following) :
    next first (following ++ rest) =
      (Char.ofNat (codePoint first following), following.length) := by
  have hlong : ¬ first < 0x80 := by
    rw [UInt8.lt_iff_toNat_lt]
    exact Nat.not_lt.mpr hfirst
  rw [next, if_neg hlong, hlead]
  dsimp only
  rw [hfollowing, if_pos rfl]

section

variable (n : Nat) (rest : List UInt8)

theorem next_two (h : 0x7F < n ∧ n ≤ 0x7FF) :
    next (UInt8.ofNat (n / 64 % 0x20 + 0xC0)) ([sixBits n] ++ rest) = (Char.ofNat n, 1) := by
  have hfirst : (UInt8.ofNat (n / 64 % 0x20 + 0xC0)).toNat = n / 64 + 0xC0 := by
    rw [UInt8.toNat_ofNat_of_lt' (by rw [UInt8.size]; omega)]
    omega
  -- Each following byte gives six bits back, and the first byte those that are left.
  have hcode : codePoint (UInt8.ofNat (n / 64 % 0x20 + 0xC0)) [sixBits n] = n := by
    change (UInt8.ofNat (n / 64 % 0x20 + 0xC0)).toNat % 32 * 64 + (sixBits n).toNat % 64 = n
    rw [hfirst, toNat_sixBits]
    omega
  rw [next_of_lead? (by omega) (lead?_two (by omega)), hcode]
  · rfl
  · exact continuation_cons (sixBits_fits n) rest

/-- A character of three bytes is decoded, unless it is a surrogate. -/
theorem next_three (h : 0x7FF < n ∧ n ≤ 0xFFFF) (hsurrogate : n < 0xD800 ∨ 0xDFFF < n) :
    next (UInt8.ofNat (n / 4096 % 0x10 + 0xE0)) ([sixBits (n / 64), sixBits n] ++ rest) =
      (Char.ofNat n, 2) := by
  have hfirst : (UInt8.ofNat (n / 4096 % 0x10 + 0xE0)).toNat = n / 4096 + 0xE0 := by
    rw [UInt8.toNat_ofNat_of_lt' (by rw [UInt8.size]; omega)]
    omega
  -- The four and the twelve bits, put together again, are the code point.
  have hcode :
      codePoint (UInt8.ofNat (n / 4096 % 0x10 + 0xE0)) [sixBits (n / 64), sixBits n] = n := by
    change ((UInt8.ofNat (n / 4096 % 0x10 + 0xE0)).toNat % 16 * 64 +
      (sixBits (n / 64)).toNat % 64) * 64 + (sixBits n).toNat % 64 = n
    rw [hfirst, toNat_sixBits, toNat_sixBits]
    omega
  -- The second byte is within the bounds, as the character is neither shorter nor a surrogate.
  obtain ⟨low, high, hlead, hsecond⟩ :=
    exists_lead?_three (b := UInt8.ofNat (n / 4096 % 0x10 + 0xE0)) (by omega)
      (sixBits_fits (n / 64))
      (by simp only [UInt8.le_iff_toNat_le, toNat_sixBits, UInt8.reduceToNat]; omega)
      (by simp only [UInt8.le_iff_toNat_le, toNat_sixBits, UInt8.reduceToNat]; omega)
  rw [next_of_lead? (by omega) hlead, hcode]
  · rfl
  · exact (continuation_cons hsecond _).trans
      (congrArg _ (continuation_cons (sixBits_fits n) rest))

/-- A character of four bytes is decoded. -/
theorem next_four (h : 0xFFFF < n ∧ n < 0x110000) :
    next (UInt8.ofNat (n / 262144 % 0x08 + 0xF0))
        ([sixBits (n / 4096), sixBits (n / 64), sixBits n] ++ rest) =
      (Char.ofNat n, 3) := by
  have hfirst : (UInt8.ofNat (n / 262144 % 0x08 + 0xF0)).toNat = n / 262144 + 0xF0 := by
    rw [UInt8.toNat_ofNat_of_lt' (by rw [UInt8.size]; omega)]
    omega
  have hcode : codePoint (UInt8.ofNat (n / 262144 % 0x08 + 0xF0))
      [sixBits (n / 4096), sixBits (n / 64), sixBits n] = n := by
    change (((UInt8.ofNat (n / 262144 % 0x08 + 0xF0)).toNat % 8 * 64 +
      (sixBits (n / 4096)).toNat % 64) * 64 + (sixBits (n / 64)).toNat % 64) * 64 +
        (sixBits n).toNat % 64 = n
    rw [hfirst, toNat_sixBits, toNat_sixBits, toNat_sixBits]
    omega
  -- The second byte is within the bounds, as the character has a point of its own.
  obtain ⟨low, high, hlead, hsecond⟩ :=
    exists_lead?_four (b := UInt8.ofNat (n / 262144 % 0x08 + 0xF0)) (by omega)
      (sixBits_fits (n / 4096))
      (by simp only [UInt8.le_iff_toNat_le, toNat_sixBits, UInt8.reduceToNat]; omega)
      (by simp only [UInt8.le_iff_toNat_le, toNat_sixBits, UInt8.reduceToNat]; omega)
  rw [next_of_lead? (by omega) hlead, hcode]
  · rfl
  · refine (continuation_cons hsecond _).trans (congrArg _ ?_)
    exact (continuation_cons (sixBits_fits (n / 64)) _).trans
      (congrArg _ (continuation_cons (sixBits_fits n) rest))

end

/-- **One character.** It is read off its bytes, and all of them are used. -/
theorem next_encode (c : Char) (rest : List UInt8) :
    ∃ first following, String.utf8EncodeChar c = first :: following ∧
      next first (following ++ rest) = (c, following.length) := by
  have hvalid : c.toNat < 0xD800 ∨ 0xDFFF < c.toNat ∧ c.toNat < 0x110000 := c.valid
  have hbytes : String.utf8EncodeChar c =
      if c.toNat ≤ 0x7F then [UInt8.ofNat c.toNat]
      else if c.toNat ≤ 0x7FF then [UInt8.ofNat (c.toNat / 64 % 0x20 + 0xC0), sixBits c.toNat]
      else if c.toNat ≤ 0xFFFF then
        [UInt8.ofNat (c.toNat / 4096 % 0x10 + 0xE0), sixBits (c.toNat / 64), sixBits c.toNat]
      else
        [UInt8.ofNat (c.toNat / 262144 % 0x08 + 0xF0), sixBits (c.toNat / 4096),
          sixBits (c.toNat / 64), sixBits c.toNat] := rfl
  have hchar : Char.ofNat c.toNat = c := Char.ofNat_toNat c
  rw [hbytes]
  -- There are one to four bytes, by the size of the code point. No character is a surrogate.
  split
  · next hascii =>
    have hfirst : (UInt8.ofNat c.toNat).toNat = c.toNat :=
      UInt8.toNat_ofNat_of_lt' (by rw [UInt8.size]; omega)
    have hlt : UInt8.ofNat c.toNat < 0x80 := by
      rw [UInt8.lt_iff_toNat_lt, hfirst]
      exact Nat.lt_succ_of_le hascii
    refine ⟨_, _, rfl, ?_⟩
    rw [next, if_pos hlt, hfirst, hchar]
    rfl
  split
  · exact ⟨_, _, rfl, by rw [next_two _ rest (by omega), hchar]; rfl⟩
  split
  · exact ⟨_, _, rfl, by rw [next_three _ rest (by omega) (by omega), hchar]; rfl⟩
  · exact ⟨_, _, rfl, by rw [next_four _ rest (by omega), hchar]; rfl⟩

/-! ### Texts -/

/-- Decoding goes on behind the characters that are done. -/
theorem decodeOnto_encode (done chars : List Char) :
    decodeOnto done (chars.flatMap String.utf8EncodeChar) = done.reverse ++ chars := by
  -- By induction on the characters, each of which takes as many bytes as were written for it.
  induction chars generalizing done with
  | nil => rw [List.flatMap_nil, decodeOnto, List.append_nil]
  | cons c chars ih =>
    obtain ⟨first, following, hbytes, hnext⟩ :=
      next_encode c (chars.flatMap String.utf8EncodeChar)
    rw [List.flatMap_cons, hbytes, List.cons_append, decodeOnto, hnext]
    dsimp only
    rw [List.drop_left, ih, List.reverse_cons, List.append_assoc]
    rfl

/-- **Texts are read back.** -/
theorem decodeLossy_encode (text : String) : decodeLossy (encode text) = text := by
  rw [decodeLossy, encode_eq, decodeOnto_encode, List.reverse_nil, List.nil_append,
    String.ofList_toList]

end XcfFlatten.Utf8
