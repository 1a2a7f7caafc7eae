import Mathlib.Tactic.Ring
import XcfFlatten.File.Layout
import XcfFlatten.Proofs.File.Closed

/-!
# Reading what is laid out

If a part of a file is in the data at some place (`Bytes.HasAt`), then reading from that place on
gives what the part was laid out for, and goes on right behind it (`Reader.Takes`). Both sides count
places by the lengths of the parts passed over, so that a reader for a sequence of parts follows from
the readers of the parts.

* `Reader.Takes.word`, `Reader.Takes.offset` and `Reader.Takes.string` — the scalars of the format;
* `Reader.Takes.bytesPadded` — a window that begins with a part, whatever comes behind it.
-/

namespace XcfFlatten

/-! ### Numbers -/

/-- The last byte of a number counts once, and those before it count 256 times. -/
theorem Bytes.toNat_concat (bytes : List UInt8) (b : UInt8) :
    Bytes.toNat (bytes ++ [b]).toArray = Bytes.toNat bytes.toArray * 256 + b.toNat := by
  unfold Bytes.toNat
  rw [List.foldl_toArray', List.foldl_toArray', List.foldl_append]
  · rfl
  · rfl
  · rfl

namespace Layout

/-- A number takes as many bytes as it is given. -/
@[simp] theorem length_number (width n : Nat) : (number width n).length = width := by
  induction width generalizing n with
  | zero => rfl
  | succ width ih => rw [number, List.length_append, ih, List.length_singleton]

@[simp] theorem length_word (n : Nat) : (word n).length = 4 := length_number 4 n

@[simp] theorem length_offset (version n : Nat) :
    (offset version n).length = offsetWidth version := length_number _ n

theorem offsetWidth_pos (version : Nat) : 0 < offsetWidth version := by
  unfold offsetWidth
  split <;> decide

/-- An offset can be stored: it fits in its bytes, and it is not negative where these are signed. -/
def FitsOffset (version n : Nat) : Prop := if 11 ≤ version then n < 2 ^ 63 else n < 2 ^ 32

instance (version n : Nat) : Decidable (FitsOffset version n) :=
  inferInstanceAs (Decidable (if 11 ≤ version then n < 2 ^ 63 else n < 2 ^ 32))

/-- What fits in 32 bits can be stored as an offset in every version. -/
theorem fitsOffset_of_lt {n : Nat} (version : Nat) (hn : n < 2 ^ 32) : FitsOffset version n := by
  unfold FitsOffset
  split
  · omega
  · exact hn

/-- Bytes of a number that fits in them stand for it. -/
theorem toNat_number {width n : Nat} (h : n < 256 ^ width) :
    Bytes.toNat (number width n).toArray = n := by
  induction width generalizing n with
  | zero =>
    rw [Nat.pow_zero] at h
    exact (Nat.lt_one_iff.mp h).symm
  | succ width ih =>
    -- The last byte is the remainder, and those before it stand for the quotient.
    have hlow : (UInt8.ofNat n).toNat = n % 256 := UInt8.toNat_ofNat'
    have hhigh : n / 256 < 256 ^ width := Nat.div_lt_of_lt_mul (by rwa [Nat.mul_comm, ← Nat.pow_succ])
    calc Bytes.toNat (number (width + 1) n).toArray
        = Bytes.toNat (number width (n / 256)).toArray * 256 + (UInt8.ofNat n).toNat :=
          Bytes.toNat_concat (number width (n / 256)) (UInt8.ofNat n)
      _ = n / 256 * 256 + n % 256 := by rw [ih hhigh, hlow]
      _ = n := Nat.div_add_mod' n 256

end Layout

/-! ### Parts of the data -/

/-- The data has a part at a place. -/
def Bytes.HasAt (data : Bytes) (place : Nat) (part : List UInt8) : Prop :=
  ∃ before after, data.toList = before ++ (part ++ after) ∧ before.length = place

namespace Bytes.HasAt

variable {data : Bytes} {place : Nat} {part a b : List UInt8}

/-- Data that is nothing but a part has it at its beginning. -/
theorem whole (part : List UInt8) : HasAt part.toArray 0 part :=
  ⟨[], [], by rw [List.append_nil]; rfl, rfl⟩

/-- A part ends where the data does or before. -/
theorem le_size (h : data.HasAt place part) : place + part.length ≤ data.size := by
  obtain ⟨before, after, hdata, rfl⟩ := h
  rw [← Array.length_toList, hdata, List.length_append, List.length_append]
  omega

/-- Two parts in a row are each where they begin. -/
theorem append (h : data.HasAt place (a ++ b)) :
    data.HasAt place a ∧ data.HasAt (place + a.length) b := by
  obtain ⟨before, after, hdata, rfl⟩ := h
  refine ⟨⟨before, b ++ after, ?_, rfl⟩, before ++ a, after, ?_, List.length_append⟩
  · rw [hdata, List.append_assoc]
  · rw [hdata, List.append_assoc, List.append_assoc]

theorem left (h : data.HasAt place (a ++ b)) : data.HasAt place a := h.append.1

theorem right (h : data.HasAt place (a ++ b)) : data.HasAt (place + a.length) b := h.append.2

/-- A stretch of the data that is long enough begins with the part. -/
theorem exists_extract (h : data.HasAt place part) {length : Nat} (hlength : part.length ≤ length) :
    ∃ more : List UInt8, data.extract place (place + length) = part.toArray ++ more.toArray := by
  obtain ⟨before, after, hdata, rfl⟩ := h
  refine ⟨after.take (length - part.length), ?_⟩
  apply Array.toList_inj.mp
  rw [Array.toList_extract, hdata, List.extract_eq_take_drop, List.drop_left, Nat.add_sub_cancel_left,
    List.take_append, List.take_of_length_le hlength, Array.toList_append]

/-- The stretch of the data where a part is holds the part. -/
theorem extract (h : data.HasAt place part) :
    data.extract place (place + part.length) = part.toArray := by
  obtain ⟨more, hmore⟩ := h.exists_extract (Nat.le_refl _)
  have hsize : (data.extract place (place + part.length)).size = part.length := by
    have hle := h.le_size
    rw [Array.size_extract]
    omega
  -- As many bytes are cut out as the part has, so that nothing follows it.
  have hnil : more = [] := by
    rw [hmore, Array.size_append, List.size_toArray, List.size_toArray] at hsize
    exact List.length_eq_zero_iff.mp (by omega)
  rw [hmore, hnil, Array.append_empty]

end Bytes.HasAt

/-! ### Readers -/

namespace Reader

variable {α β : Type}

/-- From one place on, the reader gives a result and goes on at another place. -/
def Takes (reader : Reader α) (data : Bytes) (version start stop : Nat) (a : α) : Prop :=
  reader data ⟨start, version⟩ = .ok (a, ⟨stop, version⟩)

namespace Takes

variable {data : Bytes} {version start middle stop : Nat}

theorem pure (a : α) : Takes (pure a) data version start start a := rfl

/-- What is done behind a reader is done from where it goes on. -/
theorem bind_eq {x : Reader α} {f : α → Reader β} {a : α} {result : Except ReadError (β × Cursor)}
    (hx : Takes x data version start middle a) (hf : f a data ⟨middle, version⟩ = result) :
    (x >>= f) data ⟨start, version⟩ = result := (bind_of_ok hx).trans hf

/-- Two parts in a row are read by two readers in a row. -/
theorem bind {x : Reader α} {f : α → Reader β} {a : α} {b : β}
    (hx : Takes x data version start middle a) (hf : Takes (f a) data version middle stop b) :
    Takes (x >>= f) data version start stop b := hx.bind_eq hf

/-- Wherever the second reader goes on, the sequence goes on there. -/
theorem exists_bind {x : Reader α} {f : α → Reader β} {a : α} {b : β}
    (hx : Takes x data version start middle a)
    (hf : ∃ stop, Takes (f a) data version middle stop b) :
    ∃ stop, Takes (x >>= f) data version start stop b := by
  obtain ⟨stop, hstop⟩ := hf
  exact ⟨stop, hx.bind hstop⟩

theorem map {x : Reader α} {a : α} (hx : Takes x data version start stop a) (f : α → β) :
    Takes (f <$> x) data version start stop (f a) := by
  change Takes (x >>= fun a => Pure.pure (f a)) data version start stop (f a)
  exact hx.bind (pure (f a))

theorem get : Takes MonadState.get data version start start ⟨start, version⟩ := rfl

theorem position : Takes position data version start start start := rfl

theorem seek (place : Nat) : Takes (seek place) data version start place () := rfl

/-- A check that is passed reads nothing. -/
theorem liftM {result : Except ReadError α} {a : α} (h : result = .ok a) :
    Takes (MonadLiftT.monadLift result) data version start start a := by
  subst h
  rfl

/-- As many bytes as a part has are the part, where it is. -/
theorem bytes {part : List UInt8} (h : data.HasAt start part) (version : Nat) :
    Takes (bytes part.length) data version start (start + part.length) part.toArray := by
  have hle := h.le_size
  unfold Takes
  rw [bytes_apply, if_pos (by dsimp only; omega)]
  dsimp only
  rw [h.extract]

/-- A number is read back from its bytes. -/
theorem number {width n : Nat} (h : data.HasAt start (Layout.number width n)) (hn : n < 256 ^ width) :
    Takes (Bytes.toNat <$> Reader.bytes width) data version start (start + width) n := by
  have hbytes : Takes (Reader.bytes width) data version start (start + width)
      (Layout.number width n).toArray := by
    have := bytes h version
    rwa [Layout.length_number] at this
  rw [← Layout.toNat_number hn]
  exact hbytes.map Bytes.toNat

theorem word {n : Nat} (h : data.HasAt start (Layout.word n)) (hn : n < 2 ^ 32) :
    Takes word data version start (start + (Layout.word n).length) n := by
  rw [Layout.length_word]
  exact number h hn

/-- Read as signed, those from the middle on are negative. -/
theorem int32 {n : Nat} (h : data.HasAt start (Layout.word n)) (hn : n < 2 ^ 32) :
    Takes int32 data version start (start + (Layout.word n).length) (signed32 n) :=
  (word h hn).map signed32

theorem float32 {n : Nat} (h : data.HasAt start (Layout.word n)) (hn : n < 2 ^ 32) :
    Takes float32 data version start (start + (Layout.word n).length) (UInt32.ofNat n) :=
  (word h hn).map UInt32.ofNat

theorem flag {n : Nat} (h : data.HasAt start (Layout.word n)) (hn : n < 2 ^ 32) :
    Takes flag data version start (start + (Layout.word n).length) (n != 0) :=
  (word h hn).map (· != 0)

/-- Offsets of either width are read back. -/
theorem offset_of_fits {n : Nat} (h : data.HasAt start (Layout.offset version n))
    (hn : Layout.FitsOffset version n) :
    Takes offset data version start (start + (Layout.offset version n).length) n := by
  rw [Layout.length_offset]
  refine get.bind ?_
  dsimp only
  unfold Layout.FitsOffset at hn
  -- The width is that of the version, on both sides.
  by_cases hwide : 11 ≤ version
  · have hwidth : Layout.offsetWidth version = 8 := if_pos hwide
    rw [if_pos hwide] at hn
    -- A number below half the range is not negative.
    have hsigned : signed64 n = n := if_pos (by omega)
    rw [Layout.offset, hwidth] at h
    rw [if_pos hwide, hwidth]
    have hbytes := bytes h version
    rw [Layout.length_number] at hbytes
    refine hbytes.bind ?_
    rw [Layout.toNat_number (by omega), hsigned, if_neg (by omega)]
    exact Takes.pure n
  · have hwidth : Layout.offsetWidth version = 4 := if_neg hwide
    rw [if_neg hwide] at hn
    rw [Layout.offset, hwidth] at h
    rw [if_neg hwide, hwidth]
    exact number h hn

/-- Those that fit in 32 bits always are. -/
theorem offset {n : Nat} (h : data.HasAt start (Layout.offset version n)) (hn : n < 2 ^ 32) :
    Takes offset data version start (start + (Layout.offset version n).length) n :=
  offset_of_fits h (Layout.fitsOffset_of_lt version hn)

/-- Bytes behind their number are read back as a string, up to the first NUL among them. -/
theorem prefixed {stored : List UInt8} (h : data.HasAt start (Layout.word stored.length ++ stored))
    (hlength : stored.length < 2 ^ 32) :
    Takes string data version start (start + (Layout.word stored.length ++ stored).length)
      (Utf8.decodeLossy (stored.takeWhile (· != 0))) := by
  rw [List.length_append, ← Nat.add_assoc]
  exact (word h.left hlength).bind (f := fun length => do
    let stored ← Reader.bytes length
    Pure.pure (Utf8.decodeLossy (stored.toList.takeWhile (· != 0))))
    ((bytes h.right version).bind (Takes.pure _))

/-- Strings are read back up to the first NUL, which ends them at the latest. -/
theorem string {text : List UInt8} (h : data.HasAt start (Layout.string text))
    (hlength : text.length + 1 < 2 ^ 32) :
    Takes string data version start (start + (Layout.string text).length)
      (Utf8.decodeLossy (text.takeWhile (· != 0))) := by
  have hlayout : Layout.string text = Layout.word (text ++ [0]).length ++ (text ++ [0]) := by
    rw [Layout.string, List.append_assoc, List.length_append, List.length_singleton]
  -- The NUL at the end does not count, nor does anything from an earlier one on.
  have hstop : (text ++ [0]).takeWhile (· != 0) = text.takeWhile (· != 0) := by
    rw [List.takeWhile_append]
    split
    · next hall =>
      rw [List.takeWhile_cons_of_neg (by decide), List.append_nil]
      exact ((List.takeWhile_prefix _).eq_of_length hall).symm
    · rfl
  rw [hlayout] at h
  rw [hlayout, ← hstop]
  exact prefixed h (by rwa [List.length_append])

/-- In data whose places fit in 64 bits, a part of it can be skipped. -/
theorem skip {part : List UInt8} (h : data.HasAt start part) (hpart : part.length < 2 ^ 63)
    (hsize : data.size < 2 ^ 64) :
    Takes (skip part.length) data version start (start + part.length) () := by
  have hle := h.le_size
  have htarget : (start : Int) + signed64 part.length = ((start + part.length : Nat) : Int) := by
    have hsigned : signed64 part.length = part.length := if_pos hpart
    rw [hsigned, Int.natCast_add]
  refine position.bind ?_
  rw [htarget, if_pos (by omega), Int.toNat_natCast]
  exact seek _

/-- A window over a part and more begins with the part. -/
theorem bytesPadded {part : List UInt8} (h : data.HasAt start part) {length : Nat}
    (hlength : part.length ≤ length) :
    ∃ more found stop, part.length ≤ found ∧
      Takes (bytesPadded length) data version start stop (part.toArray ++ more, found) := by
  obtain ⟨more, hmore⟩ := h.exists_extract hlength
  -- What is found may reach past the part, and zeros may follow it.
  let found := data.extract start (start + length)
  refine ⟨more.toArray ++ Array.replicate (length - found.size) 0, found.size,
    start + found.size, ?_, ?_⟩
  · have hsize : found.size = part.length + more.length := by
      change (data.extract start (start + length)).size = _
      rw [hmore, Array.size_append, List.size_toArray, List.size_toArray]
    omega
  · rw [← Array.append_assoc, ← hmore]
    rfl

/-- A window that is just as long as a part is filled by it. -/
theorem bytesPadded_exact {part : List UInt8} (h : data.HasAt start part) :
    Takes (Reader.bytesPadded part.length) data version start (start + part.length)
      (part.toArray, part.length) := by
  have hfound := h.extract
  have hsize : (data.extract start (start + part.length)).size = part.length := by
    rw [hfound, List.size_toArray]
  change Except.ok _ = Except.ok _
  dsimp only
  rw [hsize, hfound, Nat.sub_self, Array.replicate_zero, Array.append_empty]

end Takes

end Reader

end XcfFlatten
