import SysProg.Sockets.ReadLine

/-! What `readLine` reads and stores of a stream, and when it tells a line from end-of-file. -/

namespace SysProg.Sockets

open Seqnum (ReadResult)
open Lines

/-- The bytes that reading brings, whatever fails in between. -/
def bytesOf : List ReadResult → List UInt8
  | [] => []
  | .byte ch :: rest => ch :: bytesOf rest
  | .interrupted :: rest | .error :: rest => bytesOf rest

/-- Where only bytes are brought, they are all of the bytes. -/
@[simp] theorem bytesOf_map_byte (text : List UInt8) : bytesOf (text.map .byte) = text := by
  induction text with
  | nil => rfl
  | cons c rest ih => exact congrArg (c :: ·) ih

/-- The bytes of two parts are those of the first before those of the second. -/
theorem bytesOf_append (front back : List ReadResult) :
    bytesOf (front ++ back) = bytesOf front ++ bytesOf back := by
  -- By induction on the first part; only the reads that bring a byte count.
  induction front with
  | nil => rfl
  | cons event rest ih =>
    cases event with
    | byte c => exact congrArg (c :: ·) ih
    | interrupted | error => exact ih

/-- There are no more bytes than there are reads. -/
theorem bytesOf_length_le (events : List ReadResult) :
    (bytesOf events).length ≤ events.length := by
  -- By induction on the events, each of which brings one byte at most.
  induction events with
  | nil => exact le_rfl
  | cons event rest ih =>
    cases event with
    | byte c => exact Nat.succ_le_succ ih
    | interrupted | error => exact Nat.le_succ_of_le ih

/-- Interrupted calls of `read` make no difference to `readLine`. -/
theorem readLineLoop_interrupted (n : Nat) (buf : List UInt8) {reads : List ReadResult}
    (transient : .error ∉ reads) :
    readLineLoop n buf ((bytesOf reads).map .byte) =
        ((readLineLoop n buf reads).1, (bytesOf (readLineLoop n buf reads).2).map .byte) ∧
      .error ∉ (readLineLoop n buf reads).2 := by
  -- By induction on the reads, none of which fails; an interrupted one is made again.
  induction reads generalizing buf with
  | nil =>
    simp only [bytesOf, List.map_nil, readLineLoop]
    split
    · exact ⟨rfl, nofun⟩
    · exact ⟨rfl, nofun⟩
  | cons event rest ih =>
    have later : .error ∉ rest := fun mem => transient (List.mem_cons_of_mem _ mem)
    cases event with
    | error => exact absurd List.mem_cons_self transient
    | interrupted => exact ih buf later
    | byte c =>
      simp only [bytesOf, List.map_cons, readLineLoop]
      split
      · exact ⟨rfl, later⟩
      · exact ih _ later

/-- The same for a whole call. -/
theorem readLine_interrupted (n : Nat) {reads : List ReadResult} (transient : .error ∉ reads) :
    readLine n ((bytesOf reads).map .byte) =
        ((readLine n reads).1, (bytesOf (readLine n reads).2).map .byte) ∧
      .error ∉ (readLine n reads).2 := by
  unfold readLine
  -- A size that is not positive reads nothing.
  split
  · exact ⟨rfl, transient⟩
  · exact readLineLoop_interrupted n [] transient

/-- Interrupted calls of `read` make no difference to successive calls of `readLine`. -/
theorem calls_interrupted (sizes : List Nat) {reads : List ReadResult}
    (transient : .error ∉ reads) :
    calls readLine sizes ((bytesOf reads).map .byte) = calls readLine sizes reads := by
  -- By induction on the calls, each of which goes on where the last one ended.
  induction sizes generalizing reads with
  | nil => rfl
  | cons n sizes ih =>
    obtain ⟨same, kept⟩ := readLine_interrupted n transient
    rw [calls, calls, same, ih kept]

/-- What `readLine` reads up to the end of a line, and what it stores of it. -/
theorem readLineLoop_spec {n : Nat} {buf : List UInt8} {reads : List ReadResult}
    (room : buf.length ≤ n - 1) (transient : .error ∉ reads) :
    (∃ used, reads = used ++ (readLineLoop n buf reads).2 ∧
      bytesOf used = line 10 (bytesOf reads)) ∧
    (readLineLoop n buf reads).1.value =
      ((buf ++ line 10 (bytesOf reads)).take (n - 1)).length ∧
    ((buf ++ line 10 (bytesOf reads)).take (n - 1) ≠ [] → (readLineLoop n buf reads).1.buffer =
      (buf ++ line 10 (bytesOf reads)).take (n - 1) ++ [0]) := by
  induction reads generalizing buf with
  | nil =>
    simp only [readLineLoop, bytesOf, line, List.append_nil, List.take_of_length_le room]
    split
    next empty =>
      rw [List.length_eq_zero_iff] at empty
      subst empty
      exact ⟨⟨[], rfl, rfl⟩, rfl, fun some_ => absurd rfl some_⟩
    · exact ⟨⟨[], rfl, rfl⟩, rfl, fun _ => rfl⟩
  | cons event rest ih =>
    have later : .error ∉ rest := fun mem => transient (List.mem_cons_of_mem _ mem)
    cases event with
    | error => exact absurd List.mem_cons_self transient
    | interrupted =>
      -- `read` is restarted.
      obtain ⟨⟨used, split, bytes⟩, rest⟩ := ih room later
      exact ⟨⟨.interrupted :: used, congrArg _ split, bytes⟩, rest⟩
    | byte c =>
      -- The byte is stored if there is room for it and for the null byte.
      obtain ⟨placed, there⟩ : ∃ placed,
          (if buf.length < n - 1 then buf ++ [c] else buf) = placed := ⟨_, rfl⟩
      have within : placed.length ≤ n - 1 := by
        rw [← there]
        split
        · rw [List.length_append, List.length_singleton]
          omega
        · exact room
      have stores : ∀ after, (buf ++ c :: after).take (n - 1) = (placed ++ after).take (n - 1) := by
        intro after
        rw [← there]
        split
        · rw [List.append_assoc, List.singleton_append]
        next full =>
          have full : n - 1 = buf.length := by omega
          rw [full, List.take_left, List.take_left]
      simp only [readLineLoop, bytesOf, line, there]
      by_cases newline : c = 10
      · simp only [if_pos newline, stores, List.append_nil, List.take_of_length_le within]
        exact ⟨⟨[.byte c], rfl, rfl⟩, trivial, fun _ => trivial⟩
      · simp only [if_neg newline, stores]
        obtain ⟨⟨used, split, bytes⟩, rest⟩ := ih within later
        exact ⟨⟨.byte c :: used, congrArg _ split, congrArg (c :: ·) bytes⟩, rest⟩

/-- What is promised of a call of `readLine` on a stream. -/
structure ReadLineSpec (n : Nat) (reads : List ReadResult)
    (result : LineRead × List ReadResult) : Prop where
  /-- It reads the bytes of the next line, and no others. -/
  consumed : ∃ used, reads = used ++ result.2 ∧ bytesOf used = line 10 (bytesOf reads)
  /-- It stores what it has room for, with a null byte, and returns how much that is. -/
  stored : line 10 (bytesOf reads) ≠ [] →
    result.1.buffer = (line 10 (bytesOf reads)).take (n - 1) ++ [0] ∧
      result.1.value = ((line 10 (bytesOf reads)).take (n - 1)).length
  /-- It returns zero exactly at end-of-file. -/
  eof : result.1.value = 0 ↔ line 10 (bytesOf reads) = []

/-- `readLine` keeps its promise unless there is a line, and room for the null byte only. -/
theorem readLine_spec_iff (n : Nat) (some_ : 1 ≤ n) (reads : List ReadResult)
    (transient : .error ∉ reads) :
    ReadLineSpec n reads (readLine n reads) ↔ 2 ≤ n ∨ bytesOf reads = [] := by
  have whole : readLine n reads = readLineLoop n [] reads := if_neg (by omega)
  have room : ([] : List UInt8).length ≤ n - 1 := Nat.zero_le (n - 1)
  obtain ⟨consumed, value, buffer⟩ := readLineLoop_spec room transient
  rw [List.nil_append] at value buffer
  rw [whole]
  constructor
  · intro promised
    by_contra neither
    obtain ⟨small, some_⟩ := not_or.mp neither
    -- Nothing is stored of the line, so zero is returned.
    have none_ : n - 1 = 0 := by omega
    rw [none_, List.take_zero, List.length_nil] at value
    exact some_ (line_eq_nil_iff.mp (promised.eof.mp value))
  · intro either
    refine ⟨consumed, fun some_ => ?_, ?_⟩
    · have large : 2 ≤ n := either.resolve_right fun none_ => some_ (line_eq_nil_iff.mpr none_)
      refine ⟨buffer fun none_ => ?_, value⟩
      rw [List.take_eq_nil_iff] at none_
      exact none_.elim (by omega) some_
    · rw [value, Int.natCast_eq_zero, List.length_eq_zero_iff, List.take_eq_nil_iff]
      refine ⟨fun none_ => ?_, .inr⟩
      -- With room for one more byte, nothing is stored only if nothing has been read.
      rcases none_ with small | none_
      · exact line_eq_nil_iff.mpr (either.resolve_left (by omega))
      · exact none_

/-- A line of four bytes is read with room for three, after a signal. -/
theorem readLine_spec_iff_truncated :
    let reads : List ReadResult := .interrupted :: [97, 98, 99, 10].map .byte
    ReadLineSpec 3 reads (readLine 3 reads) ↔ 2 ≤ 3 ∨ bytesOf reads = [] :=
  readLine_spec_iff 3 (by decide) _ (by decide)

/-- With room for the null byte only, a line looks like end-of-file. -/
theorem readLine_not_spec :
    ¬ ∀ (n : Nat) (reads : List ReadResult), 1 ≤ n → .error ∉ reads →
      ReadLineSpec n reads (readLine n reads) := by
  -- With a size of one, the first byte is read and dropped.
  intro promised
  have spec := promised 1 [.byte 97, .byte 10] le_rfl (by decide)
  exact absurd (spec.eof.mp (by decide)) (by decide)

/-- The servers that read a line with `readLine` see an error or the line. -/
theorem readLine_eq_seqnum (n : Nat) (buf : List UInt8) (reads : List ReadResult) :
    Seqnum.readLine n buf reads =
      if (readLineLoop n buf reads).1.value = -1 then none
      else some (readLineLoop n buf reads).1.line := by
  -- By induction on the reads: the end of the stream, an error, an interruption, or a byte.
  induction reads generalizing buf with
  | nil =>
    simp only [Seqnum.readLine, readLineLoop]
    split
    next empty =>
      rw [List.length_eq_zero_iff] at empty
      subst empty
      rfl
    · simp [LineRead.line]
  | cons event rest ih =>
    cases event with
    | error => rfl
    | interrupted => exact ih buf
    | byte c =>
      simp only [Seqnum.readLine, readLineLoop]
      split
      · simp [LineRead.line]
      · exact ih _

end SysProg.Sockets
