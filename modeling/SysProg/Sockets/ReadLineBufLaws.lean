import SysProg.Sockets.ReadLineLaws

/-! When `readLineBuf` delivers what `readLine` does, and when it delivers the whole stream. -/

namespace SysProg.Sockets

open Seqnum (ReadResult)
open Lines

/-- What one `read` brings, one byte at a time. -/
def BlockRead.events : BlockRead → List ReadResult
  | .bytes chunk => chunk.val.map .byte
  | .interrupted => [.interrupted]
  | .error => [.error]

/-- The characters that are left in the buffer. -/
def ReadLineBuf.unread (rlbuf : ReadLineBuf) : List UInt8 :=
  (rlbuf.buf.toList.take rlbuf.len.toNat).drop rlbuf.next

/-- All that is going to be read, be it in the buffer or not. -/
def pending (input : ReadLineBuf × List BlockRead) : List ReadResult :=
  input.1.unread.map .byte ++ input.2.flatMap BlockRead.events

/-- What a call reads that takes its characters from where they come, one at a time. -/
def bufferedLoop (n : Nat) (buffer : List UInt8) : List ReadResult → LineRead × List ReadResult
  | [] => (⟨buffer.length, buffer⟩, [])
  | .interrupted :: rest | .error :: rest => (⟨-1, buffer⟩, rest)
  | .byte c :: rest =>
    let buffer := if buffer.length < n then buffer ++ [c] else buffer
    if c = 10 then (⟨buffer.length, buffer⟩, rest) else bufferedLoop n buffer rest

/-- The same for a whole call. -/
def bufferedLine (n : Nat) (reads : List ReadResult) : LineRead × List ReadResult :=
  if n = 0 then (⟨-1, []⟩, reads) else bufferedLoop n [] reads

/-- A buffer without characters has none to be read. -/
theorem unread_of_le {rlbuf : ReadLineBuf} (none_ : ¬ (rlbuf.next : Int) < rlbuf.len) :
    rlbuf.unread = [] := by
  -- All bytes that were filled in have been read.
  unfold ReadLineBuf.unread
  apply List.drop_eq_nil_of_le
  rw [List.length_take]
  omega

/-- The next character is read before those that follow it. -/
theorem unread_of_lt {rlbuf : ReadLineBuf} (available : (rlbuf.next : Int) < rlbuf.len)
    (within : rlbuf.next < rlMaxBuf) :
    rlbuf.unread =
      rlbuf.buf[rlbuf.next] :: ({ rlbuf with next := rlbuf.next + 1 } : ReadLineBuf).unread := by
  unfold ReadLineBuf.unread
  have fits := rlbuf.within
  -- The next byte is within what read() has filled.
  have length : rlbuf.next < (rlbuf.buf.toList.take rlbuf.len.toNat).length := by
    rw [List.length_take, Vector.length_toList]
    omega
  rw [List.drop_eq_getElem_cons length]
  simp

/-- A block that has been read is what there is to be read. -/
theorem unread_filled (rlbuf : ReadLineBuf) (chunk : Chunk) :
    (rlbuf.filled chunk).unread = chunk.val := by
  -- A buffer that has just been filled is unread from its start.
  unfold ReadLineBuf.unread ReadLineBuf.filled
  have fits := chunk.property.2
  apply List.ext_getElem
  · simp only [Int.toNat_natCast, List.drop_zero, List.length_take, Vector.length_toList]
    omega
  · intro i _ inside
    simp [inside]

/-- What is pending is what `read` is going to bring, if the buffer has no characters. -/
theorem pending_of_le {rlbuf : ReadLineBuf} (none_ : ¬ (rlbuf.next : Int) < rlbuf.len)
    (reads : List BlockRead) : pending (rlbuf, reads) = reads.flatMap BlockRead.events := by
  rw [pending, unread_of_le none_]
  rfl

/-- What is pending begins with the next character, if there is one. -/
theorem pending_of_lt {rlbuf : ReadLineBuf} (available : (rlbuf.next : Int) < rlbuf.len)
    (within : rlbuf.next < rlMaxBuf) (reads : List BlockRead) :
    pending (rlbuf, reads) =
      .byte rlbuf.buf[rlbuf.next] :: pending ({ rlbuf with next := rlbuf.next + 1 }, reads) := by
  -- The next byte of the buffer is the next one of the stream.
  rw [pending, unread_of_lt available within]
  rfl

/-- After a failed `read`, the buffer has no characters. -/
theorem pending_failed (rlbuf : ReadLineBuf) (reads : List BlockRead) :
    pending (rlbuf.failed, reads) = reads.flatMap BlockRead.events :=
  pending_of_le (by simp only [ReadLineBuf.failed]; omega) reads

/-- At end-of-file, nothing is pending. -/
theorem pending_ended (rlbuf : ReadLineBuf) : pending (rlbuf.ended, []) = [] :=
  pending_of_le (by simp only [ReadLineBuf.ended]; omega) []

/-- A block that has been read is pending before what follows it. -/
theorem pending_filled (rlbuf : ReadLineBuf) (chunk : Chunk) (reads : List BlockRead) :
    pending (rlbuf.filled chunk, reads) =
      (BlockRead.bytes chunk :: reads).flatMap BlockRead.events := by
  rw [pending, unread_filled]
  rfl

/-- `readLineBuf` takes its characters from where they come, one at a time. -/
theorem readLineBufLoop_eq (n : Nat) (rlbuf : ReadLineBuf) (buffer : List UInt8)
    (reads : List BlockRead) :
    bufferedLoop n buffer (pending (rlbuf, reads)) =
      ((readLineBufLoop n rlbuf buffer reads).1,
        pending (readLineBufLoop n rlbuf buffer reads).2) := by
  fun_induction readLineBufLoop n rlbuf buffer reads with
  -- The next character is in the buffer.
  | case1 rlbuf buffer reads available within c later placed newline =>
    rw [pending_of_lt available within, bufferedLoop]
    exact if_pos newline
  | case2 rlbuf buffer reads available within c later placed inside ih =>
    rw [pending_of_lt available within, bufferedLoop]
    exact (if_neg inside).trans ih
  -- `read` brings something else.
  | case3 rlbuf buffer none_ =>
    rw [pending_of_le none_, pending_ended]
    rfl
  | case4 rlbuf buffer none_ rest =>
    rw [pending_of_le none_, pending_failed]
    rfl
  | case5 rlbuf buffer none_ rest =>
    rw [pending_of_le none_, pending_failed]
    rfl
  | case6 rlbuf buffer none_ chunk rest ih =>
    rw [pending_of_le none_, ← pending_filled rlbuf]
    exact ih

/-- The same for a whole call. -/
theorem readLineBuf_eq (n : Nat) (input : ReadLineBuf × List BlockRead) :
    bufferedLine n (pending input) =
      ((readLineBuf n input).1, pending (readLineBuf n input).2) := by
  unfold bufferedLine readLineBuf
  -- A size that is not positive reads nothing.
  split
  · rfl
  · exact readLineBufLoop_eq n input.1 [] input.2

/-- Successive calls of `readLineBuf` take their characters from where they come. -/
theorem calls_readLineBuf (sizes : List Nat) (input : ReadLineBuf × List BlockRead) :
    calls readLineBuf sizes input = calls bufferedLine sizes (pending input) := by
  -- By induction on the calls, each of which goes on where the last one ended.
  induction sizes generalizing input with
  | nil => rfl
  | cons n sizes ih =>
    rw [calls, calls, readLineBuf_eq, ih]

/-- At first, everything is yet to be read. -/
theorem pending_init (rlbuf : ReadLineBuf) (reads : List BlockRead) :
    pending (readLineBufInit rlbuf, reads) = reads.flatMap BlockRead.events :=
  pending_of_le (by simp only [readLineBufInit]; omega) reads

/-- Chunks without failures bring their bytes. -/
theorem events_chunks (chunks : List Chunk) :
    (chunks.map BlockRead.bytes).flatMap BlockRead.events =
      (chunks.map Subtype.val).flatten.map .byte := by
  -- By induction on the blocks, each of which is split into its bytes.
  induction chunks with
  | nil => rfl
  | cons chunk rest ih =>
    rw [List.map_cons, List.map_cons, List.flatMap_cons, List.flatten_cons, List.map_append, ih]
    rfl

/-- Without errors, `readLine` returns the same with room for one more byte, the null byte. -/
theorem readLineLoop_bytes (n : Nat) (buffer text : List UInt8) :
    (bufferedLoop n buffer (text.map .byte)).1.value =
        (readLineLoop (n + 1) buffer (text.map .byte)).1.value ∧
      (bufferedLoop n buffer (text.map .byte)).1.buffer =
        (readLineLoop (n + 1) buffer (text.map .byte)).1.line ∧
      (bufferedLoop n buffer (text.map .byte)).1.line =
        (bufferedLoop n buffer (text.map .byte)).1.buffer ∧
      ∃ rest : List UInt8, (bufferedLoop n buffer (text.map .byte)).2 = rest.map .byte ∧
        (readLineLoop (n + 1) buffer (text.map .byte)).2 = rest.map .byte := by
  -- By induction on the bytes that both functions take one after the other.
  induction text generalizing buffer with
  | nil =>
    simp only [List.map_nil, bufferedLoop, readLineLoop]
    -- At the end of the stream both return 0, or what they have.
    split
    next empty =>
      rw [List.length_eq_zero_iff] at empty
      subst empty
      exact ⟨rfl, rfl, rfl, [], rfl, rfl⟩
    next => exact ⟨rfl, by simp [LineRead.line], by simp [LineRead.line], [], rfl, rfl⟩
  | cons c rest ih =>
    simp only [List.map_cons, bufferedLoop, readLineLoop, Nat.add_sub_cancel]
    split
    · exact ⟨rfl, by simp [LineRead.line], by simp [LineRead.line], rest, rfl, rfl⟩
    · exact ih _

/-- Without errors, successive calls of both functions return the same. -/
theorem calls_bytes {sizes : List Nat} (some_ : ∀ n ∈ sizes, 1 ≤ n) (text : List UInt8) :
    (calls bufferedLine sizes (text.map .byte)).map (fun result => (result.value, result.buffer)) =
        (calls readLine (sizes.map (· + 1)) (text.map .byte)).map
          (fun result => (result.value, result.line)) ∧
      ∀ result ∈ calls bufferedLine sizes (text.map .byte), result.line = result.buffer := by
  induction sizes generalizing text with
  | nil => exact ⟨rfl, nofun⟩
  | cons n sizes ih =>
    have positive := some_ n List.mem_cons_self
    obtain ⟨value, line, stored, rest, mine, yours⟩ := readLineLoop_bytes n [] text
    have whole : bufferedLine n (text.map .byte) = bufferedLoop n [] (text.map .byte) :=
      if_neg (by omega)
    have other : readLine (n + 1) (text.map .byte) = readLineLoop (n + 1) [] (text.map .byte) :=
      if_neg (Nat.succ_ne_zero n)
    obtain ⟨same, all⟩ := ih (fun n mem => some_ n (List.mem_cons_of_mem _ mem)) rest
    simp only [calls, List.map_cons]
    rw [whole, other, value, line, mine, yours, same]
    -- The first call of either leaves the same bytes to the calls after it.
    refine ⟨rfl, fun result mem => ?_⟩
    rcases List.mem_cons.mp mem with rfl | later
    · exact stored
    · exact all result later

/-- `readLineBuf` returns what `readLine` does with room for the null byte. -/
theorem readLineBuf_refines (rlbuf : ReadLineBuf) (stream : List UInt8) (chunks : List Chunk)
    (split : (chunks.map Subtype.val).flatten = stream) (sizes : List Nat)
    (some_ : ∀ n ∈ sizes, 1 ≤ n) :
    (calls readLineBuf sizes (readLineBufInit rlbuf, chunks.map .bytes)).map
        (fun result => (result.value, result.buffer)) =
      (calls readLine (sizes.map (· + 1)) (stream.map .byte)).map
        (fun result => (result.value, result.line)) := by
  -- The blocks are split into bytes, and on bytes without errors both functions agree.
  rw [calls_readLineBuf, pending_init, events_chunks, split]
  exact (calls_bytes some_ stream).1

/-- Two short lines come in three blocks, and the buffer of the caller has room for two bytes. -/
theorem readLineBuf_refines_threeBlocks :
    (calls readLineBuf [2, 2, 2, 2]
      (readLineBufInit ⟨Vector.replicate rlMaxBuf 0, 0, 0, by decide⟩,
        [⟨[97], by decide⟩, ⟨[98, 99, 10, 100], by decide⟩, ⟨[101], by decide⟩].map .bytes)).map
          (fun result => (result.value, result.buffer)) =
      (calls readLine [3, 3, 3, 3] ([97, 98, 99, 10, 100, 101].map .byte)).map
        (fun result => (result.value, result.line)) :=
  -- The line "bc" goes over the end of a block.
  readLineBuf_refines _ _ _ rfl [2, 2, 2, 2] (by decide)

/-- What calls with enough room deliver of the input, if this much of a line is in the buffer. -/
def deliversFrom (buffer : List UInt8) : List ReadResult → List (List UInt8)
  | [] => if buffer = [] then [] else [buffer]
  -- What is in the buffer is lost.
  | .interrupted :: rest | .error :: rest => deliversFrom [] rest
  | .byte c :: rest =>
    if c = 10 then (buffer ++ [c]) :: deliversFrom [] rest else deliversFrom (buffer ++ [c]) rest

/-- Nothing is in the buffer whenever `read` fails. -/
def Whole (buffer : List UInt8) : List ReadResult → Prop
  | [] => True
  | .interrupted :: rest | .error :: rest => buffer = [] ∧ Whole [] rest
  | .byte c :: rest => if c = 10 then Whole [] rest else Whole (buffer ++ [c]) rest

/-- If nothing is ever lost, the lines of the input are delivered. -/
theorem deliversFrom_of_whole {buffer : List UInt8} {events : List ReadResult}
    (whole : Whole buffer events) :
    deliversFrom buffer events = linesFrom 10 buffer (bytesOf events) := by
  induction events generalizing buffer with
  | nil => rfl
  | cons event rest ih =>
    cases event with
    | interrupted | error =>
      -- The buffer is empty, so nothing is lost.
      obtain ⟨rfl, later⟩ := whole
      exact ih later
    | byte c =>
      simp only [Whole] at whole
      simp only [deliversFrom, bytesOf, linesFrom]
      split
      next newline =>
        rw [if_pos newline] at whole
        rw [ih whole]
      next inside =>
        rw [if_neg inside] at whole
        exact ih whole

/-- No more is delivered than comes in. -/
theorem deliversFrom_length_le (buffer : List UInt8) (events : List ReadResult) :
    (deliversFrom buffer events).flatten.length ≤ buffer.length + (bytesOf events).length := by
  induction events generalizing buffer with
  | nil =>
    unfold deliversFrom
    split <;> simp
  | cons event rest ih =>
    cases event with
    | interrupted | error =>
      -- What has been read of a line is not delivered any more.
      have later := ih []
      simp only [deliversFrom, bytesOf, List.length_nil] at later ⊢
      omega
    | byte c =>
      simp only [deliversFrom, bytesOf, List.length_cons]
      split
      · have later := ih []
        simp only [List.flatten_cons, List.length_append, List.length_singleton,
          List.length_nil] at later ⊢
        omega
      · have later := ih (buffer ++ [c])
        rw [List.length_append, List.length_singleton] at later
        omega

/-- If as much is delivered as comes in, nothing is ever lost. -/
theorem whole_of_length_le {buffer : List UInt8} {events : List ReadResult}
    (all : buffer.length + (bytesOf events).length ≤ (deliversFrom buffer events).flatten.length) :
    Whole buffer events := by
  induction events generalizing buffer with
  | nil => trivial
  | cons event rest ih =>
    cases event with
    | interrupted | error =>
      -- What is delivered later makes up for the later input only.
      simp only [deliversFrom, bytesOf] at all
      have most := deliversFrom_length_le [] rest
      rw [List.length_nil] at most
      have empty : buffer.length = 0 := by omega
      refine ⟨List.eq_nil_of_length_eq_zero empty, ih ?_⟩
      rw [List.length_nil]
      omega
    | byte c =>
      simp only [deliversFrom, bytesOf, List.length_cons] at all
      simp only [Whole]
      split
      next newline =>
        rw [if_pos newline] at all
        simp only [List.flatten_cons, List.length_append, List.length_singleton] at all
        refine ih ?_
        rw [List.length_nil]
        omega
      next inside =>
        rw [if_neg inside] at all
        refine ih ?_
        rw [List.length_append, List.length_singleton]
        omega

/-- What has been read of a line goes on with the bytes that follow. -/
theorem whole_append (buffer text : List UInt8) (events : List ReadResult) :
    Whole buffer (text.map .byte ++ events) ↔ Whole (leftover 10 buffer text) events := by
  -- By induction on the bytes: each ends a line or goes to the end of the one begun.
  induction text generalizing buffer with
  | nil => exact Iff.rfl
  | cons c rest ih =>
    simp only [List.map_cons, List.cons_append, Whole, leftover]
    split
    · exact ih []
    · exact ih (buffer ++ [c])

/-- `read` fails here. -/
def BlockRead.Fails : BlockRead → Prop
  | .bytes _ => False
  | .interrupted | .error => True

/-- What the reads bring, all in all. -/
def streamOf (reads : List BlockRead) : List UInt8 :=
  bytesOf (reads.flatMap BlockRead.events)

/-- Nothing is lost exactly if nothing has been read of a line whenever `read` fails. -/
theorem whole_iff (buffer : List UInt8) (reads : List BlockRead) :
    Whole buffer (reads.flatMap BlockRead.events) ↔
      ∀ before failure after, reads = before ++ failure :: after → failure.Fails →
        leftover 10 buffer (streamOf before) = [] := by
  induction reads generalizing buffer with
  | nil => exact ⟨fun _ before failure after split => by simp at split, fun _ => trivial⟩
  | cons read rest ih =>
    -- The first read fails, or it is behind those that fail.
    have first : (∀ before failure after, read :: rest = before ++ failure :: after →
        failure.Fails → leftover 10 buffer (streamOf before) = []) ↔
          (read.Fails → buffer = []) ∧ ∀ before failure after, rest = before ++ failure :: after →
            failure.Fails → leftover 10 buffer (streamOf (read :: before)) = [] := by
      constructor
      · intro every
        refine ⟨every [] read rest rfl, fun before failure after split => ?_⟩
        exact every (read :: before) failure after (by rw [split]; rfl)
      · rintro ⟨now, later⟩ before failure after split fails
        cases before with
        | nil =>
          obtain ⟨rfl, _⟩ := List.cons.inj split
          exact now fails
        | cons other before =>
          obtain ⟨rfl, same⟩ := List.cons.inj split
          exact later before failure after same fails
    rw [first]
    cases read with
    | interrupted | error =>
      show buffer = [] ∧ Whole [] (rest.flatMap BlockRead.events) ↔ _
      constructor
      · rintro ⟨rfl, later⟩
        exact ⟨fun _ => rfl, (ih []).mp later⟩
      · rintro ⟨now, later⟩
        obtain rfl := now trivial
        exact ⟨rfl, (ih []).mpr later⟩
    | bytes chunk =>
      -- What the block begins of a line is still to be read when a later read fails.
      rw [List.flatMap_cons, BlockRead.events, whole_append, ih]
      have onward : ∀ before, leftover 10 buffer (streamOf (.bytes chunk :: before)) =
          leftover 10 (leftover 10 buffer chunk.val) (streamOf before) := by
        intro before
        rw [streamOf, List.flatMap_cons, bytesOf_append, leftover_append, BlockRead.events,
          bytesOf_map_byte]
        rfl
      simp only [onward]
      exact ⟨fun later => ⟨False.elim, later⟩, And.right⟩

/-- What a call that returns its count delivers, which is nothing at end-of-file. -/
theorem delivered_count (buffer : List UInt8) (results : List LineRead) :
    delivered (⟨buffer.length, buffer⟩ :: results) =
      if buffer = [] then delivered results else buffer :: delivered results := by
  -- An empty line is the end of the stream, and is not delivered.
  cases buffer with
  | nil => rfl
  | cons c rest => simp [delivered, LineRead.line]

/-- Every line of the input has room in a buffer of this size, if it goes on with such a line. -/
def Fits (n : Nat) (begun : List UInt8) (events : List ReadResult) : Prop :=
  ∀ l ∈ linesFrom 10 begun (bytesOf events), l.length ≤ n

/-- The lines behind one that ends have room as before. -/
theorem Fits.newline {n : Nat} {begun : List UInt8} {c : UInt8} {rest : List ReadResult}
    (fits : Fits n begun (.byte c :: rest)) (ends : c = 10) : Fits n [] rest := by
  -- The lines from the newline on are among those from before it.
  intro l mem
  apply fits l
  rw [bytesOf, linesFrom, if_pos ends]
  exact List.mem_cons_of_mem _ mem

/-- The lines have room as before when one more byte of the first of them has been read. -/
theorem Fits.inside {n : Nat} {begun : List UInt8} {c : UInt8} {rest : List ReadResult}
    (fits : Fits n begun (.byte c :: rest)) (goesOn : c ≠ 10) : Fits n (begun ++ [c]) rest := by
  -- The line goes on, so the lines are the same.
  intro l mem
  apply fits l
  rw [bytesOf, linesFrom, if_neg goesOn]
  exact mem

/-- A call leaves less to be read, unless there is nothing. -/
theorem bufferedLoop_length_le (n : Nat) (buffer : List UInt8) (events : List ReadResult) :
    (bufferedLoop n buffer events).2.length ≤ events.length - 1 := by
  -- By induction on the events, of which at least one is taken.
  induction events generalizing buffer with
  | nil => exact le_rfl
  | cons event rest ih =>
    cases event with
    | interrupted | error => exact le_rfl
    | byte c =>
      simp only [bufferedLoop]
      split
      · exact le_rfl
      · exact (ih _).trans (Nat.sub_le _ _)

/-- A call leaves lines of the input, the first of which it may have begun to read. -/
theorem bufferedLoop_fits (n : Nat) (buffer begun : List UInt8) (events : List ReadResult) :
    ∃ later, ∀ m, Fits m begun events → Fits m later (bufferedLoop n buffer events).2 := by
  -- By induction on the events: the call ends at a newline, at an error, or at the end.
  induction events generalizing buffer begun with
  | nil => exact ⟨begun, fun _ => id⟩
  | cons event rest ih =>
    cases event with
    | interrupted | error => exact ⟨begun, fun _ => id⟩
    | byte c =>
      simp only [bufferedLoop]
      split
      next newline => exact ⟨[], fun m fits => fits.newline newline⟩
      next inside =>
        -- A byte within a line makes the line that is begun one longer.
        obtain ⟨later, kept⟩ := ih (if buffer.length < n then buffer ++ [c] else buffer)
          (begun ++ [c])
        exact ⟨later, fun m fits => kept m (fits.inside inside)⟩

/-- If the line has room of which this much has been read, the next byte has. -/
theorem Fits.room {n : Nat} {begun : List UInt8} {c : UInt8} {rest : List ReadResult}
    (fits : Fits n begun (.byte c :: rest)) : begun.length < n := by
  -- The line that is begun goes on with this byte, so it is longer than what was read of it.
  have starts : ∃ l ∈ linesFrom 10 begun (c :: bytesOf rest), begun ++ [c] <+: l := by
    unfold linesFrom
    split
    · exact ⟨begun ++ [c], List.mem_cons_self, List.prefix_refl _⟩
    · exact exists_mem_linesFrom (List.append_ne_nil_of_right_ne_nil _ (List.cons_ne_nil c [])) _
  obtain ⟨l, mem, starts⟩ := starts
  have most := fits l mem
  have least := starts.length_le
  rw [List.length_append, List.length_singleton] at least
  omega

/-- One call delivers the next line, if it has room, and the others deliver the rest. -/
theorem bufferedLoop_delivers {n : Nat} {buffer begun : List UInt8} {events : List ReadResult}
    {results : List LineRead} (behind : buffer.length ≤ begun.length)
    (fits : Fits n begun events)
    (others : delivered results = deliversFrom [] (bufferedLoop n buffer events).2) :
    delivered ((bufferedLoop n buffer events).1 :: results) = deliversFrom buffer events := by
  induction events generalizing buffer begun with
  | nil =>
    simp only [bufferedLoop] at others ⊢
    rw [delivered_count, others]
    rfl
  | cons event rest ih =>
    cases event with
    | interrupted | error => exact others
    | byte c =>
      -- The next byte is stored, since the line has room.
      have room : buffer.length < n := behind.trans_lt fits.room
      simp only [bufferedLoop, if_pos room, deliversFrom] at others ⊢
      split
      next newline =>
        rw [if_pos newline] at others
        rw [delivered_count, others]
        exact if_neg (List.append_ne_nil_of_right_ne_nil _ (List.cons_ne_nil c []))
      next inside =>
        rw [if_neg inside] at others
        exact ih (by simpa using behind) (fits.inside inside) others

/-- Enough calls with enough room deliver what can be delivered of the input. -/
theorem delivered_calls {sizes : List Nat} {begun : List UInt8} {events : List ReadResult}
    (large : ∀ n ∈ sizes, 1 ≤ n ∧ Fits n begun events) (enough : events.length ≤ sizes.length) :
    delivered (calls bufferedLine sizes events) = deliversFrom [] events := by
  induction sizes generalizing begun events with
  | nil =>
    obtain rfl := List.eq_nil_of_length_eq_zero (Nat.le_zero.mp enough)
    rfl
  | cons n sizes ih =>
    obtain ⟨positive, fits⟩ := large n List.mem_cons_self
    have first : bufferedLine n events = bufferedLoop n [] events := if_neg (by omega)
    obtain ⟨later, kept⟩ := bufferedLoop_fits n [] begun events
    have less := bufferedLoop_length_le n [] events
    -- After a failure, the rest of a line is left, which has room if the line has.
    have others : ∀ m ∈ sizes, 1 ≤ m ∧ Fits m later (bufferedLoop n [] events).2 := by
      intro m mem
      obtain ⟨positive, fits⟩ := large m (List.mem_cons_of_mem n mem)
      exact ⟨positive, kept m fits⟩
    rw [calls, first]
    rw [List.length_cons] at enough
    exact bufferedLoop_delivers (Nat.zero_le _) fits (ih others (by omega))

/-- What is delivered depends on what is returned and on the lines. -/
theorem delivered_eq (results : List LineRead) :
    delivered results = ((results.map fun result => (result.value, result.line)).filter
      fun result => 0 < result.1).map Prod.snd := by
  rw [delivered, List.filter_map, List.map_map]
  rfl

/-- Every line of the stream is delivered in full, and so is the stream. -/
structure Lossless (stream : List UInt8) (results : List LineRead) : Prop where
  whole : (delivered results).flatten = stream
  lines : delivered results = lines 10 stream

/-- What is delivered is lossless if it is the lines of the stream. -/
theorem Lossless.of_lines {stream : List UInt8} {results : List LineRead}
    (same : delivered results = Lines.lines 10 stream) : Lossless stream results where
  whole := by
    rw [same, Lines.lines, linesFrom_flatten, List.nil_append]
  lines := same

/-- Enough calls of `readLine` with enough room deliver the stream, whatever is interrupted. -/
theorem readLine_lossless {sizes : List Nat} {reads : List ReadResult}
    (large : ∀ n ∈ sizes, 1 ≤ n ∧ ∀ l ∈ lines 10 (bytesOf reads), l.length ≤ n)
    (enough : (bytesOf reads).length ≤ sizes.length) (transient : .error ∉ reads) :
    Lossless (bytesOf reads) (calls readLine (sizes.map (· + 1)) reads) := by
  obtain ⟨same, stored⟩ := calls_bytes (fun n mem => (large n mem).1) (bytesOf reads)
  have shown : (calls bufferedLine sizes ((bytesOf reads).map .byte)).map
      (fun result => (result.value, result.line)) =
        (calls bufferedLine sizes ((bytesOf reads).map .byte)).map
          (fun result => (result.value, result.buffer)) :=
    List.map_congr_left fun result mem => by rw [stored result mem]
  have fits : ∀ n ∈ sizes, 1 ≤ n ∧ Fits n [] ((bytesOf reads).map .byte) := by
    intro n mem
    rw [Fits, bytesOf_map_byte]
    exact large n mem
  -- Where nothing fails, nothing is lost.
  have whole : Whole [] ((bytesOf reads).map .byte) := by
    simpa using (whole_append [] (bytesOf reads) []).mpr trivial
  apply Lossless.of_lines
  rw [← calls_interrupted _ transient, delivered_eq, ← same, ← shown, ← delivered_eq,
    delivered_calls fits (by simpa using enough), deliversFrom_of_whole whole, bytesOf_map_byte,
    lines]

/-- Whenever `read` fails, it does so between two lines. -/
def FailsBetweenLines (reads : List BlockRead) : Prop :=
  ∀ before failure after, reads = before ++ failure :: after → failure.Fails →
    streamOf before = [] ∨ (streamOf before).getLast? = some 10

/-- `readLineBuf` delivers the whole stream, as `readLine` does, unless a line is interrupted. -/
theorem readLineBuf_lossless_iff (rlbuf : ReadLineBuf) (reads : List BlockRead)
    (sizes : List Nat)
    (large : ∀ n ∈ sizes, 1 ≤ n ∧ ∀ l ∈ lines 10 (streamOf reads), l.length ≤ n)
    (enough : (reads.flatMap BlockRead.events).length ≤ sizes.length) :
    (Lossless (streamOf reads) (calls readLineBuf sizes (readLineBufInit rlbuf, reads)) ↔
      FailsBetweenLines reads) ∧
    ∀ single : List ReadResult, bytesOf single = streamOf reads → .error ∉ single →
      Lossless (streamOf reads) (calls readLine (sizes.map (· + 1)) single) := by
  -- What the calls deliver depends on the events only.
  have delivers : delivered (calls readLineBuf sizes (readLineBufInit rlbuf, reads)) =
      deliversFrom [] (reads.flatMap BlockRead.events) := by
    rw [calls_readLineBuf, pending_init, delivered_calls large enough]
  -- A read that fails between two lines leaves no part of a line behind.
  have between : FailsBetweenLines reads ↔ Whole [] (reads.flatMap BlockRead.events) := by
    simp only [whole_iff, leftover_eq_nil_iff, FailsBetweenLines]
  refine ⟨?_, fun single same transient => ?_⟩
  · rw [between]
    constructor
    -- Where a part of a line is dropped, fewer bytes are delivered than the stream has.
    · intro lossless
      have whole := lossless.whole
      rw [delivers] at whole
      apply whole_of_length_le
      rw [whole, List.length_nil, Nat.zero_add]
      rfl
    · intro whole
      apply Lossless.of_lines
      rw [delivers, deliversFrom_of_whole whole, lines, streamOf]
  -- readLine() keeps what it has read when a call is interrupted.
  · rw [← same] at large ⊢
    refine readLine_lossless large ?_ transient
    rw [same]
    exact (bytesOf_length_le _).trans enough

/-- A signal comes between two blocks, the first of which ends a line. -/
theorem readLineBuf_lossless_iff_betweenLines :
    let rlbuf : ReadLineBuf := ⟨Vector.replicate rlMaxBuf 0, 0, 0, by decide⟩
    let reads : List BlockRead :=
      [.bytes ⟨[97, 10], by decide⟩, .interrupted, .bytes ⟨[98, 10], by decide⟩]
    (Lossless (streamOf reads) (calls readLineBuf [2, 2, 2, 2, 2] (readLineBufInit rlbuf, reads)) ↔
      FailsBetweenLines reads) ∧
    ∀ single : List ReadResult, bytesOf single = streamOf reads → .error ∉ single →
      Lossless (streamOf reads) (calls readLine [3, 3, 3, 3, 3] single) :=
  readLineBuf_lossless_iff _ _ [2, 2, 2, 2, 2] (by decide) (by decide)

/-- A signal comes between two blocks of one line, whose beginning is lost. -/
theorem readLineBuf_not_lossless :
    ¬ ∀ (rlbuf : ReadLineBuf) (reads : List BlockRead) (sizes : List Nat),
      (∀ n ∈ sizes, 1 ≤ n ∧ ∀ l ∈ lines 10 (streamOf reads), l.length < n) →
        (reads.flatMap BlockRead.events).length ≤ sizes.length →
          Lossless (streamOf reads) (calls readLineBuf sizes (readLineBufInit rlbuf, reads)) := by
  -- The interruption comes after "a", and that byte is lost.
  intro promised
  have lossless := promised ⟨Vector.replicate rlMaxBuf 0, 0, 0, by decide⟩
    [.bytes ⟨[97], by decide⟩, .interrupted, .bytes ⟨[98, 10], by decide⟩] [4, 4, 4, 4]
    (by decide) (by decide)
  have whole := lossless.whole
  rw [calls_readLineBuf, pending_init] at whole
  exact absurd whole (by decide)

end SysProg.Sockets
