import SysProg.Sockets.Rdwrn

/-! What is sent with `writen` comes back with `readn`, whatever the sizes of the requests. -/

namespace SysProg.Sockets

variable (request : Request)

/-- `writen` has written so many bytes of its buffer. -/
def Request.written (output : List UInt8) (count : Nat) : WritenState where
  totWritten := count
  buf := request.buffer + count
  output := output ++ request.mem.load request.buffer count

/-- A call of `write` that transfers a part brings the loop further by that part. -/
theorem writenLoop_part (answers : Nat → Transfer) (output : List UInt8)
    {fuel call count more : Nat}
    (unfinished : count < request.n) (part : answers call = .part more) :
    writenLoop answers request.mem request.n (fuel + 1) call (request.written output count) =
      writenLoop answers request.mem request.n fuel (call + 1)
        (request.written output (count + Transfer.amount more (request.n - count))) := by
  -- The pointer and the count advance together, so the parts are those of the buffer.
  simp only [writenLoop, Request.written, if_pos unfinished, part]
  rw [Memory.load_add, List.append_assoc, Nat.add_assoc]

/-- `writen` writes the bytes of its buffer, and returns their number. -/
theorem writen_returns (output : List UInt8) :
    Yields (fun fuel =>
      writen request.schedule.answers fuel request.mem request.buffer request.n output)
        ((request.n : Int), output ++ request.data) := by
  have turn : ∀ call count, count ≤ request.n →
      (∃ result, result = ((request.n : Int), output ++ request.data) ∧ ∀ fuel,
        writenLoop request.schedule.answers request.mem request.n (fuel + 1) call
          (request.written output count) = some result) ∨
      ∃ next, next ≤ request.n ∧ (∀ fuel,
        writenLoop request.schedule.answers request.mem request.n (fuel + 1) call
          (request.written output count) =
            writenLoop request.schedule.answers request.mem request.n fuel (call + 1)
              (request.written output next)) ∧
        (request.n - next < request.n - count ∨
          call < request.schedule.last ∧ request.n - next ≤ request.n - count) := by
    -- A call either is interrupted or takes the loop nearer to its end.
    intro call count within
    by_cases unfinished : count < request.n
    · right
      rcases request.schedule.cases_answer call with ⟨interrupted, early⟩ | ⟨more, part⟩
      · refine ⟨count, within, fun fuel => ?_, .inr ⟨early, le_rfl⟩⟩
        simp only [writenLoop, Request.written, if_pos unfinished, interrupted]
      · have bounds := Transfer.amount_bounds more (Nat.sub_pos_of_lt unfinished)
        refine ⟨_, ?_, fun fuel => writenLoop_part request _ output unfinished part, .inl ?_⟩
        · omega
        · omega
    · -- Everything has been written.
      left
      obtain rfl : count = request.n := by omega
      exact ⟨_, rfl, fun fuel => if_neg unfinished⟩
  obtain ⟨_, rfl, returns⟩ := request.schedule.loop_returns
    (fun fuel call count => writenLoop request.schedule.answers request.mem request.n fuel call
      (request.written output count)) turn 0 (Nat.zero_le request.n)
  have start : request.written output 0 = ⟨0, request.buffer, output⟩ := by
    simp [Request.written, Memory.load]
  rwa [start] at returns

/-- `readn` has stored so many bytes of its input. -/
def Request.stored (input : List UInt8) (count : Nat) : ReadnState where
  totRead := count
  buf := request.buffer + count
  mem := request.mem.store request.buffer (input.take count)
  input := input.drop count

/-- The bytes that a call of `read` stores next, if it transfers this part. -/
def Request.block (input : List UInt8) (count more : Nat) : List UInt8 :=
  (input.drop count).take (Transfer.amount more (request.n - count))

/-- The next bytes are there unless the input has ended, and no more than were asked for. -/
theorem Request.block_bounds (input : List UInt8) {count : Nat} (more : Nat)
    (unfinished : count < request.n) :
    (request.block input count more = [] ↔ input.length ≤ count) ∧
      count + (request.block input count more).length ≤ request.n ∧
        (request.block input count more).length ≤ input.length - count := by
  -- The part is bounded by what is asked for, and by what is left of the input.
  have bounds := Transfer.amount_bounds more (Nat.sub_pos_of_lt unfinished)
  have length : (request.block input count more).length =
      min (Transfer.amount more (request.n - count)) (input.length - count) := by
    rw [Request.block, List.length_take, List.length_drop]
  rw [← List.length_eq_zero_iff]
  omega

/-- A call of `read` that transfers a part brings the loop further by that part. -/
theorem readnLoop_part (answers : Nat → Transfer) {input : List UInt8} {fuel call count more : Nat}
    (unfinished : count < request.n) (some_ : count < input.length)
    (part : answers call = .part more) :
    readnLoop answers request.n (fuel + 1) call (request.stored input count) =
      readnLoop answers request.n fuel (call + 1)
        (request.stored input (count + (request.block input count more).length)) := by
  have nonempty : request.block input count more ≠ [] := by
    rw [ne_eq, (request.block_bounds input more unfinished).1]
    omega
  -- The pointer and the count advance together, so the parts make up the input.
  have block : (input.drop count).take (request.block input count more).length =
      request.block input count more :=
    (List.prefix_iff_eq_take.mp (List.take_prefix _ _)).symm
  have front : (input.take count).length = count := List.length_take_of_le some_.le
  have stored := request.mem.store_append request.buffer (input.take count)
    (request.block input count more)
  rw [front] at stored
  have joined : input.take (count + (request.block input count more).length) =
      input.take count ++ request.block input count more := by
    rw [List.take_add, block]
  simp only [readnLoop, Request.stored, if_pos unfinished, part]
  rw [joined, ← stored, ← Nat.add_assoc, ← List.drop_drop]
  exact if_neg nonempty

/-- What `readn` returns when it has stored all that it can. -/
def Request.received (input : List UInt8) : ReadnResult where
  value := (min request.n input.length : Nat)
  mem := request.mem.store request.buffer (input.take request.n)
  input := input.drop request.n

/-- What `readn` has stored at the end of the request or of the input is all that it can. -/
theorem Request.received_eq (input : List UInt8) {count : Nat}
    (all : count = min request.n input.length) :
    ⟨(count : Int), (request.stored input count).mem, (request.stored input count).input⟩ =
      request.received input := by
  -- To take or drop more than there is makes no difference.
  have taken : input.take count = input.take request.n := by
    rw [all, List.take_eq_take_iff]
    omega
  have dropped : input.drop count = input.drop request.n := by
    by_cases enough : request.n ≤ input.length
    · rw [all, Nat.min_eq_left enough]
    · rw [List.drop_of_length_le (by omega), List.drop_of_length_le (by omega)]
  rw [Request.received, Request.stored, taken, dropped, all]

/-- `readn` stores the next bytes of its input, and returns their number. -/
theorem readn_returns (input : List UInt8) :
    Yields (fun fuel =>
      readn request.schedule.answers fuel request.mem request.buffer request.n input)
        (request.received input) := by
  have turn : ∀ call count, count ≤ min request.n input.length →
      (∃ result, result = request.received input ∧ ∀ fuel,
        readnLoop request.schedule.answers request.n (fuel + 1) call
          (request.stored input count) = some result) ∨
      ∃ next, next ≤ min request.n input.length ∧ (∀ fuel,
        readnLoop request.schedule.answers request.n (fuel + 1) call
          (request.stored input count) =
            readnLoop request.schedule.answers request.n fuel (call + 1)
              (request.stored input next)) ∧
        (request.n - next < request.n - count ∨
          call < request.schedule.last ∧ request.n - next ≤ request.n - count) := by
    -- A call is interrupted, transfers a part, or meets the end of the input.
    intro call count within
    by_cases unfinished : count < request.n
    · rcases request.schedule.cases_answer call with ⟨interrupted, early⟩ | ⟨more, part⟩
      · right
        refine ⟨count, within, fun fuel => ?_, .inr ⟨early, le_rfl⟩⟩
        simp only [readnLoop, Request.stored, if_pos unfinished, interrupted]
      · obtain ⟨ended, asked, there⟩ := request.block_bounds input more unfinished
        by_cases some_ : count < input.length
        · right
          have least : request.block input count more ≠ [] := mt ended.mp (not_le.mpr some_)
          have least := List.length_pos_iff.mpr least
          refine ⟨_, ?_, fun fuel => readnLoop_part request _ unfinished some_ part, .inl ?_⟩
          · omega
          · omega
        · -- The input has ended before the request.
          left
          refine ⟨_, rfl, fun fuel => ?_⟩
          rw [← request.received_eq input (show count = min request.n input.length by omega)]
          simp only [readnLoop, Request.stored, if_pos unfinished, part]
          exact if_pos (ended.mpr (not_lt.mp some_))
    · -- Everything has been stored that was asked for.
      left
      refine ⟨_, rfl, fun fuel => ?_⟩
      rw [← request.received_eq input (show count = min request.n input.length by omega)]
      exact if_neg unfinished
  obtain ⟨_, rfl, returns⟩ := request.schedule.loop_returns
    (fun fuel call count => readnLoop request.schedule.answers request.n fuel call
      (request.stored input count)) turn 0 (Nat.zero_le _)
  have start : request.stored input 0 = ⟨0, request.buffer, request.mem, input⟩ := by
    simp [Request.stored, Memory.store_nil]
  rwa [start] at returns

/-- The bytes that successive calls of `readn` return of their input. -/
def pieces : List Request → List UInt8 → List (List UInt8)
  | [], _ => []
  | request :: rest, input => input.take request.n :: pieces rest (input.drop request.n)

/-- The pieces make up the input, as far as it has been asked for. -/
theorem pieces_flatten (requests : List Request) (input : List UInt8) :
    (pieces requests input).flatten = input.take (requests.map Request.n).sum := by
  -- The induction takes one request at a time off the front of the input.
  induction requests generalizing input with
  | nil => rfl
  | cons request rest ih =>
    rw [pieces, List.flatten_cons, ih, List.map_cons, List.sum_cons, List.take_add]

/-- Successive calls of `writen` write their data one after the other. -/
theorem sendAll_returns (requests : List Request) (output : List UInt8) :
    Yields (fun fuel => sendAll fuel requests output)
      (requests.map fun request => (request.n : Int), output ++ requests.flatMap Request.data) := by
  -- Each call appends to what those before it have written.
  induction requests generalizing output with
  | nil =>
    rw [List.flatMap_nil, List.append_nil]
    exact Yields.pure _
  | cons request rest ih =>
    have later := (ih (output ++ request.data)).map
      fun later => ((request.n : Int) :: later.1, later.2)
    rw [List.flatMap_cons, ← List.append_assoc]
    exact (writen_returns request output).bind later

/-- What a call of `readn` returns is in the buffer. -/
theorem Request.received_load (input : List UInt8) :
    (request.received input).mem.load request.buffer (request.received input).value.toNat =
      input.take request.n := by
  -- As many bytes are loaded as have been stored.
  have length : (request.received input).value.toNat = (input.take request.n).length := by
    rw [List.length_take]
    rfl
  rw [length]
  exact Memory.load_store request.mem request.buffer _

/-- Successive calls of `readn` return one piece after the other. -/
theorem receiveAll_returns (requests : List Request) (input : List UInt8) :
    Yields (fun fuel => receiveAll fuel requests input) (pieces requests input) := by
  -- Each call finds the input that those before it have left.
  induction requests generalizing input with
  | nil => exact Yields.pure _
  | cons request rest ih =>
    have later := (ih (input.drop request.n)).map fun later => input.take request.n :: later
    rw [← request.received_load input] at later
    rw [pieces, ← request.received_load input]
    exact (readn_returns request input).bind later

/-- What is promised of both functions, and of one after the other. -/
structure RoundTrip (sends receives : List Request) (stream : List UInt8) : Prop where
  /-- `writen` returns the number of bytes, and has appended them. -/
  writen : ∀ (request : Request) (output : List UInt8), Yields (fun fuel =>
    writen request.schedule.answers fuel request.mem request.buffer request.n output)
      ((request.n : Int), output ++ request.data)
  /-- `readn` returns how many bytes it has stored, which are those that come next. -/
  readn : ∀ (request : Request) (input : List UInt8), Yields (fun fuel =>
    readn request.schedule.answers fuel request.mem request.buffer request.n input)
      ⟨(min request.n input.length : Nat),
        request.mem.store request.buffer (input.take request.n), input.drop request.n⟩
  /-- What has been sent is received, as far as it is asked for. -/
  both : ∃ received, received.flatten =
      (stream ++ sends.flatMap Request.data).take (receives.map Request.n).sum ∧
    Yields (fun fuel => (sendAll fuel sends stream).bind fun sent =>
      receiveAll fuel receives sent.2) received

/-- What is sent with `writen` comes back with `readn`. -/
theorem readn_writen_roundTrip (sends receives : List Request) (stream : List UInt8) :
    RoundTrip sends receives stream where
  writen := writen_returns
  readn := readn_returns
  -- What was sent is received, cut into the sizes that were asked for.
  both := by
    refine ⟨_, pieces_flatten receives (stream ++ sends.flatMap Request.data), ?_⟩
    exact (sendAll_returns sends stream).bind (receiveAll_returns receives _)

/-- Each call transfers one byte, except that a signal interrupts the second one. -/
def trickle : Schedule where
  answers call := if call = 1 then .interrupted else .part 0
  last := 2
  patient call late := by
    rw [if_neg (by omega)]
    nofun
  sound call := by
    split <;> exact ⟨nofun, nofun⟩

/-- The first letters of the alphabet, in a buffer at the address 97. -/
def letters (n : Nat) : Request :=
  ⟨UInt8.ofNat, 97, n, trickle⟩

/-- What is sent as three bytes and two is received as one byte and four. -/
theorem readn_writen_roundTrip_trickle : ∃ received, received.flatten = [97, 98, 99, 97, 98] ∧
    Yields (fun fuel => (sendAll fuel [letters 3, letters 2] []).bind fun sent =>
      receiveAll fuel [letters 1, letters 4] sent.2) received := by
  -- A signal interrupts the second call, and each of the others moves one byte.
  obtain ⟨received, flat, yields⟩ :=
    (readn_writen_roundTrip [letters 3, letters 2] [letters 1, letters 4] []).both
  have sent : ([] ++ [letters 3, letters 2].flatMap Request.data).take
      (([letters 1, letters 4].map Request.n).sum) = [97, 98, 99, 97, 98] := by decide
  exact ⟨received, flat.trans sent, yields⟩

end SysProg.Sockets
