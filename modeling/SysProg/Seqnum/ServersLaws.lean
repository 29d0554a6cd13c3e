import SysProg.Seqnum.Servers

/-! No sequence number is handed out twice while the counters have room for it. -/

namespace SysProg.Seqnum

open Decimal Dispenser

/-- A line that fits into the buffer is read as it was sent, unless the read fails. -/
theorem readLine_of_fits (n : Nat) {reads : List ReadResult} (buf : List UInt8)
    (fits : buf.length + (sentLine reads).length ≤ n - 1) :
    readLine n buf reads = none ∨ readLine n buf reads = some (buf ++ sentLine reads) := by
  -- The induction follows the reads, and the buffer grows with them.
  induction reads generalizing buf with
  | nil => exact .inr (by simp [readLine, sentLine])
  | cons result rest ih =>
    cases result with
    | interrupted => exact ih buf fits
    | error => exact .inl rfl
    | byte ch =>
      -- The line ends here, or it goes on behind this byte; there is room in either case.
      by_cases newline : ch = 10
      · simp only [sentLine, newline, if_true, List.length_singleton] at fits
        have space : buf.length < n - 1 := by omega
        exact .inr (by simp [readLine, sentLine, newline, space])
      · simp only [sentLine, newline, if_false, List.length_cons] at fits
        have space : buf.length < n - 1 := by omega
        have later := ih (buf ++ [ch]) (by simp; omega)
        simpa [readLine, sentLine, newline, space] using later

/-- A number that fits into an `int` comes through `atoi` as it is. -/
theorem toInt_atoi {text : List UInt8} (low : -2 ^ 31 ≤ readInt text)
    (high : readInt text < 2 ^ 31) :
    (atoi text).toInt = readInt text := by
  -- Nothing is clamped.
  have kept : strtol text = readInt text := by
    unfold strtol
    omega
  rw [atoi, kept, BitVec.toInt_ofInt]
  exact int_of_fits low high

/-- A short line with a number that fits into an `int` is a request for that many numbers. -/
theorem toInt_requestLen {reads : List ReadResult} {reqLen : BitVec 32}
    (short : (sentLine reads).length ≤ intLen - 1) (low : -2 ^ 31 ≤ readInt (sentLine reads))
    (high : readInt (sentLine reads) < 2 ^ 31) (request : requestLen reads = some reqLen) :
    reqLen.toInt = readInt (sentLine reads) := by
  unfold requestLen at request
  -- The read fails, or it yields the line with its number.
  rcases readLine_of_fits intLen [] (by simpa using short) with failed | line
  · simp [failed] at request
  · rw [line, List.nil_append] at request
    split at request
    · cases request
    · cases request
    · rename_i same
      rw [← Option.some.inj same] at request
      split at request
      · cases request
      · rw [← Option.some.inj request]
        exact toInt_atoi low high

/-- The server only grants requests for a positive length. -/
theorem requestLen_pos {reads : List ReadResult} {reqLen : BitVec 32}
    (request : requestLen reads = some reqLen) : 0 < reqLen.toInt := by
  -- Only the last branch grants anything, and there the length is positive.
  unfold requestLen at request
  split at request
  · cases request
  · cases request
  · split at request
    · cases request
    · rename_i positive
      rw [← Option.some.inj request]
      omega

/-- A line that arrives byte for byte and fits into the buffer is read as it is. -/
theorem readLine_bytes (n : Nat) {text : List UInt8} (buf : List UInt8)
    (inner : ∀ ch ∈ text, ch ≠ 10) (fits : buf.length + text.length < n - 1) :
    readLine n buf ((text ++ [10]).map .byte) = some (buf ++ text ++ [10]) := by
  -- The induction follows the text, and the buffer grows with it.
  induction text generalizing buf with
  | nil =>
    have space : buf.length < n - 1 := by simpa using fits
    simp [readLine, space]
  | cons ch text ih =>
    rw [List.length_cons] at fits
    have space : buf.length < n - 1 := by omega
    have other : ch ≠ 10 := inner ch List.mem_cons_self
    have later := ih (buf ++ [ch]) (fun ch mem => inner ch (List.mem_cons_of_mem _ mem))
      (by rw [List.length_append, List.length_singleton]; omega)
    simpa [readLine, space, other] using later

/-- The numeral of a counter has at most a sign and ten digits, and no newline. -/
theorem intText_counter (seqNum : BitVec 32) :
    (intText seqNum.toInt).length ≤ 11 ∧ ∀ ch ∈ intText seqNum.toInt, ch ≠ 10 := by
  have bounds := toInt_bounds seqNum
  have short := length_natText_le seqNum.toInt.natAbs 10 (by omega) (by omega)
  have digits : ∀ ch ∈ natText seqNum.toInt.natAbs, ch ≠ 10 := by
    rintro ch mem rfl
    exact absurd ((natText_isDigit _).2 10 mem) (by decide)
  unfold intText
  -- A minus sign is one byte more, and no newline either.
  split
  · refine ⟨by rw [List.length_cons]; omega, fun ch mem => ?_⟩
    rcases List.mem_cons.mp mem with rfl | later
    · decide
    · exact digits ch later
  · exact ⟨by omega, digits⟩

/-- The response is never cut off by its buffer. -/
theorem seqNumStr_eq (seqNum : BitVec 32) : seqNumStr seqNum = intText seqNum.toInt ++ [10] := by
  -- The number and the newline fit in the buffer.
  have short := (intText_counter seqNum).1
  refine List.take_of_length_le ?_
  rw [List.length_append, List.length_singleton, intLen]
  omega

/-- A client that gets the whole response reads the number that the counter shows. -/
theorem clientReads_whole (seqNum : BitVec 32) :
    clientReads (delivered (seqNumStr seqNum) none) = some seqNum.toInt := by
  obtain ⟨short, inner⟩ := intText_counter seqNum
  -- The line fits into the buffer of the client, and it is read as a number.
  have line := readLine_bytes intLen [] inner (by simp only [List.length_nil, intLen]; omega)
  have number : readInt (intText seqNum.toInt ++ [10]) = seqNum.toInt :=
    readInt_intText seqNum.toInt fun byte head => by
      rw [← Option.some.inj head]
      decide
  rw [delivered, clientReads, seqNumStr_eq, line, List.nil_append]
  split
  · rename_i same
    cases same
  · rename_i same
    simp at same
  · rename_i same
    rw [← Option.some.inj same, number]

/-- A client that gets nothing reads nothing. -/
theorem clientReads_nothing (response : List UInt8) :
    clientReads (delivered response (some 0)) = none := rfl

/--
A granted request can do no harm.

The server has understood its length as the client meant it, the client gets the whole response or
nothing of it, and the counter has room for the numbers.
-/
def Fits (first : BitVec 32) (state : State) : Arrival → Prop
  | .acceptFails => True
  | .connection reads cut =>
    match requestLen reads with
    | none => True
    | some reqLen =>
      reqLen.toInt = readInt (sentLine reads) ∧ (cut = none ∨ cut = some 0) ∧
        Room first state.grants reqLen.toInt

instance (first : BitVec 32) (state : State) :
    (arrival : Arrival) → Decidable (Fits first state arrival)
  | .acceptFails => isTrue trivial
  | .connection reads cut =>
    match request : requestLen reads with
    | none => isTrue (by simp [Fits, request])
    | some reqLen =>
      decidable_of_iff (reqLen.toInt = readInt (sentLine reads) ∧ (cut = none ∨ cut = some 0) ∧
        Room first state.grants reqLen.toInt) (by simp [Fits, request])

/-- What it means that a granted request fits. -/
theorem fits_granted {first : BitVec 32} {state : State} {reads : List ReadResult}
    {cut : Option Nat} {reqLen : BitVec 32} (fits : Fits first state (.connection reads cut))
    (request : requestLen reads = some reqLen) :
    reqLen.toInt = readInt (sentLine reads) ∧ (cut = none ∨ cut = some 0) ∧
      Room first state.grants reqLen.toInt := by
  simpa only [Fits, request] using fits

/-- A client that connects gets the whole response. -/
def Arrival.whole : Arrival → Bool
  | .connection _ (some _) => false
  | _ => true

/-- Every granted request fits, and its client gets the whole response. -/
abbrev FitsWhole (first : BitVec 32) (state : State) (arrival : Arrival) : Prop :=
  Fits first state arrival ∧ arrival.whole = true

/-- A granted request of the FIFO server asks for something, and the counter does not overflow. -/
def FifoFits (state : State) : FifoArrival → Prop
  | .readFails => True
  | .request req opens _ =>
    opens = true → 0 < req.seqLen.toInt ∧ state.seqNum.toInt + req.seqLen.toInt < 2 ^ 31

instance (state : State) : (arrival : FifoArrival) → Decidable (FifoFits state arrival)
  | .readFails => isTrue trivial
  | .request req opens _ =>
    inferInstanceAs (Decidable (opens = true →
      0 < req.seqLen.toInt ∧ state.seqNum.toInt + req.seqLen.toInt < 2 ^ 31))

/-- A request that is not granted does not move the counter. -/
def RejectsFreely {Arrival : Type} (server : Machine State Arrival) : Prop :=
  ∀ state arrival next, server.step state arrival = some next →
    next.grants = state.grants → next.seqNum = state.seqNum

/-- The state that a granted request leads to. -/
theorem serve_granted {state : State} {reads : List ReadResult} {cut : Option Nat}
    {reqLen : BitVec 32} (request : requestLen reads = some reqLen) :
    serve state (.connection reads cut) =
      ⟨state.seqNum + reqLen, state.grants ++ [⟨readInt (sentLine reads),
        clientReads (delivered (seqNumStr state.seqNum) cut)⟩]⟩ := by
  simp [serve, request]

/-- The state after a rejected request is the one before it. -/
theorem serve_rejected {state : State} {reads : List ReadResult} {cut : Option Nat}
    (rejected : requestLen reads = none) : serve state (.connection reads cut) = state := by
  simp [serve, rejected]

/-- Requests that fit keep the accounts of a socket server in order. -/
theorem serve_accounts {first : BitVec 32} {state : State} {arrival : Arrival}
    (accounts : Accounts first state.seqNum state.grants) (fits : Fits first state arrival) :
    Accounts first (serve state arrival).seqNum (serve state arrival).grants := by
  -- Only a request that is granted changes anything.
  cases arrival with
  | acceptFails => exact accounts
  | connection reads cut =>
    cases request : requestLen reads with
    | none =>
      rw [serve_rejected request]
      exact accounts
    | some reqLen =>
      obtain ⟨meant, response, room⟩ := fits_granted fits request
      rw [serve_granted request, ← meant]
      refine accounts.grant (requestLen_pos request) room ?_
      -- The client reads what the counter shows, or nothing at all.
      rcases response with rfl | rfl
      · exact .inr (clientReads_whole state.seqNum)
      · exact .inl (clientReads_nothing _)

/-- Requests that fit and are answered keep all numbers covered. -/
theorem serve_covered {first : BitVec 32} {state : State} {arrival : Arrival}
    (accounts : Accounts first state.seqNum state.grants) (covered : Covered first state.grants)
    (fits : FitsWhole first state arrival) : Covered first (serve state arrival).grants := by
  cases arrival with
  | acceptFails => exact covered
  | connection reads cut =>
    cases request : requestLen reads with
    | none =>
      rw [serve_rejected request]
      exact covered
    | some reqLen =>
      obtain ⟨meant, -, room⟩ := fits_granted fits.1 request
      -- A client that gets the whole response is not cut off.
      have whole : cut = none := by
        cases cut with
        | none => rfl
        | some count => exact absurd fits.2 nofun
      rw [serve_granted request, ← meant, whole, clientReads_whole]
      exact accounts.covered_grant covered (requestLen_pos request) room

/-- Numbers that are handed out by a FIFO server stay below the top of the signed range. -/
structure FifoAccounts (state : State) : Prop where
  accounts : Accounts 0 state.seqNum state.grants
  counted : state.seqNum.toInt = total state.grants

/-- Requests that fit keep the accounts of the FIFO server in order. -/
theorem fifoServe_accounts {state : State} {arrival : FifoArrival} (accounts : FifoAccounts state)
    (fits : FifoFits state arrival) : FifoAccounts (fifoServe state arrival) := by
  cases arrival with
  | readFails => exact accounts
  | request req opens written =>
    cases opened : opens with
    | false => simpa [fifoServe] using accounts
    | true =>
      obtain ⟨positive, room⟩ := fits opened
      have counted := accounts.counted
      have bounds := toInt_bounds state.seqNum
      -- The counter stays in range, so it moves by the length of the request.
      have moved : (state.seqNum + req.seqLen).toInt = state.seqNum.toInt + req.seqLen.toInt := by
        rw [BitVec.toInt_add]
        exact int_of_fits (by omega) room
      -- What has been handed out so far is what the counter shows.
      have free : Room 0 state.grants req.seqLen.toInt := by
        left
        show (0 : Int) + total state.grants < 2 ^ 31
        omega
      simp only [fifoServe, Bool.true_eq_false, if_false]
      refine ⟨accounts.accounts.grant positive free ?_, ?_⟩
      · cases written <;> simp
      · rw [total_append]
        dsimp only
        omega

/--
No sequence number is handed out twice as long as requests fit, and rejected ones cost nothing.

The socket servers may start anywhere and go around once. Where everything up to now did fit and was
answered, the first request that the counter has no room for gets numbers that somebody else has. A
short line with a number that fits an `int` is read as it was sent.
-/
theorem seqnum_distinct (first : BitVec 32) :
    (∀ server : Machine State Arrival, server = isSeqnumSv ∨ server = isSeqnumV2Sv →
      (∀ arrivals state, server.Along (Fits first) (initial first) arrivals →
        server.run (initial first) arrivals = some state → Distinct state.grants) ∧
      (∀ arrivals state reads reqLen next,
        server.Along (FitsWhole first) (initial first) arrivals →
        server.run (initial first) arrivals = some state →
        requestLen reads = some reqLen → reqLen.toInt = readInt (sentLine reads) →
        ¬ Room first state.grants reqLen.toInt →
        server.step state (.connection reads none) = some next → ¬ Distinct next.grants) ∧
      RejectsFreely server) ∧
    (∀ arrivals state, fifoSeqnumServer.Along FifoFits (initial 0) arrivals →
      fifoSeqnumServer.run (initial 0) arrivals = some state → Distinct state.grants) ∧
    RejectsFreely fifoSeqnumServer ∧
    ∀ reads reqLen, (sentLine reads).length ≤ intLen - 1 → -2 ^ 31 ≤ readInt (sentLine reads) →
      readInt (sentLine reads) < 2 ^ 31 → requestLen reads = some reqLen →
      reqLen.toInt = readInt (sentLine reads) := by
  refine ⟨fun server which => ?_, fun arrivals state along ran => ?_, ?_,
    fun _ _ short low high request => toInt_requestLen short low high request⟩
  · -- Both socket servers serve a connection in the same way.
    have serves : server.step = fun state arrival => some (serve state arrival) := by
      rcases which with rfl | rfl <;> rfl
    refine ⟨fun arrivals state along ran => ?_, ?_, ?_⟩
    -- The accounts stay in order along the run, and ordered accounts are distinct.
    · have preserved : ∀ state arrival next, Accounts first state.seqNum state.grants →
          Fits first state arrival → server.step state arrival = some next →
          Accounts first next.seqNum next.grants := by
        intro state arrival next accounts fits stepped
        rw [serves] at stepped
        exact Option.some.inj stepped ▸ serve_accounts accounts fits
      exact (Machine.run_invariant_along preserved (.start first) along ran).distinct
    -- After a run that was answered, every number is covered, so a request without room hits some.
    · intro arrivals state reads reqLen next along ran request meant crowded stepped
      have preserved : ∀ state arrival next,
          Accounts first state.seqNum state.grants ∧ Covered first state.grants →
          FitsWhole first state arrival → server.step state arrival = some next →
          Accounts first next.seqNum next.grants ∧ Covered first next.grants := by
        intro state arrival next orderly fits stepped
        rw [serves] at stepped
        obtain rfl := Option.some.inj stepped
        exact ⟨serve_accounts orderly.1 fits.1, serve_covered orderly.1 orderly.2 fits⟩
      have orderly := Machine.run_invariant_along preserved ⟨.start first, covered_nil first⟩
        along ran
      rw [serves] at stepped
      obtain rfl := Option.some.inj stepped
      rw [serve_granted request, ← meant, clientReads_whole]
      exact orderly.1.not_distinct orderly.2 (requestLen_pos request) crowded
    -- A grant adds to the grants, so a request that adds nothing was rejected.
    · intro state arrival next stepped kept
      rw [serves] at stepped
      obtain rfl := Option.some.inj stepped
      cases arrival with
      | acceptFails => rfl
      | connection reads cut =>
        cases request : requestLen reads with
        | none => rw [serve_rejected request]
        | some reqLen => simp [serve_granted request] at kept
  -- The FIFO server keeps its own accounts, which never wrap around.
  · have accounts : FifoAccounts state := by
      refine Machine.run_invariant_along ?_ ⟨.start 0, rfl⟩ along ran
      intro state arrival next accounts fits stepped
      exact Option.some.inj stepped ▸ fifoServe_accounts accounts fits
    exact accounts.accounts.distinct
  · intro state arrival next stepped kept
    obtain rfl := Option.some.inj stepped
    cases arrival with
    | readFails => rfl
    | request req opens written =>
      cases opens with
      | false => rfl
      | true => simp [fifoServe] at kept

/-- A connection of a client that asks for as many numbers as this text says. -/
def connection (digits : List UInt8) : Arrival :=
  .connection ((digits ++ [10]).map .byte) none

/-- The text of the largest `int`. -/
def largest : List UInt8 :=
  [50, 49, 52, 55, 52, 56, 51, 54, 52, 55]

/-- Two clients get their numbers from each server, and two large requests use up one round. -/
theorem seqnum_distinct_fiveThree :
    (∃ state, isSeqnumSv.run (initial 0) [connection [53], .acceptFails, connection [51]] =
      some state ∧ state.grants = [⟨5, some 0⟩, ⟨3, some 5⟩] ∧ Distinct state.grants) ∧
    (∃ state next, isSeqnumV2Sv.run (initial 0) [connection largest, connection largest] =
      some state ∧ isSeqnumV2Sv.step state (connection [51]) = some next ∧
      ¬ Distinct next.grants) ∧
    (∃ state, fifoSeqnumServer.run (initial 0)
      [.request ⟨7, 5⟩ true true, .request ⟨8, 9⟩ false true, .request ⟨9, 3⟩ true true] =
      some state ∧ state.grants = [⟨5, some 0⟩, ⟨3, some 5⟩] ∧ Distinct state.grants) := by
  refine ⟨⟨⟨8, [⟨5, some 0⟩, ⟨3, some 5⟩]⟩, by decide +kernel, rfl, ?_⟩, ?_,
    ⟨⟨8, [⟨5, some 0⟩, ⟨3, some 5⟩]⟩, by decide +kernel, rfl, ?_⟩⟩
  · exact ((seqnum_distinct 0).1 isSeqnumSv (.inl rfl)).1
      [connection [53], .acceptFails, connection [51]] _ (by decide +kernel) (by decide +kernel)
  · -- After two requests for the largest length, the counter has two numbers left in its round.
    have ran : isSeqnumV2Sv.run (initial 0) [connection largest, connection largest] =
        some ⟨-2, [⟨2147483647, some 0⟩, ⟨2147483647, some 2147483647⟩]⟩ := by decide +kernel
    exact ⟨_, _, ran, rfl, ((seqnum_distinct 0).1 isSeqnumV2Sv (.inr rfl)).2.1
      [connection largest, connection largest] _ ([51, 10].map .byte) 3 _ (by decide +kernel) ran
      (by decide +kernel) (by decide +kernel) (by decide +kernel) rfl⟩
  · exact (seqnum_distinct 0).2.1
      [.request ⟨7, 5⟩ true true, .request ⟨8, 9⟩ false true, .request ⟨9, 3⟩ true true] _
      (by decide +kernel) (by decide +kernel)

/-- A third client is told to start at -2, and gets numbers that the first client has. -/
theorem not_distinct_wrapped : ∃ state,
    isSeqnumSv.run (initial 0) [connection largest, connection largest, connection [51]] =
      some state ∧ (∀ grant ∈ state.grants, 0 < grant.asked) ∧ ¬ Distinct state.grants := by
  refine ⟨⟨1, [⟨2147483647, some 0⟩, ⟨2147483647, some 2147483647⟩, ⟨3, some (-2)⟩]⟩,
    by decide +kernel, by decide, fun distinct => ?_⟩
  have apart : Disjoint (Grant.numbers ⟨2147483647, some 0⟩) (Grant.numbers ⟨3, some (-2)⟩) :=
    (List.pairwise_cons.mp distinct).1 ⟨3, some (-2)⟩ (by simp)
  -- The number 0 is in both runs.
  exact Set.disjoint_left.mp apart (Set.mem_Ico.mpr ⟨le_rfl, by decide⟩)
    (Set.mem_Ico.mpr ⟨by decide, by decide⟩)

end SysProg.Seqnum
