import SysProg.Networks.TcpSender

/-! The stream arrives in order, and as long as something is missing the sender can go on. -/

namespace SysProg.Networks.TcpSender

variable {Memory : Type} {fast : Bool} {receiver : Receiver UInt8 Memory} {first : Int}
  {state next : State Memory} {segment : Packet} {ackNum : Int} {data : List UInt8}

section Laid

/-- The segments follow each other in the stream, none of them empty. -/
def Laid (first : Int) (segments : List Packet) : Prop :=
  ∀ before segment after, segments = before ++ segment :: after →
    segment.data ≠ [] ∧ segment.seq = first + (before.flatMap NumberedSegment.data).length

theorem Laid.fits {segments : List Packet} (laid : Laid first segments)
    (mem : segment ∈ segments) : segment.Fits first (segments.flatMap NumberedSegment.data) := by
  -- What comes before the segment in the list comes before its data in the stream.
  obtain ⟨before, after, rfl⟩ := List.append_of_mem mem
  refine ⟨before.flatMap NumberedSegment.data, after.flatMap NumberedSegment.data, ?_,
    (laid _ _ _ rfl).2⟩
  simp

theorem Laid.append {segments : List Packet} (laid : Laid first segments) (some_ : data ≠ []) :
    Laid first
      (segments ++ [⟨first + (segments.flatMap NumberedSegment.data).length, data⟩]) := by
  intro before segment after whole
  -- The new segment is the last one, or the segments before it are as they were.
  rcases List.eq_nil_or_concat' after with rfl | ⟨after_, last, rfl⟩
  · obtain ⟨rfl, rfl⟩ := List.append_inj' whole rfl |>.imp id List.singleton_inj.mp
    exact ⟨some_, rfl⟩
  · have regrouped : before ++ segment :: (after_ ++ [last]) =
        (before ++ segment :: after_) ++ [last] := by simp
    have whole_ := whole.trans regrouped
    exact laid before segment after_ (List.append_inj' whole_ rfl).1

theorem length_stream (before : List Packet) (last : Packet) :
    ((before ++ [last]).flatMap NumberedSegment.data).length =
      (before.flatMap NumberedSegment.data).length + last.data.length := by
  rw [List.flatMap_append, List.length_append, List.flatMap_singleton]

/-- If a byte of the stream has not been acknowledged, the first segment with such a byte begins
with one that has been expected. -/
theorem Laid.exists_find {segments : List Packet} (laid : Laid first segments) {base : Int}
    (from_ : first ≤ base)
    (missing : base < first + (segments.flatMap NumberedSegment.data).length) :
    ∃ segment ∈ segments, segments.find?
        (fun segment => base < segment.seq + segment.data.length) = some segment ∧
      segment.seq ≤ base ∧ base < segment.seq + segment.data.length := by
  have some_ : segments ≠ [] := by
    intro none_
    subst none_
    simp at missing
    omega
  -- The last segment reaches to the end of the stream.
  obtain ⟨before, last, rfl⟩ := (List.eq_nil_or_concat' segments).resolve_left some_
  cases found : (before ++ [last]).find?
      (fun segment => base < segment.seq + segment.data.length) with
  | none =>
    have short := List.find?_eq_none.mp found last (by simp)
    have placed := (laid before last [] rfl).2
    rw [length_stream] at missing
    simp only [decide_eq_true_eq] at short
    omega
  | some segment =>
    have reaches := List.find?_some found
    obtain ⟨_, front, back, parts, earlier⟩ := List.find?_eq_some_iff_append.mp found
    refine ⟨segment, List.mem_of_find?_eq_some found, rfl, ?_, by simpa using reaches⟩
    have placed := (laid front segment back parts).2
    -- The segment before it has been acknowledged.
    rcases List.eq_nil_or_concat' front with rfl | ⟨front_, other, rfl⟩
    · simp at placed
      omega
    · have short := earlier other (by simp)
      have placed_ := (laid front_ other (segment :: back) (by rw [parts]; simp)).2
      rw [length_stream] at placed
      simp only [Bool.not_eq_true', decide_eq_false_iff_not] at short
      omega

end Laid

section Steps

/-- What is true in every state. -/
structure Invariant (receiver : Receiver UInt8 Memory) (first : Int) (state : State Memory) :
    Prop where
  laid : Laid first state.segments
  numbered : state.nextSeqNum = first + state.stream.length
  sent : ∀ segment ∈ state.sent, segment ∈ state.segments
  received : receiver.Received first state.stream state.receiver
  /-- Nothing is acknowledged that has not been delivered. -/
  acks : ∀ ackNum ∈ state.acks, first ≤ ackNum ∧
    ackNum ≤ first + (receiver.delivered state.receiver).length
  base : first ≤ state.sendBase ∧
    state.sendBase ≤ first + (receiver.delivered state.receiver).length
  timed : state.timer = true ↔ state.sendBase < state.nextSeqNum

theorem invariant_initial : Invariant receiver first (initial receiver first) where
  -- Nothing was sent, so nothing is numbered, delivered or acknowledged.
  laid before segment after whole := by simp [initial] at whole
  numbered := by simp [initial, State.stream]
  sent _ mem := absurd mem List.not_mem_nil
  received := .start
  acks _ mem := absurd mem List.not_mem_nil
  base := by simp [initial]
  timed := by simp [initial]

/-- The receiver has not delivered more than the application has passed on. -/
theorem Invariant.delivered_le (correct : receiver.Correct first)
    (invariant : Invariant receiver first state) :
    first + (receiver.delivered state.receiver).length ≤ state.nextSeqNum := by
  -- What was delivered is a beginning of the stream, which ends at the next number.
  rw [invariant.numbered]
  have sound := (correct.sound _ _ invariant.received).length_le
  omega

theorem Invariant.getData (invariant : Invariant receiver first state)
    (correct : receiver.Correct first) (some_ : data ≠ []) :
    Invariant receiver first { state with
      segments := state.segments ++ [⟨state.nextSeqNum, data⟩]
      sent := ⟨state.nextSeqNum, data⟩ :: state.sent
      timer := true
      nextSeqNum := state.nextSeqNum + data.length } := by
  have most := invariant.delivered_le correct
  have positive := List.length_pos_of_ne_nil some_
  -- The segment gets the next number, and the timer runs from now on if it did not.
  refine ⟨?_, ?_, ?_, ?_, invariant.acks, invariant.base, ?_⟩
  · show Laid first (state.segments ++ [⟨state.nextSeqNum, data⟩])
    rw [invariant.numbered]
    exact invariant.laid.append some_
  · rw [State.stream, length_stream, invariant.numbered]
    simp [State.stream, add_assoc]
  · intro segment mem
    rcases List.mem_cons.mp mem with rfl | old
    · exact List.mem_append_right _ (List.mem_singleton_self _)
    · exact List.mem_append_left _ (invariant.sent segment old)
  · rw [State.stream, List.flatMap_append]
    exact invariant.received.append _
  · have base := invariant.base
    show true = true ↔ state.sendBase < state.nextSeqNum + data.length
    simp only [true_iff]
    omega

/-- Sending a segment again changes nothing that matters. -/
theorem Invariant.retransmit (invariant : Invariant receiver first state)
    {segment : Option Packet} (there : ∀ one, segment = some one → one ∈ state.segments) :
    Invariant receiver first (state.retransmit segment) where
  laid := invariant.laid
  numbered := invariant.numbered
  -- The segment sent again is one of those that were made.
  sent := by
    intro one mem
    rcases List.mem_append.mp mem with again | old
    · exact there one (Option.mem_toList.mp again)
    · exact invariant.sent one old
  received := invariant.received
  acks := invariant.acks
  base := invariant.base
  timed := invariant.timed

theorem Invariant.dupACK (invariant : Invariant receiver first state) :
    Invariant receiver first state.dupACK := by
  rw [State.dupACK]
  -- The third duplicate sends the segment at the base again, and the others are counted only.
  split
  · have again : Invariant receiver first (state.retransmit
        (state.segments.find? fun segment => segment.seq = state.sendBase)) :=
      invariant.retransmit fun one => List.mem_of_find?_eq_some
    exact ⟨again.laid, again.numbered, again.sent, again.received, again.acks, again.base,
      again.timed⟩
  · exact ⟨invariant.laid, invariant.numbered, invariant.sent, invariant.received,
      invariant.acks, invariant.base, invariant.timed⟩

/-- A new acknowledgement is one of bytes that have been delivered. -/
theorem Invariant.ack (invariant : Invariant receiver first state)
    (correct : receiver.Correct first) (mem : ackNum ∈ state.acks) :
    Invariant receiver first { state with
      sendBase := ackNum, timer := !decide (ackNum = state.nextSeqNum) } := by
  -- The acknowledgement speaks of what was delivered, so the base stays below the next number.
  have most := invariant.delivered_le correct
  have bounds := invariant.acks ackNum mem
  refine ⟨invariant.laid, invariant.numbered, invariant.sent, invariant.received, invariant.acks,
    bounds, ?_⟩
  simp only [Bool.not_eq_true', decide_eq_false_iff_not]
  omega

theorem Invariant.arrives (invariant : Invariant receiver first state)
    (correct : receiver.Correct first) (mem : segment ∈ state.sent) :
    Invariant receiver first { state with
      receiver := receiver.receive state.receiver segment
      acks := (first + (receiver.delivered (receiver.receive state.receiver segment)).length) ::
        state.acks } := by
  -- Delivering more keeps all earlier acknowledgements true.
  have longer := (correct.grows state.receiver segment).length_le
  refine ⟨invariant.laid, invariant.numbered, invariant.sent, ?_, ?_, ?_, invariant.timed⟩
  · exact .receive invariant.received (invariant.laid.fits (invariant.sent segment mem))
  · intro ackNum mem
    rcases List.mem_cons.mp mem with rfl | old
    · exact ⟨by omega, le_rfl⟩
    · have bounds := invariant.acks ackNum old
      exact ⟨bounds.1, bounds.2.trans (Int.add_le_add_left (Int.ofNat_le.mpr longer) first)⟩
  · have bounds := invariant.base
    exact ⟨bounds.1, bounds.2.trans (Int.add_le_add_left (Int.ofNat_le.mpr longer) first)⟩

theorem Invariant.step {event : Event} (invariant : Invariant receiver first state)
    (correct : receiver.Correct first) (some_ : ∀ data, event = .getDataFromApp data → data ≠ [])
    (stepped : (machine fast receiver first).step state event = some next) :
    Invariant receiver first next := by
  cases event with
  | getDataFromApp data =>
    simp only [machine, TcpSender.step] at stepped
    split at stepped
    · obtain rfl := Option.some.inj stepped
      exact invariant.getData correct (some_ data rfl)
    · simp at stepped
  | timerTimeout =>
    simp only [machine, TcpSender.step] at stepped
    split at stepped
    next running =>
      obtain rfl := Option.some.inj stepped
      have again := invariant.retransmit fun one same =>
        List.mem_of_find?_eq_some (same : state.minSeqSegment = some one)
      refine ⟨again.laid, again.numbered, again.sent, again.received, again.acks, again.base, ?_⟩
      -- The timer is started again, and it was running.
      have timed := invariant.timed
      rw [running] at timed
      exact timed
    · simp at stepped
  | ackReceived ackNum =>
    simp only [machine, TcpSender.step] at stepped
    split at stepped
    next mem =>
      have mem_ := List.contains_iff_mem.mp mem
      split at stepped
      · obtain rfl := Option.some.inj stepped
        exact invariant.ack correct mem_
      · split at stepped
        · obtain rfl := Option.some.inj stepped
          exact invariant.dupACK
        · obtain rfl := Option.some.inj stepped
          exact invariant
    · simp at stepped
  | segmentArrives segment =>
    simp only [machine, TcpSender.step] at stepped
    split at stepped
    next mem =>
      obtain rfl := Option.some.inj stepped
      exact invariant.arrives correct (List.contains_iff_mem.mp mem)
    · simp at stepped

end Steps

section Runs

variable {events : List Event}

/-- The application passes on at least one byte each time. -/
def NonEmpty (events : List Event) : Prop :=
  ∀ event ∈ events, ∀ data, event = .getDataFromApp data → data ≠ []

theorem Invariant.run (invariant : Invariant receiver first state)
    (correct : receiver.Correct first) (some_ : NonEmpty events)
    (ran : (machine fast receiver first).run state events = some next) :
    Invariant receiver first next := by
  -- Each event keeps the invariant, given that the application hands over some data.
  have preserved : ∀ before event after, Invariant receiver first before →
      (∀ data, event = Event.getDataFromApp data → data ≠ []) →
        (machine fast receiver first).step before event = some after →
          Invariant receiver first after :=
    fun before event after invariant some_ stepped => invariant.step correct some_ stepped
  refine Machine.run_invariant_along preserved invariant ?_ ran
  exact Machine.along_of_mem (fun event mem _ => some_ event mem) state

/-- The oldest segment that is missing is sent again, arrives, and is acknowledged. -/
theorem Invariant.advances (invariant : Invariant receiver first state)
    (correct : receiver.Correct first) (missing : state.sendBase < state.nextSeqNum) :
    ∃ segment ackNum next, (machine fast receiver first).run state
        [.timerTimeout, .segmentArrives segment, .ackReceived ackNum] = some next ∧
      state.minSeqSegment = some segment ∧ state.sendBase < next.sendBase ∧
      next.segments = state.segments := by
  have running := invariant.timed.mpr missing
  rw [invariant.numbered] at missing
  -- The segment at the base is among those that were sent, and the receiver accepts it.
  obtain ⟨segment, mem, found, early, reaches⟩ :=
    invariant.laid.exists_find invariant.base.1 missing
  have fits := invariant.laid.fits mem
  have accepted := correct.accepts _ _ _ invariant.received fits
    (early.trans invariant.base.2)
  have later : state.sendBase < first +
      (receiver.delivered (receiver.receive state.receiver segment)).length :=
    reaches.trans_le accepted
  obtain ⟨ackNum, answered⟩ : ∃ ackNum, ackNum = first +
      (receiver.delivered (receiver.receive state.receiver segment)).length := ⟨_, rfl⟩
  rw [← answered] at later
  -- The timer runs out and the segment is sent again.
  have again : (machine fast receiver first).step state .timerTimeout =
      some { state.retransmit (some segment) with timer := true } := by
    simp only [machine, TcpSender.step, running, if_true]
    rw [show state.minSeqSegment = some segment from found]
  -- It arrives, and the receiver answers with a later number.
  have arrival : (machine fast receiver first).step
      { state.retransmit (some segment) with timer := true } (.segmentArrives segment) =
      some { state.retransmit (some segment) with
        timer := true
        receiver := receiver.receive state.receiver segment
        acks := ackNum :: state.acks } := by
    rw [answered]
    exact if_pos (List.contains_iff_mem.mpr List.mem_cons_self)
  -- The answer arrives, and the base moves on.
  have acknowledged : (machine fast receiver first).step
      { state.retransmit (some segment) with
        timer := true
        receiver := receiver.receive state.receiver segment
        acks := ackNum :: state.acks } (.ackReceived ackNum) =
      some { state.retransmit (some segment) with
        receiver := receiver.receive state.receiver segment
        acks := ackNum :: state.acks
        sendBase := ackNum
        timer := !decide (ackNum = state.nextSeqNum) } := by
    simp only [machine, TcpSender.step]
    rw [if_pos (List.contains_iff_mem.mpr List.mem_cons_self)]
    exact if_pos later
  have last := (Machine.run_cons_eq_some _).mpr ⟨_, acknowledged, Machine.run_nil _ _⟩
  have both := (Machine.run_cons_eq_some _).mpr ⟨_, arrival, last⟩
  exact ⟨segment, ackNum, _, (Machine.run_cons_eq_some _).mpr ⟨_, again, both⟩, found, later, rfl⟩

/-- The events that still have to happen. -/
theorem Invariant.completes (invariant : Invariant receiver first state)
    (correct : receiver.Correct first) :
    ∃ events final, (∀ event ∈ events, ∀ data, event ≠ .getDataFromApp data) ∧
      (machine fast receiver first).run state events = some final ∧
      final.sendBase = final.nextSeqNum ∧ final.segments = state.segments := by
  -- In each round more bytes are acknowledged.
  generalize bound : (state.nextSeqNum - state.sendBase).toNat = left
  induction left using Nat.strong_induction_on generalizing state with
  | _ left ih =>
    have most := invariant.delivered_le correct
    have base := invariant.base
    by_cases missing : state.sendBase < state.nextSeqNum
    · obtain ⟨segment, ackNum, next, ran, _, further, same⟩ :=
        @Invariant.advances _ fast _ _ _ invariant correct missing
      have round : ∀ event ∈ [Event.timerTimeout, .segmentArrives segment, .ackReceived ackNum],
          ∀ data, event ≠ .getDataFromApp data := by simp
      have invariant_ := invariant.run correct
        (fun event mem data is => absurd is (round event mem data)) ran
      have numbered : next.nextSeqNum = state.nextSeqNum := by
        rw [invariant_.numbered, invariant.numbered, State.stream, State.stream, same]
      obtain ⟨events, final, only, ran_, ended, same_⟩ :=
        ih (next.nextSeqNum - next.sendBase).toNat (by omega) invariant_ rfl
      refine ⟨[.timerTimeout, .segmentArrives segment, .ackReceived ackNum] ++ events, final, ?_,
        ?_, ended, same_.trans same⟩
      · exact fun event mem => (List.mem_append.mp mem).elim (round event) (only event)
      · rw [Machine.run_append, ran]
        exact ran_
    · exact ⟨[], state, fun _ mem => absurd mem List.not_mem_nil, rfl, by omega, rfl⟩

/-- When everything has been acknowledged, everything has been delivered. -/
theorem Invariant.delivered_eq (invariant : Invariant receiver first state)
    (correct : receiver.Correct first) (ended : state.sendBase = state.nextSeqNum) :
    receiver.delivered state.receiver = state.stream := by
  -- What was delivered is a beginning of the stream, and all of it was acknowledged.
  have sound := correct.sound _ _ invariant.received
  refine sound.eq_of_length ?_
  have short := sound.length_le
  have base := invariant.base
  have numbered := invariant.numbered
  omega

end Runs

/-- What the sender guarantees, whatever the network does. -/
structure Reliable (fast : Bool) (receiver : Receiver UInt8 Memory) (first : Int)
    (state : State Memory) : Prop where
  /-- What has been delivered is the beginning of what the application has passed on. -/
  inOrder : receiver.delivered state.receiver <+: state.stream
  /-- Only bytes that have been delivered are regarded as acknowledged. -/
  acknowledged : state.sendBase ≤ first + (receiver.delivered state.receiver).length
  /-- The timer runs as long as something has not been acknowledged. -/
  timed : state.timer = true ↔ state.sendBase < state.nextSeqNum
  /-- There is something to be sent again whenever the timer runs out, and this helps. -/
  advances : state.timer = true → ∃ segment ackNum next, (machine fast receiver first).run state
      [.timerTimeout, .segmentArrives segment, .ackReceived ackNum] = some next ∧
    state.minSeqSegment = some segment ∧ state.sendBase < next.sendBase
  /-- All that has been passed on can still be delivered and acknowledged. -/
  completes : ∃ events final, (∀ event ∈ events, ∀ data, event ≠ .getDataFromApp data) ∧
    (machine fast receiver first).run state events = some final ∧
    final.sendBase = final.nextSeqNum ∧ receiver.delivered final.receiver = state.stream

/-- Whatever is lost, repeated or overtaken, the stream is delivered in order, and all of it can
be: with fast retransmit or without, and whether the receiver keeps segments or discards them. -/
theorem tcpSender_reliable (fast : Bool) (receiver : Receiver UInt8 Memory) (first : Int)
    (correct : receiver.Correct first) (events : List Event) (some_ : NonEmpty events)
    (state : State Memory)
    (ran : (machine fast receiver first).run (initial receiver first) events = some state) :
    Reliable fast receiver first state := by
  -- All parts rest on the invariant of the run.
  have invariant := invariant_initial.run correct some_ ran
  refine ⟨correct.sound _ _ invariant.received, invariant.base.2, invariant.timed, ?_, ?_⟩
  · intro running
    obtain ⟨segment, ackNum, next, ran_, found, further, _⟩ :=
      @Invariant.advances _ fast _ _ _ invariant correct (invariant.timed.mp running)
    exact ⟨segment, ackNum, next, ran_, found, further⟩
  · obtain ⟨later, final, only, ran_, ended, same⟩ :=
      @Invariant.completes _ fast _ _ _ invariant correct
    -- The events that complete the transfer bring no further data.
    have quiet : NonEmpty later := fun event mem data is => absurd is (only event mem data)
    refine ⟨later, final, only, ran_, ended, ?_⟩
    rw [(invariant.run correct quiet ran_).delivered_eq correct ended, State.stream, same]
    rfl

/-- Two segments, the first of which is lost and sent again. -/
theorem tcpSender_reliable_lost : ∃ state : State (List UInt8),
    state.stream = [97, 98] ∧ state.receiver = [97, 98] ∧ state.timer = false ∧
      Reliable true (Receiver.discarding 0) 0 state :=
  -- The first segment is lost, and sent again when the timer runs out.
  ⟨_, rfl, rfl, rfl, tcpSender_reliable true (Receiver.discarding 0) 0 Receiver.discarding_correct
    [.getDataFromApp [97], .getDataFromApp [98], .segmentArrives ⟨1, [98]⟩, .ackReceived 0,
      .timerTimeout, .segmentArrives ⟨0, [97]⟩, .segmentArrives ⟨1, [98]⟩, .ackReceived 2]
    (by simp [NonEmpty]) _ rfl⟩

/-- When the application passes on nothing, the timer runs with nothing to be sent again. -/
theorem not_advances_empty : ∃ state, (machine false (Receiver.discarding 0) 0).run
    (initial (Receiver.discarding 0) 0) [.getDataFromApp []] = some state ∧
      state.timer = true ∧ state.minSeqSegment = none :=
  ⟨_, rfl, rfl, rfl⟩

/-- Duplicates are counted even when there is nothing that could be sent again. -/
theorem dupACK_without_segment : ∃ state, (machine true (Receiver.discarding 0) 0).run
    (initial (Receiver.discarding 0) 0) [.getDataFromApp [97], .segmentArrives ⟨0, [97]⟩,
      .ackReceived 1, .ackReceived 1, .ackReceived 1] = some state ∧
    state.dupACKcount = 2 ∧ state.sendBase = state.nextSeqNum ∧
      state.segments.find? (fun segment => segment.seq = state.sendBase) = none :=
  -- All data is acknowledged, so no segment begins at the base.
  ⟨_, rfl, rfl, rfl, rfl⟩

end SysProg.Networks.TcpSender
