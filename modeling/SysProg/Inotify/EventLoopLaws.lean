import SysProg.Inotify.CallLogLaws

/-! The loop over the events in the buffer, with its secondary reads. -/

namespace SysProg.Inotify

/-- What is true at the start of each iteration, with these events left in the buffer. -/
structure LoopInvariant (world : World) (start : Program) (state : LoopState)
    (log : List LogEntry) (pending : List InotifyEvent) : Prop where
  traced : Traces world start log state.program
  queue : unhandled log = some pending
  steady : ∀ handling, .event handling ∈ log → handling.reinitialized = false
  wellFormed : ∀ ev ∈ pending, ev.WellFormed
  holds : state.buf.Holds state.evp (encodeAll pending)
  inside : state.evp + (encodeAll pending).length ≤ inotifyReadBufLen
  /-- The number of valid bytes, which is one too small after a secondary read without result. -/
  numRead : state.numRead = state.evp + (encodeAll pending).length ∨
    (state.numRead = state.evp + (encodeAll pending).length - 1 ∧ pending.length ≤ 1 ∧
      (state.firstTry = true → pending = []))
  /-- The second try of an event follows a secondary read, which has a result or is interrupted. -/
  retry : state.firstTry = false → pending ≠ [] ∧ ∃ earlier result, earlier ≠ [] ∧
    log = earlier ++ [.read result] ∧ (pending.length = 1 → result = .eintr)
  /-- The first try of an event follows the first read or another event. -/
  fresh : state.firstTry = true → log.length = 1 ∨
    ∃ earlier handling, log = earlier ++ [.event handling]

variable {world : World} {start : Program}

/-- The loop goes on exactly when events are left. -/
theorem LoopInvariant.continues_iff {state : LoopState} {log : List LogEntry}
    {pending : List InotifyEvent} (invariant : LoopInvariant world start state log pending) :
    state.evp < state.numRead ↔ pending ≠ [] := by
  -- The pointer is at the end of the buffer, or before the events that are still to be handled.
  cases pending with
  | nil =>
    rcases invariant.numRead with all | ⟨less, _⟩
    · simp [all, encodeAll]
    · simp [less, encodeAll]
  | cons ev rest =>
    have large := size_pos ev
    have length := length_encodeAll_cons ev rest
    rcases invariant.numRead with all | ⟨less, _⟩
    · simp only [all, ne_eq, reduceCtorEq, not_false_eq_true, iff_true]
      omega
    · simp only [less, ne_eq, reduceCtorEq, not_false_eq_true, iff_true]
      omega

/-- In the loop, the next event and the one after it are decoded correctly. -/
theorem LoopInvariant.processNext {state : LoopState} {log : List LogEntry} {ev : InotifyEvent}
    {rest : List InotifyEvent} (invariant : LoopInvariant world start state log (ev :: rest))
    (opts : Options) :
    processNextInotifyEvent opts world state.program state.buf state.evp
        (state.numRead - state.evp) state.firstTry =
      handleNextEvent opts world state.program ev rest.head? state.firstTry := by
  -- The buffer holds the encoded events from the pointer on.
  have length := length_encodeAll_cons ev rest
  refine processNextInotifyEvent_eq invariant.wellFormed invariant.holds ?_ ?_
  · rintro rfl
    rw [show (encodeAll []).length = 0 from rfl] at length
    rcases invariant.numRead with all | ⟨less, _⟩ <;> omega
  -- A second event makes the rest of the buffer larger than the first one.
  · intro more
    obtain ⟨next, others, rfl⟩ := List.exists_cons_of_ne_nil more
    have large := size_pos next
    have length_ := length_encodeAll_cons next others
    rcases invariant.numRead with all | ⟨_, one, _⟩
    · omega
    · simp at one

/--
How an iteration goes on: it handles the first events that are left, or it does another read for the
only one, which hangs.
-/
inductive Advances (world : World) (state next : LoopState) (pending : List InotifyEvent) :
    List InotifyEvent → Prop
  | handles {taken left : List InotifyEvent} (split_ : pending = taken ++ left)
      (some_ : taken ≠ []) (first : next.firstTry = true)
      (reads : next.program.inotifyReadCnt = state.program.inotifyReadCnt) :
    Advances world state next pending left
  | hangs {ev : InotifyEvent} {more : List InotifyEvent} (only : pending = [ev])
      (kind : ev.kind = .movedFrom) (first : state.firstTry = true) (second : next.firstTry = false)
      (reads : next.program.inotifyReadCnt = state.program.inotifyReadCnt + 1)
      (arrives : more = [] ∨
        ∃ count, world.read state.program.inotifyReadCnt count = .events more) :
    Advances world state next pending (ev :: more)

/-- Handling the first events that are left keeps the invariant. -/
theorem LoopInvariant.consume {state : LoopState} {log : List LogEntry}
    (taken : List InotifyEvent) {left : List InotifyEvent}
    (invariant : LoopInvariant world start state log (taken ++ left))
    (some_ : taken ≠ []) {handling : Handling}
    (queue : unhandled (log ++ [.event handling]) = some left)
    (steady : handling.reinitialized = false) {program : Program}
    (traced : Traces world start (log ++ [.event handling]) program) :
    LoopInvariant world start { state with
      program := program
      evp := state.evp + (encodeAll taken).length
      firstTry := true } (log ++ [.event handling]) left := by
  have holds := invariant.holds
  rw [encodeAll_append] at holds
  have length : (encodeAll (taken ++ left)).length =
      (encodeAll taken).length + (encodeAll left).length := by
    rw [encodeAll_append, List.length_append]
  constructor
  case traced => exact traced
  case queue => exact queue
  case steady =>
    intro other mem
    rcases List.mem_append.mp mem with old | new
    · exact invariant.steady other old
    · obtain rfl : other = handling := by simpa using new
      exact steady
  case wellFormed => exact fun ev mem => invariant.wellFormed ev (List.mem_append_right _ mem)
  case holds => exact (Memory.holds_append.mp holds).2
  case inside =>
    have inside := invariant.inside
    dsimp only
    omega
  case numRead =>
    rcases invariant.numRead with all | ⟨less, one, _⟩
    · left
      rw [all]
      push_cast [length]
      ring
    -- A retried read holds one event alone, so nothing is left once it is taken.
    · right
      have nothing : left = [] := by
        have positive := List.length_pos_of_ne_nil some_
        rw [List.length_append] at one
        exact List.length_eq_zero_iff.mp (by omega)
      refine ⟨?_, by simp [nothing], fun _ => nothing⟩
      rw [less]
      push_cast [length]
      ring
  case retry => exact nofun
  case fresh => exact fun _ => .inr ⟨log, handling, rfl⟩

section SecondaryRead

variable {state : LoopState} {log : List LogEntry} {ev : InotifyEvent}

/-- The bytes of a single event. -/
theorem encodeAll_singleton (ev : InotifyEvent) : encodeAll [ev] = ev.encode := by
  simp [encodeAll]

/-- What is left of the buffer is an event that hangs. -/
theorem LoopInvariant.left (invariant : LoopInvariant world start state log [ev])
    (first : state.firstTry = true) : state.numRead - state.evp = ev.size := by
  -- At the first try the buffer holds this event and nothing behind it.
  rcases invariant.numRead with all | ⟨_, _, nothing⟩
  · rw [all, encodeAll_singleton, length_encode]
    ring
  · cases nothing first

/-- Before the first try of an event there has been a read. -/
theorem LoopInvariant.log_ne_nil {pending : List InotifyEvent}
    (invariant : LoopInvariant world start state log pending) (first : state.firstTry = true) :
    log ≠ [] := by
  rcases invariant.fresh first with one | ⟨_, _, rfl⟩
  · exact List.ne_nil_of_length_pos (by omega)
  · simp

/-- An event that hangs is moved to the start of the buffer. -/
theorem LoopInvariant.moved (invariant : LoopInvariant world start state log [ev]) :
    (state.buf.moveDown state.evp ev.size).Holds 0 ev.encode := by
  have holds := invariant.holds
  rw [encodeAll_singleton] at holds
  exact Memory.holds_moveDown holds (length_encode ev).le

/-- Another entry for a read is no event that has built the cache anew. -/
theorem LoopInvariant.steady_read {pending : List InotifyEvent}
    (invariant : LoopInvariant world start state log pending) (result : ReadResult)
    (handling : Handling) (mem : .event handling ∈ log ++ [.read result]) :
    handling.reinitialized = false :=
  invariant.steady handling (by simpa using mem)

/-- Another read asks for what is left of the buffer, and is counted. -/
theorem LoopInvariant.traced_read {count : Nat} {result : ReadResult}
    (invariant : LoopInvariant world start state log [ev])
    (answer : world.read state.program.inotifyReadCnt count = result) :
    Traces world start (log ++ [.read result])
      { state.program with inotifyReadCnt := state.program.inotifyReadCnt + 1 } :=
  .read invariant.traced answer

/-- More events arrive behind the one that hangs. -/
theorem LoopInvariant.arrives (sound : world.Sound)
    (invariant : LoopInvariant world start state log [ev]) (first : state.firstTry = true)
    {evs : List InotifyEvent}
    (answer : world.read state.program.inotifyReadCnt (inotifyReadBufLen - ev.size) =
      .events evs) :
    LoopInvariant world start
      { program :=
          { state.program with inotifyReadCnt := state.program.inotifyReadCnt + 1 }
        buf := (state.buf.moveDown state.evp ev.size).store ev.size (encodeAll evs)
        evp := 0
        numRead := ev.size + (encodeAll evs).length
        firstTry := false } (log ++ [.read (.events evs)]) ([ev] ++ evs) := by
  have bound := invariant.inside
  rw [encodeAll_singleton, length_encode] at bound
  have bytes : encodeAll ([ev] ++ evs) = ev.encode ++ encodeAll evs := by
    rw [encodeAll_append, encodeAll_singleton]
  constructor
  case traced => exact invariant.traced_read answer
  case queue => exact unhandled_append invariant.queue _
  case steady => exact invariant.steady_read _
  case wellFormed =>
    intro other mem
    rcases List.mem_append.mp mem with old | new
    · exact invariant.wellFormed other old
    · exact sound.wellFormed _ _ _ answer other new
  case holds =>
    -- The new events are put right behind the old one, which stays as it is.
    rw [bytes]
    refine Memory.holds_append.mpr ⟨Memory.holds_store_before invariant.moved ?_, ?_⟩
    · rw [length_encode, Nat.zero_add]
    · rw [length_encode, Nat.zero_add]
      exact Memory.holds_store _ _ _
  case inside =>
    have fits := sound.fits _ _ _ answer
    rw [bytes, List.length_append, length_encode]
    dsimp only
    omega
  case numRead =>
    left
    rw [bytes, List.length_append, length_encode]
    push_cast
    ring
  case retry =>
    refine fun _ => ⟨by simp, log, _, invariant.log_ne_nil first, rfl, fun one => ?_⟩
    have some_ := List.length_pos_of_ne_nil (sound.nonempty _ _ _ answer)
    rw [List.length_append, List.length_singleton] at one
    omega
  case fresh => exact nofun

/-- No event arrives, and the result -1 is added to the number of bytes. -/
theorem LoopInvariant.interrupted (invariant : LoopInvariant world start state log [ev])
    (first : state.firstTry = true)
    (answer : world.read state.program.inotifyReadCnt (inotifyReadBufLen - ev.size) = .eintr) :
    LoopInvariant world start
      { program :=
          { state.program with inotifyReadCnt := state.program.inotifyReadCnt + 1 }
        buf := state.buf.moveDown state.evp ev.size
        evp := 0
        numRead := ev.size + (-1)
        firstTry := false } (log ++ [.read .eintr]) [ev] := by
  have bound := invariant.inside
  rw [encodeAll_singleton, length_encode] at bound
  constructor
  case traced => exact invariant.traced_read answer
  case queue => exact unhandled_append invariant.queue _
  case steady => exact invariant.steady_read _
  case wellFormed => exact invariant.wellFormed
  case holds =>
    rw [encodeAll_singleton]
    exact invariant.moved
  case inside =>
    rw [encodeAll_singleton, length_encode]
    dsimp only
    omega
  -- read() has returned -1, and the source adds it to what the buffer holds.
  case numRead =>
    right
    rw [encodeAll_singleton, length_encode]
    refine ⟨?_, le_refl _, nofun⟩
    push_cast
    ring
  -- The event is looked at for the second time now.
  case retry =>
    exact fun _ => ⟨by simp, log, _, invariant.log_ne_nil first, rfl, fun _ => rfl⟩
  case fresh => exact nofun

/-- A secondary read for an event that hangs keeps the invariant. -/
theorem LoopInvariant.secondaryRead (sound : world.Sound)
    (invariant : LoopInvariant world start state log [ev]) (first : state.firstTry = true)
    (kind : ev.kind = .movedFrom) {result : ReadResult} {next : LoopState}
    (read : secondaryRead world state = (result, .ok next)) :
    ∃ pending, LoopInvariant world start next (log ++ [.read result]) pending ∧
      Advances world state next [ev] pending := by
  rw [Inotify.secondaryRead, invariant.left first, Int.toNat_natCast] at read
  -- read() fails, brings nothing, brings events, or is interrupted.
  cases answer : world.read state.program.inotifyReadCnt (inotifyReadBufLen - ev.size) with
  | failed => simp [answer] at read
  | nothing => simp [answer] at read
  | events evs =>
    rw [answer] at read
    obtain ⟨rfl, next_⟩ := Prod.mk.inj read
    cases next_
    -- The events are put behind the one that hangs.
    exact ⟨[ev] ++ evs, invariant.arrives sound first answer,
      .hangs rfl kind first rfl rfl (.inr ⟨_, answer⟩)⟩
  | eintr =>
    rw [answer] at read
    obtain ⟨rfl, next_⟩ := Prod.mk.inj read
    cases next_
    -- The one that hangs stays alone.
    exact ⟨[ev], invariant.interrupted first answer, .hangs rfl kind first rfl rfl (.inl rfl)⟩

/-- A secondary read that fails is the last thing that happens. -/
theorem secondaryRead_fails (invariant : LoopInvariant world start state log [ev])
    {result : ReadResult} {exit : Exit} (read : secondaryRead world state = (result, .error exit)) :
    (result = .failed ∨ result = .nothing) ∧ exit = .failure ∧
      ∃ after, Traces world start (log ++ [.read result]) after := by
  simp only [secondaryRead, Prod.mk.injEq] at read
  obtain ⟨answer, failed⟩ := read
  rw [answer] at failed
  refine ⟨?_, ?_, _, invariant.traced_read answer⟩
  -- With events, or after an interruption, the loop would have gone on.
  · cases result with
    | failed => exact .inl rfl
    | nothing => exact .inr rfl
    | events evs => cases failed
    | eintr => cases failed
  · cases result <;> cases failed <;> rfl

end SecondaryRead

/-- What an iteration of the loop can do, however many are still allowed after it. -/
inductive Iteration (opts : Options) (world : World) (start : Program) (state : LoopState)
    (log : List LogEntry) (pending : List InotifyEvent) : Prop
  /-- No event is left, and the call returns. -/
  | returns (nothing : pending = [])
      (ran : ∀ fuel, processEvents opts world (fuel + 1) state = ([], .returned state.program))
  /-- The program exits. -/
  | exits (more : List LogEntry) (exit : Exit) (safe : SafeLog (log ++ more))
      (traced : ∃ after, Traces world start (log ++ more) after)
      (ends : Ends opts world start (log ++ more) exit) (defined : exit ≠ .undefined)
      (ran : ∀ fuel, processEvents opts world (fuel + 1) state = (more, .exited exit))
  /-- The cache is built anew, and nothing is left of the buffer. -/
  | abandons (handling : Handling) (next : LoopState) (safe : SafeLog (log ++ [.event handling]))
      (traced : Traces world start (log ++ [.event handling]) next.program)
      (reinitialized : handling.reinitialized = true) (over_ : next.numRead ≤ next.evp)
      (ran : ∀ fuel, processEvents opts world (fuel + 1) state =
        (.event handling :: (processEvents opts world fuel next).1,
          (processEvents opts world fuel next).2))
  /-- An event is handled, or more events are read. -/
  | goesOn (entry : LogEntry) (next : LoopState) (pendingNext : List InotifyEvent)
      (safe : SafeLog (log ++ [entry]))
      (invariant : LoopInvariant world start next (log ++ [entry]) pendingNext)
      (advances : Advances world state next pending pendingNext)
      (ran : ∀ fuel, processEvents opts world (fuel + 1) state =
        (entry :: (processEvents opts world fuel next).1, (processEvents opts world fuel next).2))

/-- An iteration that handles events goes on with the rest of the buffer. -/
theorem processEvents_of_handled {opts : Options} {world : World} {state : LoopState}
    {outcome : Outcome} (continues : state.evp < state.numRead)
    (processed : processNextInotifyEvent opts world state.program state.buf state.evp
      (state.numRead - state.evp) state.firstTry = .ok outcome)
    (positive : 0 < outcome.evLen) (fuel : Nat) :
    processEvents opts world (fuel + 1) state =
      let next := { state with
        program := outcome.program
        evp := state.evp + outcome.evLen.toNat
        firstTry := true }
      (.event outcome.handling :: (processEvents opts world fuel next).1,
        (processEvents opts world fuel next).2) := by
  -- The loop goes on behind the event, whose length was returned.
  rw [processEvents, if_pos continues, processed]
  simp only [if_pos positive]

/-- An iteration in which an event hangs goes on with a secondary read. -/
theorem processEvents_of_hanging {opts : Options} {world : World} {state : LoopState}
    {outcome : Outcome} (continues : state.evp < state.numRead)
    (processed : processNextInotifyEvent opts world state.program state.buf state.evp
      (state.numRead - state.evp) state.firstTry = .ok outcome)
    (hanging : outcome.evLen = -1) (fuel : Nat) :
    processEvents opts world (fuel + 1) state =
      match secondaryRead world { state with program := outcome.program } with
      | (result, .error exit) => ([.read result], .exited exit)
      | (result, .ok next) => (.read result :: (processEvents opts world fuel next).1,
          (processEvents opts world fuel next).2) := by
  -- The loop reads again, as -1 was returned.
  rw [processEvents, if_pos continues, processed]
  simp only [hanging]
  rfl

section Iterate

variable {opts : Options} {state : LoopState} {log : List LogEntry} {outcome : Outcome}

/-- An iteration handles events at the start of what is left, and goes on with the others. -/
theorem iterate_handled {taken left : List InotifyEvent}
    (invariant : LoopInvariant world start state log (taken ++ left)) (some_ : taken ≠ [])
    (processed : processNextInotifyEvent opts world state.program state.buf state.evp
      (state.numRead - state.evp) state.firstTry = .ok outcome)
    (safe : SafeLog (log ++ [.event outcome.handling]))
    (traced : Traces world start (log ++ [.event outcome.handling]) outcome.program)
    (queue : unhandled (log ++ [.event outcome.handling]) = some left)
    (steady : outcome.handling.reinitialized = false)
    (evLen : outcome.evLen = (encodeAll taken).length)
    (reads : outcome.program.inotifyReadCnt = state.program.inotifyReadCnt) :
    Iteration opts world start state log (taken ++ left) := by
  have continues := invariant.continues_iff.mpr (List.append_ne_nil_of_left_ne_nil some_ left)
  -- The length is positive, since no event is empty.
  have positive : 0 < outcome.evLen := by
    obtain ⟨ev, more, rfl⟩ := List.exists_cons_of_ne_nil some_
    have large := size_pos ev
    have length := length_encodeAll_cons ev more
    omega
  have ran := processEvents_of_handled continues processed positive
  rw [evLen, Int.toNat_natCast] at ran
  exact .goesOn _ _ left safe (invariant.consume taken some_ queue steady traced)
    (.handles rfl some_ rfl reads) ran

/-- An iteration builds the cache anew, and leaves nothing of the buffer. -/
theorem iterate_abandons {pending : List InotifyEvent}
    (invariant : LoopInvariant world start state log pending) (some_ : pending ≠ [])
    (processed : processNextInotifyEvent opts world state.program state.buf state.evp
      (state.numRead - state.evp) state.firstTry = .ok outcome)
    (safe : SafeLog (log ++ [.event outcome.handling]))
    (traced : Traces world start (log ++ [.event outcome.handling]) outcome.program)
    (again : outcome.handling.reinitialized = true) (all : outcome.evLen = inotifyReadBufLen) :
    Iteration opts world start state log pending := by
  have continues := invariant.continues_iff.mpr some_
  have positive : 0 < outcome.evLen := by
    rw [all]
    decide
  refine .abandons outcome.handling _ safe traced again ?_
    (processEvents_of_handled continues processed positive)
  -- What is valid in the buffer is not more than its size.
  have inside := invariant.inside
  rw [all, Int.toNat_natCast]
  rcases invariant.numRead with numRead | ⟨numRead, _⟩ <;> rw [numRead] <;> push_cast <;> omega

/-- An iteration in which the only event hangs is a secondary read. -/
theorem iterate_hangs (sound : world.Sound) (safe : SafeLog log) {ev : InotifyEvent}
    (invariant : LoopInvariant world start state log [ev]) (first : state.firstTry = true)
    (kind : ev.kind = .movedFrom)
    (processed : processNextInotifyEvent opts world state.program state.buf state.evp
      (state.numRead - state.evp) state.firstTry = .ok outcome)
    (hanging : outcome.evLen = -1) (looked : outcome.program = state.program.counted) :
    Iteration opts world start state log [ev] := by
  have continues := invariant.continues_iff.mpr (List.cons_ne_nil ev [])
  have ran := processEvents_of_hanging continues processed hanging
  rw [looked] at ran
  -- The look at the event has changed nothing that matters.
  have invariant_ : LoopInvariant world start { state with program := state.program.counted } log
      [ev] :=
    { invariant with traced := .hangs invariant.traced invariant.queue kind }
  have fresh : log.length ≤ 1 ∨ ∃ earlier handling, log = earlier ++ [.event handling] :=
    (invariant.fresh first).imp le_of_eq id
  cases read : secondaryRead world { state with program := state.program.counted } with
  | mk result after =>
    have safe_ := safe.read invariant.steady fresh result
    rw [read] at ran
    cases after with
    | error exit =>
      obtain ⟨fails, rfl, traced⟩ := secondaryRead_fails invariant_ read
      exact .exits [.read result] .failure safe_ traced (.read (fails.imp_right .inl)) nofun ran
    | ok next =>
      obtain ⟨pending, invariantNext, advances⟩ := invariant_.secondaryRead sound first kind read
      have advances_ : Advances world state next [ev] pending := by
        cases advances with
        | handles split_ some_ first reads => exact .handles split_ some_ first reads
        | hangs only kind first second reads arrives =>
          exact .hangs only kind first second reads arrives
      exact .goesOn _ next pending safe_ invariantNext advances_ ran

end Iterate

/-- What is right about an event that is handled in an iteration. -/
theorem LoopInvariant.right {state : LoopState} {log : List LogEntry}
    {ev : InotifyEvent} {rest : List InotifyEvent} {outcome : Outcome}
    (invariant : LoopInvariant world start state log (ev :: rest))
    (fits : outcome.Fits state.program ev rest.head? state.firstTry)
    (handles : Handles world state.program ev rest.head? outcome.handling outcome.program)
    (again : rest = [] → ev.kind = .movedFrom → outcome.handling.action = .unknownWatch ∨
      state.firstTry = false) : outcome.handling.Right log := by
  obtain ⟨same, evLen, movedOut, reads⟩ := fits
  -- A second try has no partner only if the secondary read was interrupted.
  have interrupted : rest = [] → state.firstTry = false →
      ∃ earlier, earlier ≠ [] ∧ log = earlier ++ [.read .eintr] := by
    rintro rfl second
    obtain ⟨_, earlier, result, nonempty, rfl, eintr⟩ := invariant.retry second
    exact ⟨earlier, nonempty, by rw [eintr rfl]⟩
  constructor
  case pairs => exact fun partner found => same ▸ (handles.pairs found).2
  case together =>
    intro next more queue kind partners
    rw [invariant.queue, same] at queue
    obtain rfl := (List.cons.inj (Option.some.inj queue)).2
    rw [same] at kind partners
    exact handles.together kind partners
  case waits =>
    intro kind queue
    rw [invariant.queue, same] at queue
    obtain rfl := (List.cons.inj (Option.some.inj queue)).2
    rw [same] at kind
    exact (again rfl kind).imp_right (interrupted rfl)
  case movedOut =>
    intro out
    obtain ⟨alone, second⟩ := movedOut out
    refine ⟨rest, by rw [same, invariant.queue], ?_⟩
    cases rest with
    | cons next more => exact .inl ⟨next, more, rfl, same ▸ alone next rfl⟩
    | nil => exact .inr ⟨rfl, interrupted rfl (second rfl)⟩

/-- The last event in the buffer is no reason to exit before the secondary read. -/
theorem LoopInvariant.waits {opts : Options} {state : LoopState} {log : List LogEntry}
    {ev : InotifyEvent} {rest : List InotifyEvent} {exit : Exit}
    (invariant : LoopInvariant world start state log (ev :: rest)) (kind : ev.kind = .movedFrom)
    (alone : rest = [])
    (failed : handleNextEvent opts world state.program ev rest.head? state.firstTry =
      .error exit) :
    findWatch state.program.cache ev.wd.toInt = none ∨
      ∃ earlier, earlier ≠ [] ∧ log = earlier ++ [.read .eintr] := by
  subst alone
  -- A watch that is known makes the event hang at the first try, which is no exit.
  cases found : findWatch state.program.cache ev.wd.toInt with
  | none => exact .inl rfl
  | some slot =>
    right
    cases tries : state.firstTry with
    | true =>
      rw [tries, List.head?_nil, handleNextEvent_first kind found] at failed
      cases failed
    | false =>
      obtain ⟨_, earlier, result, nonempty, rfl, eintr⟩ := invariant.retry tries
      exact ⟨earlier, nonempty, by rw [eintr rfl]⟩

/-- Every iteration of the loop does what it should. -/
theorem iterate (opts : Options) (sound : world.Sound) {state : LoopState}
    {log : List LogEntry} {pending : List InotifyEvent} (safe : SafeLog log)
    (invariant : LoopInvariant world start state log pending) :
    Iteration opts world start state log pending := by
  cases pending with
  | nil =>
    refine .returns rfl fun fuel => ?_
    rw [processEvents, if_neg fun continues => invariant.continues_iff.mp continues rfl]
  | cons ev rest =>
    have continues := invariant.continues_iff.mpr (List.cons_ne_nil ev rest)
    have wellFormed := invariant.wellFormed ev List.mem_cons_self
    have fits : Safe (handleNextEvent opts world state.program ev rest.head? state.firstTry)
        fun outcome => outcome.Fits state.program ev rest.head? state.firstTry :=
      handleNextEvent_fits wellFormed
    have processed := invariant.processNext opts
    cases result : handleNextEvent opts world state.program ev rest.head? state.firstTry with
    | error exit =>
      rw [result] at fits processed
      have reason := handleNextEvent_exits wellFormed result
      refine .exits [] exit ?_ ?_ ?_ fits fun fuel => ?_
      · rwa [List.append_nil]
      · rw [List.append_nil]
        exact ⟨_, invariant.traced⟩
      · rw [List.append_nil]
        refine .event invariant.traced invariant.queue (fun kind alone => ?_) reason
        exact invariant.waits kind alone result
      · rw [processEvents, if_pos continues, processed]
    | ok outcome =>
      rw [result] at fits processed
      rcases handleNextEvent_handles wellFormed result with hangs | ⟨positive, handles⟩
      · -- The event hangs, so it is the only one that is left.
        obtain rfl := List.head?_eq_none_iff.mp hangs.last
        exact iterate_hangs sound safe invariant hangs.first hangs.kind processed hangs.evLen
          hangs.looked
      have same := fits.event
      have right : outcome.handling.Right log := by
        apply invariant.right fits handles
        rintro rfl kind
        exact handleNextEvent_retries wellFormed kind result positive
      have queue : unhandled log = some (outcome.handling.event :: rest) := by
        rw [same]
        exact invariant.queue
      have head : ∀ partner, outcome.handling.partner = some partner → rest.head? = some partner :=
        fun partner found => (handles.pairs found).1
      have safe_ := safe.event invariant.steady queue head right
      have traced : Traces world start (log ++ [.event outcome.handling]) outcome.program :=
        .event invariant.traced queue (same.symm ▸ handles)
      -- The event ends the buffer, is handled alone, or is handled with its partner.
      rcases fits.evLen with ⟨hanging, _, _⟩ | ⟨all, alone, again⟩ | ⟨one, alone, steady⟩ |
        ⟨partner, next, partners, both, found, steady⟩
      · omega
      · exact iterate_abandons invariant (by simp) processed safe_ traced again all
      · have left : unhandled (log ++ [.event outcome.handling]) = some rest := by
          rw [unhandled_append queue, replay, if_pos rfl, alone]
        have taken : outcome.evLen = (encodeAll [ev]).length := by
          rw [one, encodeAll_singleton, length_encode]
        have split_ : LoopInvariant world start state log ([ev] ++ rest) := invariant
        exact iterate_handled split_ (by simp) processed safe_ traced left steady taken
          fits.inotifyReadCnt
      · obtain ⟨others, rfl⟩ := List.head?_eq_some_iff.mp next
        have left : unhandled (log ++ [.event outcome.handling]) = some others := by
          rw [unhandled_append queue, replay, if_pos rfl, found]
          simp
        have taken : outcome.evLen = (encodeAll [ev, partner]).length := by
          rw [both, length_encodeAll_cons, encodeAll_singleton, length_encode]
          push_cast
          rfl
        have split_ : LoopInvariant world start state log ([ev, partner] ++ others) := invariant
        exact iterate_handled split_ (by simp) processed safe_ traced left steady taken
          fits.inotifyReadCnt

/-- A call that is right so far is right however many iterations follow. -/
theorem processEvents_correct {opts : Options} (sound : world.Sound) (fuel : Nat)
    {state : LoopState} {log : List LogEntry} {pending : List InotifyEvent} (safe : SafeLog log)
    (invariant : LoopInvariant world start state log pending) :
    CallCorrect opts world start (log ++ (processEvents opts world fuel state).1)
      (processEvents opts world fuel state).2 := by
  -- The induction takes one iteration at a time, and what it adds to the log.
  induction fuel generalizing state log pending with
  | zero =>
    simp only [processEvents, List.append_nil]
    exact ⟨safe, ⟨_, invariant.traced, nofun⟩, nofun, nofun, nofun⟩
  | succ fuel ih =>
    cases iterate opts sound safe invariant with
    | returns nothing ran =>
      rw [ran]
      simp only [List.append_nil]
      refine ⟨safe, ⟨_, invariant.traced, fun program same => ?_⟩, fun _ _ => .inl ?_, nofun,
        nofun⟩
      · exact (Ending.returned.inj same).symm
      · rw [invariant.queue, nothing]
    | exits more exit safe traced ends defined ran =>
      rw [ran]
      obtain ⟨after, traces⟩ := traced
      refine ⟨safe, ⟨after, traces, nofun⟩, nofun, fun other same => ?_, fun same => ?_⟩
      · rwa [← Ending.exited.inj same]
      · exact defined (Ending.exited.inj same)
    | abandons handling next safe traced reinitialized over_ ran =>
      -- The buffer was left behind: the loop's test fails at the next iteration.
      have done : (processEvents opts world fuel next).1 = [] ∧
          ((processEvents opts world fuel next).2 = .outOfFuel ∨
            (processEvents opts world fuel next).2 = .returned next.program) := by
        cases fuel with
        | zero => exact ⟨rfl, .inl rfl⟩
        | succ fuel =>
          rw [processEvents, if_neg (not_lt.mpr over_)]
          exact ⟨rfl, .inr rfl⟩
      rw [ran, done.1]
      refine ⟨safe, ⟨_, traced, fun program same => ?_⟩,
        fun _ _ => .inr ⟨log, handling, rfl, reinitialized⟩, fun exit same => ?_, fun same => ?_⟩
      · rcases done.2 with ended | ended <;> rw [ended] at same <;> cases same
        rfl
      · rcases done.2 with ended | ended <;> rw [ended] at same <;> cases same
      · rcases done.2 with ended | ended <;> rw [ended] at same <;> cases same
    | goesOn entry next pendingNext safe invariant advances ran =>
      rw [ran]
      have rest := ih safe invariant
      rwa [List.append_assoc] at rest

end SysProg.Inotify
