import SysProg.Altio.SelfPipe

/-! What the handler has written keeps `select` from waiting, until `main` has read it. -/

namespace SysProg.Altio.SelfPipe

/-- Setting the flag makes both ends fail where they would block. -/
theorem nonblocking_or (flags : Nat) : nonblocking (flags ||| oNonblock) = true := by
  -- The flag is bit 11, which the other flags leave alone.
  have set : oNonblock.testBit 11 = true := Nat.testBit_two_pow_self
  rw [nonblocking, Nat.testBit_or, set, Bool.or_true]

/-- The flags have been set as far as the program has got. -/
def MainPc.FlagsFit (readFlags writeFlags : Nat) : MainPc → Prop
  | .pipe | .getRead | .errExit => True
  | .setRead flags => nonblocking flags = true
  | .getWrite => nonblocking readFlags = true
  | .setWrite flags => nonblocking readFlags = true ∧ nonblocking flags = true
  | _ => nonblocking readFlags = true ∧ nonblocking writeFlags = true

/-- What the handler knows of `errno` where it stands. -/
def Handler.Fits (handler : Handler) (errno : Nat) : Prop :=
  match handler.pc with
  | .save | .returns => errno = handler.found
  | .write | .restore => handler.savedErrno = handler.found
  | .test failed => handler.savedErrno = handler.found ∧ (failed = true → errno = eagain)

/-- The handler has written to the pipe, or has found it full. -/
def Handler.wrote (handler : Handler) : Bool :=
  match handler.pc with
  | .save | .write => false
  | .test _ | .restore | .returns => true

/-- The handler runs, and has written to the pipe or found it full. -/
def State.Wrote (state : State) : Prop :=
  ∃ handler, state.handler = some handler ∧ handler.wrote = true

/-- The `errno` that `main` sees when it goes on. -/
def State.mainErrno (state : State) : Nat :=
  state.handler.elim state.errno Handler.found

/-- `readfds` is what `select` is asked for. -/
def MainPc.Asks : MainPc → Prop
  | .pipe | .isset | .read | .testRead | .report | .errExit => False
  | .testSelect ready => ready = -1
  | _ => True

/-- `readfds` is what `select` has returned. -/
def MainPc.Selected : MainPc → Prop
  | .isset | .read | .testRead | .report => True
  | .testSelect ready => ready ≠ -1
  | _ => False

/-- Nothing has been read from the pipe. -/
def MainPc.Unread : MainPc → Prop
  | .read | .testRead | .report | .errExit => False
  | _ => True

/-- The loop has made its last read, if it was entered. -/
def MainPc.Drained (entered : Bool) : MainPc → Prop
  | .testRead => True
  | .report => entered = true
  | _ => False

/-- The program is in the loop that consumes the bytes. -/
def MainPc.InLoop : MainPc → Prop
  | .read | .testRead => True
  | _ => False

/-- The program is in the loop that consumes the bytes, or past it. -/
def MainPc.Past : MainPc → Prop
  | .read | .testRead | .report | .errExit => True
  | _ => False

variable {setup : Setup} {state next : State}

/-- What holds at all times. -/
structure Invariant (setup : Setup) (state : State) : Prop where
  -- Once they are set, the flags make both ends fail where they would block.
  flags : state.main.FlagsFit state.readFlags state.writeFlags
  handler : ∀ handler, state.handler = some handler →
    handler.Fits state.errno ∧ (state.main.established = true)
  -- `readfds` has the read end in it whenever `select` is called.
  member : state.main.Asks → state.readfds setup.readEnd = true
  -- What has been handled is in the pipe until `main` reads.
  kept : state.main.Unread → 0 < state.handled ∨ state.Wrote → 0 < state.pipe
  -- Nobody is blocked with a byte in the pipe, unless the handler is about to wake it.
  empty : state.main = .blocked → ¬ state.Wrote → state.pipe = 0
  -- What was handled before `select` returned has been reported by it.
  reported : state.main.Selected → 0 < state.handledBefore → state.readfds setup.readEnd = true
  -- After the last read there is nothing in the pipe but what has been written since.
  drained : state.main.Drained (state.readfds setup.readEnd) → state.pipe = state.late
  -- The `errno` of the last read is still there when `main` looks at it.
  remembered : state.main = .testRead → state.mainErrno = eagain

/-- Nothing has happened at the start. -/
theorem invariant_initial : Invariant setup (initial setup) where
  -- Nothing has been set up, so nothing is said of the pipe or the handler yet.
  flags := trivial
  handler := nofun
  member := False.elim
  kept := by
    rintro _ (handled | ⟨_, same, _⟩)
    · exact absurd handled (Nat.lt_irrefl 0)
    · exact nomatch same
  empty := nofun
  reported := False.elim
  drained := False.elim
  remembered := nofun

/-- The read end of the pipe is one of the descriptors that `select` looks at. -/
theorem Setup.readEnd_lt_nfds (setup : Setup) : setup.readEnd < setup.nfds :=
  lt_of_lt_of_le (Nat.lt_succ_self _) (le_max_right _ _)

/-- If `select` is asked for it, the read end is ready as soon as there is a byte in the pipe. -/
theorem State.readyfds_readEnd (asked : state.readfds setup.readEnd = true) :
    state.readyfds setup setup.readEnd = decide (0 < state.pipe) := by
  simp [State.readyfds, State.hasInput, setup.readEnd_lt_nfds, asked]

/-- If `select` is asked for it, nothing is ready only while the pipe is empty. -/
theorem State.pipe_of_ready (asked : state.readfds setup.readEnd = true)
    (none_ : state.ready setup = 0) : state.pipe = 0 := by
  unfold State.ready at none_
  rw [List.countP_eq_zero] at none_
  -- The read end is among the descriptors that are counted.
  have unready := none_ setup.readEnd (List.mem_range.mpr setup.readEnd_lt_nfds)
  rw [State.readyfds_readEnd asked, decide_eq_true_eq] at unready
  omega

/-- While the handler does not run, it has not written. -/
theorem State.not_wrote (idle : state.handler = none) : ¬ state.Wrote := by
  rintro ⟨handler, runs, _⟩
  exact nomatch idle.symm.trans runs

/-- While the handler does not run, there is nothing to say of it. -/
theorem State.nothing_runs (idle : state.handler = none) {fits : Handler → Prop} (handler : Handler)
    (runs : state.handler = some handler) : fits handler :=
  nomatch idle.symm.trans runs

/-- Once the handler is established, neither end of the pipe blocks. -/
theorem Invariant.established (invariant : Invariant setup state)
    (established : state.main.established = true) :
    nonblocking state.readFlags = true ∧ nonblocking state.writeFlags = true := by
  have flags := invariant.flags
  -- Only the places before `sigaction` know less about the flags.
  cases at_ : state.main <;> rw [at_] at flags established <;>
    first
    | exact flags
    | exact nomatch established

/-- A handler that goes on keeps the invariant, whatever it writes. -/
theorem Invariant.handlerAt (invariant : Invariant setup state) {before after : Handler}
    {errno : Nat} (more : Nat) (at_ : state.handler = some before) (fits : after.Fits errno)
    (same : after.found = before.found)
    (wrote : state.main.Unread → after.wrote = true → 0 < state.pipe + more)
    (unwritten : after.wrote = false → before.wrote = false ∧ more = 0) :
    Invariant setup { state with
      handler := some after, errno, pipe := state.pipe + more, late := state.late + more } where
  flags := invariant.flags
  handler := by
    intro handler is
    obtain rfl := Option.some.inj is
    exact ⟨fits, (invariant.handler before at_).2⟩
  member := invariant.member
  -- A byte that was there stays there, and a byte that is written is there.
  kept := by
    rintro unread (handled | ⟨handler, is, written⟩)
    · exact Nat.add_pos_left (invariant.kept unread (.inl handled)) more
    · obtain rfl := Option.some.inj is
      exact wrote unread written
  -- As long as the handler has not written, it has not written before either.
  empty := by
    intro blocked notYet
    have unwrote : after.wrote = false := by
      by_contra written
      exact notYet ⟨after, rfl, by simpa using written⟩
    obtain ⟨earlier, rfl⟩ := unwritten unwrote
    refine invariant.empty blocked ?_
    rintro ⟨handler, is, written⟩
    obtain rfl := Option.some.inj (at_.symm.trans is)
    rw [earlier] at written
    exact nomatch written
  reported := invariant.reported
  drained := fun ended => congrArg (· + more) (invariant.drained ended)
  -- What the handler has found is what `main` is going to see.
  remembered := by
    intro reads
    have remembered := invariant.remembered reads
    rw [State.mainErrno, at_] at remembered
    exact same.trans remembered

/-- A call of `select` that fails keeps the invariant, if what is written is still there. -/
theorem Invariant.selectFails (invariant : Invariant setup state) {errno handled : Nat}
    (asking : state.main = .select ∨ state.main = .blocked)
    (kept : 0 < handled → 0 < state.pipe) :
    Invariant setup (({ state with handler := none, handled } : State).selectFails errno) where
  flags := by
    have flags := invariant.flags
    rcases asking with at_ | at_ <;> (rw [at_] at flags; exact flags)
  handler := nofun
  member := by
    intro _
    refine invariant.member ?_
    rcases asking with at_ | at_ <;> (rw [at_]; trivial)
  -- The handler no longer runs, so it is what has been handled that counts.
  kept := by
    rintro _ (some_ | ⟨_, same, _⟩)
    · exact kept some_
    · exact nomatch same
  empty := nofun
  reported := fun selected => absurd rfl selected
  drained := False.elim
  remembered := nofun

/-- A call of `select` that returns keeps the invariant. -/
theorem Invariant.selects (invariant : Invariant setup state) (idle : state.handler = none)
    (asking : state.main = .select ∨ state.main = .blocked) :
    Invariant setup (state.selects setup) := by
  have asked : state.readfds setup.readEnd = true := by
    refine invariant.member ?_
    rcases asking with at_ | at_ <;> (rw [at_]; trivial)
  have unread : state.main.Unread := by
    rcases asking with at_ | at_ <;> (rw [at_]; trivial)
  exact {
    flags := by
      have flags := invariant.flags
      rcases asking with at_ | at_ <;> (rw [at_] at flags; exact flags)
    handler := State.nothing_runs idle
    -- A number of descriptors is not the result of a failure.
    member := by
      intro negative
      have count : ((state.ready setup : Nat) : Int) = -1 := negative
      omega
    kept := fun _ => invariant.kept unread
    empty := nofun
    reported := by
      -- What has been handled is still in the pipe, and the read end is ready.
      intro _ some_
      have bytes := invariant.kept unread (.inl some_)
      exact (State.readyfds_readEnd asked).trans (decide_eq_true bytes)
    drained := False.elim
    remembered := nofun }

/-- Every step of the handler keeps the invariant. -/
theorem Invariant.handlerStep (invariant : Invariant setup state) {handler : Handler}
    (at_ : state.handler = some handler)
    (stepped : SelfPipe.handlerStep setup state handler = some next) : Invariant setup next := by
  have positive := setup.positive
  obtain ⟨fits, established⟩ := invariant.handler handler at_
  obtain ⟨pc, savedErrno, found⟩ := handler
  cases pc with
  -- The handler takes a copy of the `errno` that it finds.
  | save =>
    obtain rfl := Option.some.inj stepped
    exact invariant.handlerAt 0 at_ fits rfl (fun _ => nofun) fun _ => ⟨rfl, rfl⟩
  | write =>
    simp only [SelfPipe.handlerStep] at stepped
    split at stepped
    -- There is room, and one more byte in the pipe.
    · obtain rfl := Option.some.inj stepped
      exact invariant.handlerAt 1 at_ ⟨fits, nofun⟩ rfl
        (fun _ _ => Nat.succ_pos state.pipe) nofun
    next full =>
      split at stepped
      · -- A pipe that is full is not empty.
        obtain rfl := Option.some.inj stepped
        exact invariant.handlerAt 0 at_ ⟨fits, fun _ => rfl⟩ rfl
          (fun _ _ => by omega) nofun
      · exact nomatch stepped
  | test failed =>
    have kept : state.main.Unread → 0 < state.pipe := fun unread =>
      invariant.kept unread (.inr ⟨_, at_, rfl⟩)
    simp only [SelfPipe.handlerStep] at stepped
    split at stepped
    -- A full pipe is the only reason for the call to fail.
    next error => exact absurd (fits.2 error.1) error.2
    · obtain rfl := Option.some.inj stepped
      exact invariant.handlerAt 0 at_ fits.1 rfl (fun unread _ => kept unread) nofun
  -- The copy is put back.
  | restore =>
    have kept : state.main.Unread → 0 < state.pipe := fun unread =>
      invariant.kept unread (.inr ⟨_, at_, rfl⟩)
    obtain rfl := Option.some.inj stepped
    exact invariant.handlerAt 0 at_ fits rfl (fun unread _ => kept unread) nofun
  | returns =>
    have kept : state.main.Unread → 0 < state.pipe := fun unread =>
      invariant.kept unread (.inr ⟨_, at_, rfl⟩)
    simp only [SelfPipe.handlerStep] at stepped
    split at stepped
    next blocked =>
      -- `select` fails, and the byte is there when it is called again.
      obtain rfl := Option.some.inj stepped
      exact invariant.selectFails (.inr blocked) fun _ => kept (by rw [blocked]; trivial)
    -- `main` goes on where it was, with its own `errno`.
    next elsewhere =>
      obtain rfl := Option.some.inj stepped
      exact { invariant with
        flags := invariant.flags
        handler := nofun
        kept := fun unread _ => kept unread
        empty := fun blocked => absurd blocked elsewhere
        drained := invariant.drained
        remembered := by
          intro reads
          have remembered := invariant.remembered reads
          rw [State.mainErrno, at_] at remembered
          exact fits.trans remembered }

/-- A step towards `select` keeps the invariant. -/
theorem Invariant.mainAt (invariant : Invariant setup state) (idle : state.handler = none)
    {main : MainPc} {readFlags writeFlags : Nat} {readfds : Nat → Bool}
    (unread : state.main.Unread) (flags : main.FlagsFit readFlags writeFlags)
    (member : main.Asks → readfds setup.readEnd = true) (unselected : ¬ main.Selected)
    (unblocked : main ≠ .blocked) :
    Invariant setup { state with main, readFlags, writeFlags, readfds } := by
  have reads : main ≠ .testRead := by
    rintro rfl
    exact unselected trivial
  -- Places where the loop has ended come after the return of `select`.
  have notYet : ¬ main.Drained (readfds setup.readEnd) := by
    cases main with
    | testRead | report => exact absurd trivial unselected
    | _ => exact id
  exact {
    flags := flags
    handler := State.nothing_runs idle
    member := member
    kept := fun _ => invariant.kept unread
    empty := fun blocked => absurd blocked unblocked
    reported := fun selected => absurd selected unselected
    drained := fun drained => absurd drained notYet
    remembered := fun at_ => absurd at_ reads }

/-- Nothing is left to hold after an error that ends the program. -/
theorem invariant_errExit (idle : state.handler = none) :
    Invariant setup { state with main := .errExit } where
  -- The program has ended with an error, and nothing is said any more.
  flags := trivial
  handler := State.nothing_runs idle
  member := False.elim
  kept := False.elim
  empty := nofun
  reported := False.elim
  drained := False.elim
  remembered := nofun

/-- A step in the loop that consumes the bytes, or out of it, keeps the invariant. -/
theorem Invariant.pastAt (invariant : Invariant setup state) (idle : state.handler = none)
    {main : MainPc} {errno pipe late : Nat} (established : state.main.established = true)
    (past : main.Past)
    (reported : 0 < state.handledBefore → state.readfds setup.readEnd = true)
    (drained : main.Drained (state.readfds setup.readEnd) → pipe = late)
    (remembered : main = .testRead → errno = eagain) :
    Invariant setup { state with main, errno, pipe, late } := by
  have flags := invariant.established established
  exact {
    flags := by
      cases main with
      | read | testRead | report => exact flags
      | errExit => trivial
      | _ => exact past.elim
    handler := State.nothing_runs idle
    -- None of these places comes before the loop.
    member := by
      cases main with
      | read | testRead | report | errExit => exact False.elim
      | _ => exact past.elim
    kept := by
      cases main with
      | read | testRead | report | errExit => exact False.elim
      | _ => exact past.elim
    empty := by
      rintro rfl
      exact past.elim
    reported := fun _ => reported
    drained := drained
    remembered := by
      intro reads
      rw [State.mainErrno, idle]
      exact remembered reads }

/-- Every step of `main` keeps the invariant. -/
theorem Invariant.mainStep (invariant : Invariant setup state) (idle : state.handler = none)
    (stepped : SelfPipe.mainStep setup state = some next) : Invariant setup next := by
  have flags := invariant.flags
  have member := invariant.member
  have reported := invariant.reported
  unfold SelfPipe.mainStep at stepped
  cases at_ : state.main with
  -- The read end joins the descriptors of the command line.
  | pipe =>
    simp only [at_] at stepped
    obtain rfl := Option.some.inj stepped
    exact invariant.mainAt idle (by rw [at_]; trivial) trivial
      (fun _ => Function.update_self ..) id nofun
  -- Four calls set the flags of the two ends, one after the other.
  | getRead =>
    rw [at_] at member
    simp only [at_] at stepped
    obtain rfl := Option.some.inj stepped
    exact invariant.mainAt idle (by rw [at_]; trivial) (nonblocking_or state.readFlags)
      member id nofun
  | setRead flags_ =>
    rw [at_] at flags member
    simp only [at_] at stepped
    obtain rfl := Option.some.inj stepped
    exact invariant.mainAt idle (by rw [at_]; trivial) flags member id nofun
  | getWrite =>
    rw [at_] at flags member
    simp only [at_] at stepped
    obtain rfl := Option.some.inj stepped
    exact invariant.mainAt idle (by rw [at_]; trivial) ⟨flags, nonblocking_or state.writeFlags⟩
      member id nofun
  | setWrite flags_ =>
    rw [at_] at flags member
    simp only [at_] at stepped
    obtain rfl := Option.some.inj stepped
    exact invariant.mainAt idle (by rw [at_]; trivial) flags member id nofun
  | sigaction =>
    rw [at_] at flags member
    simp only [at_] at stepped
    obtain rfl := Option.some.inj stepped
    exact invariant.mainAt idle (by rw [at_]; trivial) flags member id nofun
  | select =>
    rw [at_] at flags member
    simp only [at_] at stepped
    obtain rfl := Option.some.inj stepped
    split
    next none_ =>
      -- Nothing is ready, and so the pipe is empty.
      exact {
        flags := flags
        handler := State.nothing_runs idle
        member := member
        kept := fun _ => invariant.kept (by rw [at_]; trivial)
        empty := fun _ _ => State.pipe_of_ready (member trivial) none_
        reported := False.elim
        drained := False.elim
        remembered := nofun }
    · exact invariant.selects idle (.inl at_)
  -- A descriptor has become ready.
  | blocked =>
    simp only [at_] at stepped
    split at stepped
    · exact nomatch stepped
    · obtain rfl := Option.some.inj stepped
      exact invariant.selects idle (.inr at_)
  | testSelect ready =>
    rw [at_] at flags member reported
    simp only [at_] at stepped
    obtain rfl := Option.some.inj stepped
    split
    -- After `EINTR` the call is made again, with the same descriptors.
    next failed =>
      split
      · exact invariant.mainAt idle (by rw [at_]; trivial) flags (fun _ => member failed) id nofun
      · exact invariant_errExit idle
    next returned =>
      exact {
        flags := flags
        handler := State.nothing_runs idle
        member := False.elim
        kept := fun _ => invariant.kept (by rw [at_]; trivial)
        empty := nofun
        reported := fun _ => reported returned
        drained := False.elim
        remembered := nofun }
  | isset =>
    rw [at_] at reported
    simp only [at_] at stepped
    obtain rfl := Option.some.inj stepped
    split
    · exact invariant.pastAt idle (by rw [at_]; rfl) trivial (reported trivial) False.elim nofun
    next unset =>
      -- Without a report of the read end, the loop is not entered.
      exact invariant.pastAt idle (by rw [at_]; rfl) trivial (reported trivial)
        (fun set => absurd set unset) nofun
  | read =>
    rw [at_] at reported
    simp only [at_] at stepped
    split at stepped
    · obtain rfl := Option.some.inj stepped
      exact invariant.pastAt idle (by rw [at_]; rfl) trivial (reported trivial) False.elim nofun
    next none_ =>
      split at stepped
      · -- The pipe is empty, and nothing has been written since.
        obtain rfl := Option.some.inj stepped
        exact invariant.pastAt idle (by rw [at_]; rfl) trivial (reported trivial)
          (fun _ => Nat.eq_zero_of_not_pos none_) fun _ => rfl
      · exact nomatch stepped
  | testRead =>
    rw [at_] at reported
    have remembered := invariant.remembered at_
    have drained := invariant.drained (by rw [at_]; trivial)
    simp only [at_] at stepped
    obtain rfl := Option.some.inj stepped
    -- The handler has left `errno` alone, so this is the end of the loop.
    have failed : state.errno = eagain := by
      rw [State.mainErrno, idle] at remembered
      exact remembered
    rw [if_pos failed]
    exact invariant.pastAt idle (by rw [at_]; rfl) trivial (reported trivial) (fun _ => drained)
      nofun
  | report => simp only [at_, reduceCtorEq] at stepped
  | errExit => simp only [at_, reduceCtorEq] at stepped

/-- Every step keeps the invariant. -/
theorem Invariant.step (invariant : Invariant setup state) {action : Action}
    (stepped : (selfPipe setup).step state action = some next) : Invariant setup next := by
  cases action with
  -- The program is in its handler or in `main`.
  | goesOn =>
    simp only [selfPipe, SelfPipe.step] at stepped
    cases runs : state.handler with
    | some handler =>
      simp only [runs] at stepped
      exact invariant.handlerStep runs stepped
    | none =>
      simp only [runs] at stepped
      exact invariant.mainStep runs stepped
  | delivers =>
    simp only [selfPipe, SelfPipe.step] at stepped
    split at stepped
    next free =>
      -- The handler has found `errno` as `main` would have.
      obtain ⟨established, idle⟩ := free
      obtain rfl := Option.some.inj stepped
      have unwritten : ¬ ∃ handler : Handler,
          some (⟨.save, 0, state.errno⟩ : Handler) = some handler ∧ handler.wrote = true := by
        rintro ⟨handler, is, written⟩
        obtain rfl := Option.some.inj is
        exact nomatch written
      exact { invariant with
        handler := by
          intro handler is
          obtain rfl := Option.some.inj is
          exact ⟨rfl, established⟩
        kept := fun unread some_ => invariant.kept unread (.inl (some_.resolve_right unwritten))
        empty := fun blocked _ => invariant.empty blocked (State.not_wrote idle)
        remembered := by
          intro reads
          have remembered := invariant.remembered reads
          rw [State.mainErrno, idle] at remembered
          exact remembered }
    · exact nomatch stepped
  | fails =>
    simp only [selfPipe, SelfPipe.step] at stepped
    split at stepped
    next free =>
      obtain rfl := Option.some.inj stepped
      exact invariant_errExit free.2
    · exact nomatch stepped
  -- Whatever the reason, nothing is lost from the pipe.
  | selectFails errno =>
    simp only [selfPipe, SelfPipe.step] at stepped
    split at stepped
    next free =>
      obtain ⟨asking, idle⟩ := free
      obtain rfl := Option.some.inj stepped
      have unread : state.main.Unread := by
        rcases asking with at_ | at_ <;> (rw [at_]; trivial)
      have failed : Invariant setup (({ state with handler := none } : State).selectFails errno) :=
        invariant.selectFails asking fun some_ => invariant.kept unread (.inl some_)
      rw [← idle] at failed
      exact failed
    · exact nomatch stepped
  | timesOut =>
    simp only [selfPipe, SelfPipe.step] at stepped
    split at stepped
    next free =>
      obtain rfl := Option.some.inj stepped
      exact invariant.selects free.2.1 (.inr free.1)
    · exact nomatch stepped
  -- The other descriptors have no part in the invariant.
  | changes fd input =>
    obtain rfl := Option.some.inj stepped
    exact ⟨invariant.flags, invariant.handler, invariant.member, invariant.kept, invariant.empty,
      invariant.reported, invariant.drained, invariant.remembered⟩

/-- The handler never blocks. -/
theorem Invariant.handler_goesOn (invariant : Invariant setup state)
    (runs : state.handler ≠ none) : ∃ next, (selfPipe setup).step state .goesOn = some next := by
  obtain ⟨⟨pc, savedErrno, found⟩, at_⟩ := Option.ne_none_iff_exists'.mp runs
  have flags := invariant.established (invariant.handler _ at_).2
  refine Option.isSome_iff_exists.mp ?_
  -- Writing is the only step that might block, and only on a full pipe.
  cases pc with
  | save | restore | returns => simp [selfPipe, SelfPipe.step, SelfPipe.handlerStep, at_]
  | write =>
    by_cases room : state.pipe < setup.capacity
    · simp [selfPipe, SelfPipe.step, SelfPipe.handlerStep, at_, room]
    · simp [selfPipe, SelfPipe.step, SelfPipe.handlerStep, at_, room, flags.2]
  | test failed =>
    simp only [selfPipe, SelfPipe.step, SelfPipe.handlerStep, at_]
    split <;> rfl

/-- Nothing blocks in the loop that consumes the bytes. -/
theorem Invariant.loop_goesOn (invariant : Invariant setup state) (inLoop : state.main.InLoop) :
    ∃ next, (selfPipe setup).step state .goesOn = some next := by
  by_cases idle : state.handler = none
  · refine Option.isSome_iff_exists.mp ?_
    -- Reading is the only step that might block, and only on an empty pipe.
    cases at_ : state.main with
    | read =>
      have flags := invariant.established (by rw [at_]; rfl)
      by_cases bytes : 0 < state.pipe
      · simp [selfPipe, SelfPipe.step, SelfPipe.mainStep, idle, at_, bytes]
      · simp [selfPipe, SelfPipe.step, SelfPipe.mainStep, idle, at_, bytes, flags.1]
    | testRead => simp [selfPipe, SelfPipe.step, SelfPipe.mainStep, idle, at_]
    | _ =>
      rw [at_] at inLoop
      exact inLoop.elim
  · exact invariant.handler_goesOn idle

/-- How many steps the handler has to go, which may leave a byte to read. -/
def HandlerPc.toGo : HandlerPc → Nat
  | .save => 6
  | .write => 5
  | .test _ => 3
  | .restore => 2
  | .returns => 1

/-- How many steps the loop has to go, apart from the bytes to read. -/
def MainPc.toGo : MainPc → Nat
  | .read => 2
  | .testRead => 1
  | _ => 0

/-- How many steps there are to go until the loop has ended, if no signal is delivered. -/
def State.toGo (state : State) : Nat :=
  state.pipe + state.main.toGo + state.handler.elim 0 fun handler => handler.pc.toGo

/-- In the loop every step of the program leaves less to go. -/
theorem toGo_goesOn (past : state.main.Past)
    (stepped : (selfPipe setup).step state .goesOn = some next) :
    next.main.Past ∧ next.toGo + 1 ≤ state.toGo := by
  simp only [selfPipe, SelfPipe.step] at stepped
  cases runs : state.handler with
  -- The handler comes closer to its end, even if it leaves one more byte to read.
  | some handler =>
    simp only [runs] at stepped
    obtain ⟨pc, savedErrno, found⟩ := handler
    cases pc with
    | save | restore =>
      obtain rfl := Option.some.inj stepped
      refine ⟨past, ?_⟩
      simp only [State.toGo, runs, Option.elim, HandlerPc.toGo]
      omega
    | write =>
      simp only [SelfPipe.handlerStep] at stepped
      split at stepped
      · obtain rfl := Option.some.inj stepped
        refine ⟨past, ?_⟩
        simp only [State.toGo, runs, Option.elim, HandlerPc.toGo]
        omega
      · split at stepped
        · obtain rfl := Option.some.inj stepped
          refine ⟨past, ?_⟩
          simp only [State.toGo, runs, Option.elim, HandlerPc.toGo]
          omega
        · exact nomatch stepped
    | test failed =>
      simp only [SelfPipe.handlerStep] at stepped
      split at stepped
      · obtain rfl := Option.some.inj stepped
        refine ⟨trivial, ?_⟩
        simp only [State.toGo, runs, Option.elim, HandlerPc.toGo, MainPc.toGo]
        omega
      · obtain rfl := Option.some.inj stepped
        refine ⟨past, ?_⟩
        simp only [State.toGo, runs, Option.elim, HandlerPc.toGo]
        omega
    | returns =>
      have elsewhere : state.main ≠ .blocked := by
        intro blocked
        rw [blocked] at past
        exact past
      simp only [SelfPipe.handlerStep, if_neg elsewhere] at stepped
      obtain rfl := Option.some.inj stepped
      refine ⟨past, ?_⟩
      simp only [State.toGo, runs, Option.elim, HandlerPc.toGo]
      omega
  -- Each read takes a byte away or is the last one.
  | none =>
    simp only [runs, SelfPipe.mainStep] at stepped
    cases at_ : state.main with
    | read =>
      simp only [at_] at stepped
      split at stepped
      · obtain rfl := Option.some.inj stepped
        refine ⟨trivial, ?_⟩
        simp only [State.toGo, runs, at_, Option.elim, MainPc.toGo]
        omega
      · split at stepped
        · obtain rfl := Option.some.inj stepped
          refine ⟨trivial, ?_⟩
          simp only [State.toGo, runs, at_, Option.elim, MainPc.toGo]
          omega
        · exact nomatch stepped
    | testRead =>
      simp only [at_] at stepped
      obtain rfl := Option.some.inj stepped
      split
      · refine ⟨trivial, ?_⟩
        simp only [State.toGo, runs, at_, Option.elim, MainPc.toGo]
        omega
      · refine ⟨trivial, ?_⟩
        simp only [State.toGo, runs, at_, Option.elim, MainPc.toGo]
        omega
    | report | errExit => simp only [at_, reduceCtorEq] at stepped
    | _ =>
      rw [at_] at past
      exact past.elim

/-- In the loop and past it, what happens beside the program leaves as much to go. -/
theorem toGo_other (past : state.main.Past) {action : Action} (other : action ≠ .goesOn)
    (quiet : action ≠ .delivers) (stepped : (selfPipe setup).step state action = some next) :
    next.main.Past ∧ next.toGo ≤ state.toGo := by
  cases action with
  | goesOn => exact absurd rfl other
  | delivers => exact absurd rfl quiet
  | fails =>
    simp only [selfPipe, SelfPipe.step] at stepped
    split at stepped
    · obtain rfl := Option.some.inj stepped
      refine ⟨trivial, ?_⟩
      simp only [State.toGo, MainPc.toGo]
      omega
    · exact nomatch stepped
  -- The loop is past its `select`, so these two cannot happen.
  | selectFails errno =>
    simp only [selfPipe, SelfPipe.step] at stepped
    split at stepped
    next free =>
      rcases free.1 with at_ | at_ <;> (rw [at_] at past; exact past.elim)
    · exact nomatch stepped
  | timesOut =>
    simp only [selfPipe, SelfPipe.step] at stepped
    split at stepped
    next free =>
      rw [free.1] at past
      exact past.elim
    · exact nomatch stepped
  | changes fd input =>
    obtain rfl := Option.some.inj stepped
    exact ⟨past, le_rfl⟩

/-- The program does not get back from the loop to what comes before it. -/
theorem past_step (past : state.main.Past) {action : Action}
    (stepped : (selfPipe setup).step state action = some next) : next.main.Past := by
  -- A step of main leads on, and the others leave its place.
  by_cases own : action = .goesOn
  · subst own
    exact (toGo_goesOn past stepped).1
  · by_cases delivered : action = .delivers
    · subst delivered
      simp only [selfPipe, SelfPipe.step] at stepped
      split at stepped
      · obtain rfl := Option.some.inj stepped
        exact past
      · exact nomatch stepped
    · exact (toGo_other past own delivered stepped).1

/-- Once no signal is delivered any more, the loop ends after so many steps. -/
theorem count_goesOn_le (inLoop : state.main.InLoop) {more : List Action}
    (quiet : ∀ action ∈ more, action ≠ .delivers)
    (ran : (selfPipe setup).run state more = some next) :
    more.count .goesOn ≤ state.toGo := by
  have past : state.main.Past := by
    cases at_ : state.main with
    | read | testRead => trivial
    | _ =>
      rw [at_] at inLoop
      exact inLoop.elim
  have preserved : ∀ state action next, state.main.Past →
      (selfPipe setup).step state action = some next → next.main.Past :=
    fun _ _ _ past stepped => past_step past stepped
  have lowered : ∀ state action next, state.main.Past → action ≠ .delivers →
      (selfPipe setup).step state action = some next →
        next.toGo + (if action == .goesOn then 1 else 0) ≤ state.toGo := by
    intro state action next past quiet stepped
    by_cases own : action = .goesOn
    · subst own
      exact (toGo_goesOn past stepped).2
    · rw [if_neg (by simpa using own)]
      exact (toGo_other past own quiet stepped).2
  have along : (selfPipe setup).Along (fun _ action => action ≠ .delivers) state more :=
    Machine.along_of_mem (fun action mem _ => quiet action mem) state
  -- Each step of the program pays for itself.
  have paid := Machine.run_progress_le_along preserved lowered past along ran
  exact (Nat.le_add_right _ _).trans paid

/-- What is promised of the handler, of `select` and of the loop. -/
structure Correct (setup : Setup) (state : State) : Prop where
  /-- The handler never blocks. -/
  unblocked : state.handler ≠ none → ∃ next, (selfPipe setup).step state .goesOn = some next
  /-- It returns with the `errno` that it has found. -/
  errno : ∀ handler, state.handler = some handler → handler.pc = .returns →
    state.errno = handler.found
  /-- Nobody is blocked in `select` after a delivery has been handled. -/
  noticed : state.main = .blocked → state.handler = none → state.handled = 0
  /-- If a delivery was handled before `select` returned, it has reported the read end. -/
  reported : state.main.Selected → 0 < state.handledBefore → state.readfds setup.readEnd = true
  /-- The loop goes on until it ends, which it does once no signal is delivered any more. -/
  ends : state.main.InLoop → (∃ next, (selfPipe setup).step state .goesOn = some next) ∧
    ∀ more finish, (selfPipe setup).run state more = some finish →
      (∀ action ∈ more, action ≠ .delivers) → more.count .goesOn ≤ state.toGo
  /-- It leaves in the pipe what the handler has written since the last read, and nothing else. -/
  drained : state.main = .report → state.readfds setup.readEnd = true → state.pipe = state.late

/-- The invariant keeps the promise. -/
theorem Invariant.correct (invariant : Invariant setup state) : Correct setup state where
  unblocked := invariant.handler_goesOn
  errno := by
    rintro ⟨pc, savedErrno, found⟩ at_ rfl
    exact (invariant.handler _ at_).1
  noticed := by
    intro blocked idle
    -- What has been handled would be in the pipe, which is empty.
    have empty := invariant.empty blocked (State.not_wrote idle)
    have unread : state.main.Unread := by
      rw [blocked]
      trivial
    by_contra handled
    have bytes := invariant.kept unread (.inl (Nat.pos_of_ne_zero handled))
    omega
  reported := invariant.reported
  ends := fun inLoop => ⟨invariant.loop_goesOn inLoop,
    fun _ _ ran quiet => count_goesOn_le inLoop quiet ran⟩
  drained := fun ended set => invariant.drained (by rw [ended]; exact set)

/-- The program waits for input on its standard input. -/
def standardInput : Setup where
  fds := [0]
  timeout := false
  readEnd := 3
  capacity := 65536
  positive := by decide

/-- A signal interrupts `select`, and its byte is read. -/
def oneDelivery : List Action :=
  List.replicate 7 .goesOn ++ .delivers :: List.replicate 11 .goesOn

/-- Another signal is delivered after the read that has found the pipe empty. -/
def lateDelivery : List Action :=
  oneDelivery ++ .delivers :: List.replicate 5 .goesOn

end SysProg.Altio.SelfPipe
