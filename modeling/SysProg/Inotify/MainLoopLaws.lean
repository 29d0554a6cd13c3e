import SysProg.Inotify.MainLoop
import SysProg.Inotify.RootPathsLaws

/-! The main loop enters `processInotifyEvents` with an event, unless the descriptor is replaced. -/

namespace SysProg.Inotify

variable {opts : Options} {taken : List Nat} {answers : Answers}

/-- The number of a new descriptor is not taken. -/
theorem lowestFree_not_mem (taken : List Nat) : lowestFree taken ∉ taken := by
  -- There are more numbers to choose from than are taken.
  have some_ : ((List.range (taken.length + 1)).find? fun fd => fd ∉ taken).isSome := by
    by_contra none_
    rw [List.find?_isSome] at none_
    have all : List.range (taken.length + 1) ⊆ taken := by
      intro fd mem
      by_contra free
      exact none_ ⟨fd, mem, decide_eq_true free⟩
    have most := (List.subperm_of_subset List.nodup_range all).length_le
    rw [List.length_range] at most
    omega
  obtain ⟨fd, found⟩ := Option.isSome_iff_exists.mp some_
  rw [lowestFree, found]
  simpa using List.find?_some found

/-- What a command does to the inotify descriptor. -/
structure Session.Keeps (session next : Session) : Prop where
  inotifyFd : next.inotifyFd = session.inotifyFd
  queued : next.queued = session.queued

/-- Only one command replaces the inotify descriptor. -/
theorem Session.execute_keeps {session next : Session} {cmd : Command}
    {arg : Option (List UInt8)} (executed : session.execute taken answers cmd arg = .ok next)
    (other : cmd ≠ .rebuild) : session.Keeps next := by
  -- Each command either leaves both alone, or ends the program, in which case there is no next
  -- session.
  cases cmd with
  | rebuild => exact absurd rfl other
  | list | unrecognized | dump | toggleCheck =>
    obtain rfl := Except.ok.inj executed
    exact ⟨rfl, rfl⟩
  | quit => exact nomatch executed
  | verbose =>
    cases arg with
    | none =>
      obtain rfl := Except.ok.inj executed
      exact ⟨rfl, rfl⟩
    | some arg =>
      obtain rfl := Except.ok.inj executed
      exact ⟨rfl, rfl⟩
  | zap =>
    cases arg with
    | none => exact nomatch executed
    | some arg =>
      obtain rfl := Except.ok.inj executed
      exact ⟨rfl, rfl⟩
  | write =>
    cases arg with
    | none => exact nomatch executed
    | some arg =>
      simp only [Session.execute] at executed
      split at executed
      · obtain rfl := Except.ok.inj executed
        exact ⟨rfl, rfl⟩
      · exact nomatch executed
  | check =>
    simp only [Session.execute] at executed
    cases checked : (checkAllCachedPathnamesExist answers.lstat session.program.cache).result with
    | error exit =>
      rw [checked] at executed
      exact nomatch executed
    | ok failures =>
      rw [checked] at executed
      obtain rfl := Except.ok.inj executed
      exact ⟨rfl, rfl⟩
  | add =>
    cases arg with
    | none => exact nomatch executed
    | some arg =>
      simp only [Session.execute] at executed
      cases watched : watchSubtree (zapSubtree answers.rmWatch arg session.program.cache).2
          (answers.visits arg) with
      | error exit =>
        rw [watched] at executed
        exact nomatch executed
      | ok cache =>
        rw [watched] at executed
        obtain rfl := Except.ok.inj executed
        exact ⟨rfl, rfl⟩

/-- A new inotify instance has the lowest number that is free. -/
theorem Session.reinitialize_number {session next : Session}
    (executed : session.reinitialize taken answers = .ok next) :
    next.inotifyFd = lowestFree taken := by
  -- The descriptor is opened before the cache is built, which may fail.
  unfold Session.reinitialize at executed
  split at executed
  · exact nomatch executed
  · dsimp only at executed
    cases built : Inotify.reinitialize
        ((session.program.rootDirPaths.filterMap id).flatMap answers.visits) with
    | error exit =>
      rw [built] at executed
      exact nomatch executed
    | ok cache =>
      rw [built] at executed
      obtain rfl := Except.ok.inj executed
      rfl

/-- The command that is read next from the keyboard. -/
def Session.command (session : Session) : Option Command :=
  (scanCommand (commandLine (readStdin session.typed).1)).map Prod.fst

/-- Any other command than one leaves the inotify descriptor and its queue as they are. -/
theorem Session.executeCommand_keeps {session next : Session}
    (executed : session.executeCommand taken answers = .ok next)
    (other : session.command ≠ some .rebuild) : session.Keeps next := by
  simp only [Session.executeCommand] at executed
  split at executed
  · exact nomatch executed
  · split at executed
    · obtain rfl := Except.ok.inj executed
      exact ⟨rfl, rfl⟩
    -- A line that is a command is executed, and it is not the one that rebuilds the cache.
    next cmd arg scanned =>
      have different : cmd ≠ .rebuild := by
        rintro rfl
        exact other (by rw [Session.command, scanned]; rfl)
      obtain ⟨inotifyFd, queued⟩ := Session.execute_keeps executed different
      exact ⟨inotifyFd, queued⟩

/-- Whatever the command, the descriptor keeps the lowest number that is free. -/
theorem Session.executeCommand_number {session next : Session}
    (executed : session.executeCommand taken answers = .ok next)
    (number : session.inotifyFd = lowestFree taken) : next.inotifyFd = lowestFree taken := by
  -- Either the descriptor is the old one, or a new one with the same number.
  by_cases rebuild : session.command = some .rebuild
  · simp only [Session.executeCommand] at executed
    split at executed
    · exact nomatch executed
    · unfold Session.command at rebuild
      split at executed
      next nothing =>
        rw [nothing] at rebuild
        exact nomatch rebuild
      next cmd arg scanned =>
        rw [scanned] at rebuild
        obtain rfl := Option.some.inj rebuild
        exact Session.reinitialize_number executed
  · exact (Session.executeCommand_keeps executed rebuild).inotifyFd.trans number

/-- Where the program stands, the inotify descriptor has an event if it is taken to be ready. -/
def MainPc.Ready (session : Session) : MainPc → Prop
  | .testStdin rfds | .testInotify rfds => session.inotifyFd ∈ rfds → 0 < session.queued
  | .processInotifyEvents => 0 < session.queued
  | .select | .exited _ => True

/-- What holds at all times. -/
structure MainInvariant (taken : List Nat) (state : MainState) : Prop where
  number : state.session.inotifyFd = lowestFree taken
  ready : state.pc.Ready state.session

/-- The set that `select` has returned, while the program tests it for the keyboard. -/
def MainPc.rfds : MainPc → List Nat
  | .testStdin rfds => rfds
  | _ => []

/-- The keyboard is tested, and a command is executed if it is ready. -/
def MainAction.executes : MainAction → Bool
  | .testStdin _ => true
  | _ => false

/-- No command replaces an inotify descriptor that is taken to be ready. -/
def Undisturbed (state : MainState) (action : MainAction) : Prop :=
  action.executes = true → stdinFileno ∈ state.pc.rfds →
    state.session.command = some .rebuild → state.session.inotifyFd ∉ state.pc.rfds

instance (state : MainState) (action : MainAction) : Decidable (Undisturbed state action) :=
  inferInstanceAs (Decidable (action.executes = true → stdinFileno ∈ state.pc.rfds →
    state.session.command = some .rebuild → state.session.inotifyFd ∉ state.pc.rfds))

/-- More events leave the descriptor as ready as it is. -/
theorem MainPc.Ready.mono {pc : MainPc} {session next : Session} (ready : pc.Ready session)
    (inotifyFd : next.inotifyFd = session.inotifyFd) (queued : session.queued ≤ next.queued) :
    pc.Ready next := by
  -- The descriptor is ready as long as events are queued for it.
  cases pc with
  | select | exited exit => trivial
  | processInotifyEvents => exact Nat.lt_of_lt_of_le ready queued
  | testStdin rfds | testInotify rfds =>
    intro mem
    rw [inotifyFd] at mem
    exact Nat.lt_of_lt_of_le (ready mem) queued

/-- The set that `select` returns tells whether there are events. -/
theorem MainInvariant.selects {state : MainState} (invariant : MainInvariant taken state)
    (stdin : stdinFileno ∈ taken) (mem : state.session.inotifyFd ∈ state.session.rfds) :
    0 < state.session.queued := by
  -- The inotify descriptor is another one than the keyboard.
  have other : state.session.inotifyFd ≠ stdinFileno := by
    intro same
    rw [invariant.number] at same
    exact lowestFree_not_mem taken (same ▸ stdin)
  rcases List.mem_append.mp mem with keyboard | events
  · split at keyboard
    · exact nomatch keyboard
    · exact absurd (List.mem_singleton.mp keyboard) other
  · split at events
    · exact nomatch events
    next some_ => exact Nat.pos_of_ne_zero some_

/-- A step keeps the invariant unless it disturbs what `select` has found. -/
theorem MainInvariant.step {state next : MainState} {action : MainAction}
    (invariant : MainInvariant taken state) (stdin : stdinFileno ∈ taken)
    (undisturbed : Undisturbed state action)
    (stepped : mainStep opts taken state action = some next) : MainInvariant taken next := by
  -- Only two actions are of interest: `select`, and the command that is executed after it.
  have number := invariant.number
  have ready := invariant.ready
  cases action with
  | key line =>
    obtain rfl := Option.some.inj stepped
    exact ⟨number, ready.mono rfl le_rfl⟩
  | event =>
    obtain rfl := Option.some.inj stepped
    exact ⟨number, ready.mono rfl (Nat.le_succ _)⟩
  | select =>
    simp only [mainStep] at stepped
    split at stepped
    next fd rfds at_ selected =>
      obtain rfl := Option.some.inj stepped
      refine ⟨number, fun mem => ?_⟩
      rw [← selected] at mem
      exact invariant.selects stdin mem
    · exact nomatch stepped
  | selectFails =>
    simp only [mainStep] at stepped
    split at stepped
    · obtain rfl := Option.some.inj stepped
      exact ⟨number, trivial⟩
    · exact nomatch stepped
  | testStdin answers =>
    simp only [mainStep] at stepped
    split at stepped
    next rfds at_ =>
      rw [at_] at ready
      have undisturbed := undisturbed rfl
      rw [at_] at undisturbed
      split at stepped
      next typed =>
        split at stepped
        next session executed =>
          obtain rfl := Option.some.inj stepped
          have sameNumber := Session.executeCommand_number executed number
          refine ⟨sameNumber, fun mem => ?_⟩
          have old : state.session.inotifyFd ∈ rfds := by rwa [number, ← sameNumber]
          -- The command is another one, since the descriptor is taken to be ready.
          have other := fun rebuild => undisturbed typed rebuild old
          rw [(Session.executeCommand_keeps executed other).queued]
          exact ready old
        · obtain rfl := Option.some.inj stepped
          exact ⟨number, trivial⟩
      · obtain rfl := Option.some.inj stepped
        exact ⟨number, ready⟩
    · exact nomatch stepped
  -- `processInotifyEvents` is entered with the events that `select` has seen.
  | testInotify =>
    simp only [mainStep] at stepped
    split at stepped
    next rfds at_ =>
      rw [at_] at ready
      obtain rfl := Option.some.inj stepped
      refine ⟨number, ?_⟩
      show MainPc.Ready state.session (if _ then _ else _)
      split
      next mem => exact ready mem
      · trivial
    · exact nomatch stepped
  | process world fuel buf left =>
    simp only [mainStep] at stepped
    split at stepped
    · split at stepped
      · exact nomatch stepped
      · split at stepped
        · obtain rfl := Option.some.inj stepped
          -- The cache may have been rebuilt, too, with a new descriptor.
          refine ⟨?_, trivial⟩
          show (if _ then _ else _) = lowestFree taken
          split
          · exact number
          · rfl
        · obtain rfl := Option.some.inj stepped
          exact ⟨number, trivial⟩
        · exact nomatch stepped
    · exact nomatch stepped

/-- When `processInotifyEvents` is entered, its first `read` has something to bring. -/
def MainState.Served (state : MainState) : Prop :=
  state.pc = .processInotifyEvents → 0 < state.session.queued

/-- The primary `read` never blocks if no command replaces a descriptor that is ready. -/
theorem mainLoop_served (opts : Options) (taken : List Nat) (stdin : stdinFileno ∈ taken)
    (program : Program) (verboseMask : Int) (dumpCache : Bool) (actions : List MainAction)
    (undisturbed : (mainLoop opts taken).Along Undisturbed
      (mainStart opts taken program verboseMask dumpCache) actions)
    (state : MainState)
    (ran : (mainLoop opts taken).run (mainStart opts taken program verboseMask dumpCache) actions =
      some state) : state.Served := by
  -- The invariant holds at the start, and every admitted step keeps it.
  have preserved : ∀ state action next, MainInvariant taken state → Undisturbed state action →
      (mainLoop opts taken).step state action = some next → MainInvariant taken next := by
    intro state action next before admitted stepped
    exact before.step stdin admitted stepped
  have start : MainInvariant taken (mainStart opts taken program verboseMask dumpCache) :=
    ⟨rfl, trivial⟩
  have invariant := Machine.run_invariant_along preserved start undisturbed ran
  intro at_
  have ready := invariant.ready
  rwa [at_] at ready

/-- A system in which nothing is found and everything succeeds. -/
def quietAnswers : Answers where
  visits _ := []
  rmWatch _ := true
  lstat _ := none
  fopen _ := true
  inotifyInit := true

/-- The program has opened nothing but the descriptors that every program has. -/
def quietStart : MainState :=
  mainStart ⟨false, false, 0⟩ [0, 1, 2] (started []) 0 false

/-- The cache is rebuilt when no event is queued, and then an event comes. -/
def rebuildFirst : List MainAction :=
  [.key [48, 10], .select, .testStdin quietAnswers, .testInotify, .event, .select,
    .testStdin quietAnswers, .testInotify]

/-- In this run the program enters `processInotifyEvents` with an event. -/
theorem mainLoop_served_rebuildFirst :
    ∃ state, (mainLoop ⟨false, false, 0⟩ [0, 1, 2]).run quietStart rebuildFirst = some state ∧
      state.pc = .processInotifyEvents ∧ state.Served := by
  -- The cache is rebuilt by a command before the events are read.
  have shown : ((mainLoop ⟨false, false, 0⟩ [0, 1, 2]).run quietStart rebuildFirst).map
      MainState.pc = some .processInotifyEvents := by decide
  obtain ⟨state, ran, at_⟩ := Option.map_eq_some_iff.mp shown
  exact ⟨state, ran, at_,
    mainLoop_served ⟨false, false, 0⟩ [0, 1, 2] (by decide) (started []) 0 false rebuildFirst
      (by decide) state ran⟩

/-- The command to rebuild the cache succeeds, and leaves a descriptor without events. -/
theorem Session.executeCommand_rebuild {session : Session}
    (rebuild : session.command = some .rebuild) :
    ∃ next, session.executeCommand taken quietAnswers = .ok next ∧
      next.inotifyFd = lowestFree taken ∧ next.queued = 0 := by
  unfold Session.command at rebuild
  cases scanned : scanCommand (commandLine (readStdin session.typed).1) with
  | none =>
    rw [scanned] at rebuild
    exact nomatch rebuild
  | some command =>
    obtain ⟨cmd, arg⟩ := command
    rw [scanned] at rebuild
    obtain rfl := Option.some.inj rebuild
    have typed : (readStdin session.typed).1 ≠ [] := by
      intro nothing
      rw [nothing] at scanned
      exact nomatch scanned
    simp only [Session.executeCommand, if_neg typed, scanned, Session.execute,
      Session.reinitialize]
    -- No directory is found, so that the cache is empty.
    have empty : (session.program.rootDirPaths.filterMap id).flatMap quietAnswers.visits = [] :=
      List.flatMap_eq_nil_iff.mpr fun _ _ => rfl
    rw [empty]
    exact ⟨_, rfl, rfl, rfl⟩

/-- If a command does replace such a descriptor, the program can block in its primary `read`. -/
theorem rebuild_blocks {state : MainState} (number : state.session.inotifyFd = lowestFree taken)
    {rfds : List Nat} (at_ : state.pc = .testStdin rfds) (stdin : stdinFileno ∈ rfds)
    (rebuild : state.session.command = some .rebuild)
    (ready : state.session.inotifyFd ∈ rfds) :
    ∃ answers later, (mainLoop opts taken).run state [.testStdin answers, .testInotify] =
      some later ∧ ¬ later.Served := by
  obtain ⟨next, executed, sameNumber, queued⟩ := Session.executeCommand_rebuild rebuild
  -- The new descriptor has the number of the old one, which is still in the set.
  have stale : next.inotifyFd ∈ rfds := by rwa [sameNumber, ← number]
  refine ⟨quietAnswers, ⟨.processInotifyEvents, next⟩, ?_, fun served => ?_⟩
  · simp only [Machine.run, mainLoop, mainStep, at_, if_pos stdin, executed, Option.bind_some,
      if_pos stale]
  · have some_ : 0 < next.queued := served rfl
    omega

/-- An event and the command to rebuild the cache come before the same `select`. -/
def rebuildReady : List MainAction :=
  [.key [48, 10], .event, .select, .testStdin quietAnswers, .testInotify]

/-- The program enters `processInotifyEvents` with a new descriptor, which has no event. -/
theorem mainLoop_not_served :
    ¬ ∀ (opts : Options) (taken : List Nat), stdinFileno ∈ taken →
      ∀ (program : Program) (verboseMask : Int) (dumpCache : Bool) (actions : List MainAction)
        (state : MainState), (mainLoop opts taken).run
          (mainStart opts taken program verboseMask dumpCache) actions = some state →
            state.Served := by
  -- The run ends in `processInotifyEvents`, where the new descriptor has no event.
  intro promised
  have shown : ((mainLoop ⟨false, false, 0⟩ [0, 1, 2]).run quietStart rebuildReady).map
      (fun state => (state.pc, state.session.queued)) = some (.processInotifyEvents, 0) := by
    decide
  obtain ⟨state, ran, facts⟩ := Option.map_eq_some_iff.mp shown
  obtain ⟨at_, queued⟩ := Prod.mk.inj facts
  have served := promised ⟨false, false, 0⟩ [0, 1, 2] (by decide) (started []) 0 false
    rebuildReady state ran at_
  omega

end SysProg.Inotify
