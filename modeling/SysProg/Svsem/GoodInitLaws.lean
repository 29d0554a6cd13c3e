import SysProg.Svsem.GoodInit

/-! The semaphore is initialised before anybody operates on it, because `sem_otime` tells. -/

namespace SysProg.Svsem

/-- An operation that goes through adds up, and leaves its time. -/
theorem SemSet.semop_eq_some {set next : SemSet} {op : Int} {now : Nat}
    (done : set.semop op now = some next) :
    (next.semval : Int) = set.semval + op ∧ next.otime ≠ 0 := by
  unfold SemSet.semop at done
  -- semop() is done only if the value stays positive, and then it sets sem_otime.
  split at done
  next possible =>
    obtain rfl := Option.some.inj done
    exact ⟨Int.toNat_of_nonneg possible.2.1, possible.2.2.2⟩
  · exact nomatch done

namespace GoodInit

variable {ι : Type*} {operation : ι → Int}

/-- What an event adds to the value, apart from the `SETVAL` that comes first. -/
def Event.effect (operation : ι → Int) : Event ι → Int
  | .setval _ | .dummy _ => 0
  | .operate process => semOp (operation process)

/-- What some events add to the value. -/
def effects (operation : ι → Int) (history : List (Event ι)) : Int :=
  (history.map (Event.effect operation)).sum

/-- The set, its creator and what has been done go through four phases. -/
inductive Phase (operation : ι → Int) : Option SemSet → Option ι → List (Event ι) → Prop where
  | absent : Phase operation none none []
  -- Between `semget` and `semctl` the value is not defined.
  | created (set : SemSet) (creator : ι) (fresh : set.otime = 0) :
      Phase operation (some set) (some creator) []
  -- `SETVAL` does not touch `sem_otime`.
  | initialised (set : SemSet) (creator : ι) (fresh : set.otime = 0) (zero : set.semval = 0) :
      Phase operation (some set) (some creator) [.setval creator]
  -- From the dummy operation on, everybody may operate.
  | ready (set : SemSet) (creator : ι) (used : set.otime ≠ 0) (operated : List ι)
      (value : (set.semval : Int) = effects operation (operated.map .operate)) :
      Phase operation (some set) (some creator)
        (.setval creator :: .dummy creator :: operated.map .operate)

/-- The creator has completed its dummy operation. -/
def Ready (history : List (Event ι)) : Prop :=
  ∃ creator, .dummy creator ∈ history

/-- What is known where a process stands. -/
def Pc.Fits (creator : Option ι) (history : List (Event ι)) (process : ι) : Pc → Prop
  -- Only the creator gets here, and it goes through its steps alone.
  | .setval => creator = some process ∧ history = []
  | .dummy => creator = some process ∧ history = [.setval process]
  | .semget | .existing | .stat _ | .gaveUp => creator ≠ some process
  -- What has been read from `sem_otime` stays true.
  | .loop _ otime | .test _ otime | .check otime =>
    creator ≠ some process ∧ (otime ≠ 0 → Ready history)
  | .semop => Ready history
  | .done | .failed => True

variable {state next : State ι}

/-- What holds at all times. -/
structure Invariant (operation : ι → Int) (state : State ι) : Prop where
  phase : Phase operation state.set state.creator state.history
  fits : ∀ process, (state.pc process).Fits state.creator state.history process
  done : ∀ process, .operate process ∈ state.history → state.pc process = .done

/-- Nothing has happened at the start. -/
theorem invariant_initial : Invariant operation (initial ι) where
  phase := .absent
  fits := fun _ => nofun
  done := nofun

/-- Nobody has completed a dummy operation before anything is done. -/
theorem not_ready_nil : ¬ Ready ([] : List (Event ι)) := by
  rintro ⟨creator, mem⟩
  exact nomatch mem

/-- Nobody has completed a dummy operation when all that is done is to set the value. -/
theorem not_ready_setval (process : ι) : ¬ Ready [Event.setval process] := by
  rintro ⟨creator, mem⟩
  exact nomatch List.mem_singleton.mp mem

/-- What is done later does not undo the dummy operation. -/
theorem Ready.append {history : List (Event ι)} (ready : Ready history) (event : Event ι) :
    Ready (history ++ [event]) := by
  obtain ⟨creator, mem⟩ := ready
  exact ⟨creator, List.mem_append_left _ mem⟩

/-- `sem_otime` is set only when the creator has completed its dummy operation. -/
theorem Phase.ready_of_otime {set : SemSet} {creator : Option ι} {history : List (Event ι)}
    (phase : Phase operation (some set) creator history) (used : set.otime ≠ 0) :
    Ready history := by
  -- sem_otime is set only by the operation with which the creator ends its initialisation.
  cases phase with
  | created _ _ fresh => exact absurd fresh used
  | initialised _ _ fresh _ => exact absurd fresh used
  | ready _ creator => exact ⟨creator, List.mem_cons_of_mem _ List.mem_cons_self⟩

/-- What a place tells stays true when another process does something to the set. -/
theorem Pc.Fits.append {creator : Option ι} {history : List (Event ι)} {process other : ι} {pc : Pc}
    (fits : pc.Fits creator history other) (different : other ≠ process)
    (may : creator = some process ∨ Ready history) (event : Event ι) :
    pc.Fits creator (history ++ [event]) other := by
  -- The creator alone acts before its dummy operation is completed.
  have conflict : creator = some other → ¬ Ready history → False := by
    intro mine unready
    rcases may with theirs | ready
    · rw [mine] at theirs
      exact different (Option.some.inj theirs)
    · exact unready ready
  cases pc with
  | setval =>
    obtain ⟨mine, nothing⟩ := fits
    exact (conflict mine (nothing ▸ not_ready_nil)).elim
  | dummy =>
    obtain ⟨mine, set⟩ := fits
    exact (conflict mine (set ▸ not_ready_setval other)).elim
  -- These know only that the dummy operation has been completed.
  | loop _ _ | test _ _ | check _ => exact ⟨fits.1, fun some_ => (fits.2 some_).append event⟩
  | semop => exact Ready.append fits event
  | semget | existing | stat _ | gaveUp => exact fits
  | done | failed => trivial

variable [DecidableEq ι]

/-- A process that gets to another place keeps the invariant. -/
theorem Invariant.goto (invariant : Invariant operation state) {process : ι} {pc : Pc}
    (undone : state.pc process ≠ .done) (fits : pc.Fits state.creator state.history process) :
    Invariant operation (state.goto process pc) where
  phase := invariant.phase
  fits := by
    intro other
    by_cases same : other = process
    · subst same
      simp only [State.goto, Function.update_self]
      exact fits
    · simp only [State.goto, Function.update_of_ne same]
      exact invariant.fits other
  -- Whoever has operated makes no more steps.
  done := by
    intro other mem
    have already := invariant.done other mem
    have different : other ≠ process := by
      rintro rfl
      exact undone already
    simp only [State.goto, Function.update_of_ne different]
    exact already

/-- A process that does something to the set keeps the invariant, if it is its turn. -/
theorem Invariant.does (invariant : Invariant operation state) {process : ι} {pc : Pc}
    {set : SemSet} {event : Event ι} (undone : state.pc process ≠ .done)
    (may : state.creator = some process ∨ Ready state.history)
    (phase : Phase operation (some set) state.creator (state.history ++ [event]))
    (fits : pc.Fits state.creator (state.history ++ [event]) process)
    (done : ∀ other, event = .operate other → other = process ∧ pc = .done) :
    Invariant operation ((state.does set event).goto process pc) where
  phase := phase
  fits := by
    intro other
    by_cases same : other = process
    · subst same
      simp only [State.goto, Function.update_self]
      exact fits
    · simp only [State.goto, Function.update_of_ne same]
      exact (invariant.fits other).append same may event
  done := by
    intro other mem
    simp only [State.goto, State.does, List.mem_append, List.mem_singleton] at mem ⊢
    -- The event is an old one, or the one that has just happened.
    rcases mem with before | now
    · have already := invariant.done other before
      have different : other ≠ process := by
        rintro rfl
        exact undone already
      rw [Function.update_of_ne different]
      exact already
    · obtain ⟨rfl, finished⟩ := done other now.symm
      rw [Function.update_self]
      exact finished

/-- The creation of the set keeps the invariant. -/
theorem Invariant.creates (invariant : Invariant operation state) {process : ι}
    (at_ : state.pc process = .semget) (absent : state.set = none) (there : Nat) :
    Invariant operation { state.goto process .setval with
      set := some ⟨there, 0⟩, creator := some process } := by
  have phase := invariant.phase
  rw [absent] at phase
  generalize creator_ : state.creator = creator at phase
  generalize history_ : state.history = history at phase
  cases phase
  -- The set has just been created, so nothing has been done to it.
  have unready : ¬ Ready state.history := history_ ▸ not_ready_nil
  exact {
    phase := by
      show Phase operation _ _ state.history
      rw [history_]
      exact .created _ process rfl
    fits := by
      intro other
      by_cases same : other = process
      · subst same
        simp only [State.goto, Function.update_self]
        exact ⟨rfl, history_⟩
      · simp only [State.goto, Function.update_of_ne same]
        have before := invariant.fits other
        have foreign : some process ≠ some other := fun mine => same (Option.some.inj mine).symm
        -- Nobody else has got anywhere that depends on being the creator.
        cases pc : state.pc other with
        | setval | dummy =>
          rw [pc, creator_] at before
          exact nomatch before.1
        | loop _ _ | test _ _ | check _ =>
          rw [pc] at before
          exact ⟨foreign, before.2⟩
        | semop =>
          rw [pc] at before
          exact before
        | semget | existing | stat _ | gaveUp => exact foreign
        | done | failed => trivial
    done := by
      intro other mem
      have already : Event.operate other ∈ state.history := mem
      rw [history_] at already
      exact nomatch already }

/-- The next step of a process keeps the invariant. -/
theorem Invariant.goesOn (invariant : Invariant operation state) {process : ι} {now there : Nat}
    (stepped : GoodInit.goesOn operation state process now there = some next) :
    Invariant operation next := by
  have fits := invariant.fits process
  have phase := invariant.phase
  -- Whoever is done makes no more steps.
  have undone : state.pc process ≠ .done := by
    intro at_
    simp only [GoodInit.goesOn, at_, reduceCtorEq] at stepped
  unfold GoodInit.goesOn at stepped
  cases at_ : state.pc process with
  | semget =>
    rw [at_] at fits
    simp only [at_] at stepped
    split at stepped
    next absent =>
      obtain rfl := Option.some.inj stepped
      exact invariant.creates at_ absent there
    -- The set is there already, and another process has created it.
    · obtain rfl := Option.some.inj stepped
      exact invariant.goto undone fits
  | setval =>
    rw [at_] at fits
    obtain ⟨mine, nothing⟩ := fits
    simp only [at_] at stepped
    obtain ⟨set, there_, rfl⟩ := Option.map_eq_some_iff.mp stepped
    -- The set has been created, and nothing has been done to it.
    rw [there_, mine, nothing] at phase
    cases phase with
    | created _ _ fresh =>
      refine invariant.does undone (.inl mine) ?_ ?_ nofun
      · rw [mine, nothing]
        exact .initialised (set.setval 0) process fresh rfl
      · rw [nothing]
        exact ⟨mine, rfl⟩
  | dummy =>
    rw [at_] at fits
    obtain ⟨mine, only⟩ := fits
    simp only [at_] at stepped
    obtain ⟨result, done, rfl⟩ := Option.map_eq_some_iff.mp stepped
    obtain ⟨set, there_, done⟩ := Option.bind_eq_some_iff.mp done
    obtain ⟨value, used⟩ := SemSet.semop_eq_some done
    -- The value is still the one that the process has set.
    rw [there_, mine, only] at phase
    cases phase with
    | initialised _ _ _ zero =>
      refine invariant.does undone (.inl mine) ?_ ?_ nofun
      · rw [mine, only]
        refine .ready result process used [] ?_
        rw [value, zero]
        rfl
      · rw [only]
        exact ⟨process, List.mem_append_right _ (List.mem_singleton.mpr rfl)⟩
  | existing =>
    rw [at_] at fits
    simp only [at_] at stepped
    obtain ⟨set, there_, rfl⟩ := Option.map_eq_some_iff.mp stepped
    exact invariant.goto undone ⟨fits, fun some_ => absurd rfl some_⟩
  -- Whether the loop goes on depends on the number of tries alone.
  | loop j otime =>
    rw [at_] at fits
    simp only [at_] at stepped
    obtain rfl := Option.some.inj stepped
    refine invariant.goto undone ?_
    split
    · exact fits.1
    · exact fits
  | stat j =>
    rw [at_] at fits
    simp only [at_] at stepped
    obtain ⟨set, there_, rfl⟩ := Option.map_eq_some_iff.mp stepped
    -- What the process reads tells how far the creator has got.
    rw [there_] at phase
    exact invariant.goto undone ⟨fits, phase.ready_of_otime⟩
  | test j otime =>
    rw [at_] at fits
    simp only [at_] at stepped
    obtain rfl := Option.some.inj stepped
    refine invariant.goto undone ?_
    split
    · exact fits
    · exact fits
  | check otime =>
    rw [at_] at fits
    simp only [at_] at stepped
    obtain rfl := Option.some.inj stepped
    refine invariant.goto undone ?_
    split
    · exact fits.1
    -- A time that is not zero stands for a completed dummy operation.
    next some_ => exact fits.2 some_
  | semop =>
    rw [at_] at fits
    have ready : Ready state.history := fits
    simp only [at_] at stepped
    obtain ⟨result, done, rfl⟩ := Option.map_eq_some_iff.mp stepped
    obtain ⟨set, there_, done⟩ := Option.bind_eq_some_iff.mp done
    obtain ⟨value, used⟩ := SemSet.semop_eq_some done
    have own : ∀ other, Event.operate process = .operate other →
        other = process ∧ Pc.done = .done := by
      intro other same
      exact ⟨(Event.operate.inj same).symm, rfl⟩
    refine invariant.does undone (.inr ready) ?_ trivial own
    -- The operations add up to the value.
    rw [there_] at phase
    generalize state.creator = creator at phase ⊢
    generalize state.history = history at phase ready ⊢
    cases phase with
    | created => exact absurd ready not_ready_nil
    | initialised => exact absurd ready (not_ready_setval _)
    | ready _ creator _ operated sum =>
      have more : (operated ++ [process]).map Event.operate =
          operated.map Event.operate ++ [.operate process] := by simp
      have total : (result.semval : Int) =
          effects operation ((operated ++ [process]).map .operate) := by
        rw [more, value, sum]
        simp [effects, Event.effect]
      have phase := Phase.ready result creator used (operated ++ [process]) total
      rw [more] at phase
      exact phase
  | done => simp only [at_, reduceCtorEq] at stepped
  | gaveUp => simp only [at_, reduceCtorEq] at stepped
  | failed => simp only [at_, reduceCtorEq] at stepped

/-- Every step keeps the invariant. -/
theorem Invariant.step (invariant : Invariant operation state) {action : Action ι}
    (stepped : (goodInit operation).step state action = some next) :
    Invariant operation next := by
  cases action with
  | goesOn process now there => exact invariant.goesOn stepped
  -- A process that stops with an error does no harm to the others.
  | fails process =>
    simp only [goodInit, GoodInit.step] at stepped
    split at stepped
    next calls =>
      obtain rfl := Option.some.inj stepped
      refine invariant.goto ?_ trivial
      intro at_
      rw [at_] at calls
      exact nomatch calls
    · exact nomatch stepped

/-- What is promised of what is done to the set. -/
structure Correct (operation : ι → Int) (state : State ι) : Prop where
  /-- The creator sets the value and completes its dummy operation before any other operation. -/
  initialised : ∀ front process back, state.history = front ++ .operate process :: back →
    ∃ creator, state.creator = some creator ∧ [.setval creator, .dummy creator] <+: front
  /-- Only the creator sets the value, before anything else is done. -/
  intact : ∀ front process back, state.history = front ++ .setval process :: back →
    state.creator = some process ∧ front = []
  /-- Once it has been set, the value is what the operations since then add up to. -/
  value : state.history ≠ [] →
    ∃ set, state.set = some set ∧ (set.semval : Int) = effects operation state.history
  /-- A process that gives up does nothing to the set. -/
  silent : ∀ process, state.pc process = .gaveUp →
    ∀ event ∈ state.history, event.process ≠ process

omit [DecidableEq ι] in
/-- Operations come after the initialisation. -/
theorem Phase.initialised_before {set : Option SemSet} {creator : Option ι}
    {history front back : List (Event ι)} {process : ι}
    (phase : Phase operation set creator history)
    (split : history = front ++ .operate process :: back) :
    ∃ one, creator = some one ∧ [.setval one, .dummy one] <+: front := by
  cases phase with
  | absent | created => simp at split
  | initialised _ one =>
    -- A single event that is not an operation has no operation in it.
    cases front with
    | nil => simp at split
    | cons first rest => simp at split
  -- The first two events are not operations.
  | ready _ one _ operated =>
    match front with
    | [] => simp at split
    | [first] => simp at split
    | first :: second :: rest =>
      simp only [List.cons_append, List.cons.injEq] at split
      obtain ⟨rfl, rfl, _⟩ := split
      exact ⟨one, rfl, rest, rfl⟩

omit [DecidableEq ι] in
/-- The value is set before anything else is done. -/
theorem Phase.setval_first {set : Option SemSet} {creator : Option ι}
    {history front back : List (Event ι)} {process : ι}
    (phase : Phase operation set creator history)
    (split : history = front ++ .setval process :: back) :
    creator = some process ∧ front = [] := by
  cases phase with
  | absent | created => simp at split
  | initialised _ one =>
    cases front with
    | nil =>
      simp only [List.nil_append, List.cons.injEq, Event.setval.injEq] at split
      exact ⟨congrArg some split.1, rfl⟩
    | cons first rest => simp at split
  | ready _ one _ operated =>
    cases front with
    | nil =>
      simp only [List.nil_append, List.cons.injEq, Event.setval.injEq] at split
      exact ⟨congrArg some split.1, rfl⟩
    | cons first rest =>
      -- Behind the first event there are only the dummy operation and the operations.
      simp only [List.cons_append, List.cons.injEq] at split
      have mem : Event.setval process ∈ Event.dummy one :: operated.map Event.operate := by
        rw [split.2]
        exact List.mem_append_right _ List.mem_cons_self
      simp at mem

omit [DecidableEq ι] in
/-- The value is the sum of the operations as soon as it has been set. -/
theorem Phase.value {set : Option SemSet} {creator : Option ι} {history : List (Event ι)}
    (phase : Phase operation set creator history) (some_ : history ≠ []) :
    ∃ there, set = some there ∧ (there.semval : Int) = effects operation history := by
  cases phase with
  | absent | created => exact absurd rfl some_
  -- The creator has set the value to zero.
  | initialised there _ _ zero =>
    refine ⟨there, rfl, ?_⟩
    rw [zero]
    rfl
  | ready there _ _ operated sum =>
    refine ⟨there, rfl, ?_⟩
    rw [sum]
    simp [effects, Event.effect]

omit [DecidableEq ι] in
/-- Whatever is done to the set is an operation, or is done by its creator. -/
theorem Phase.event_cases {set : Option SemSet} {creator : Option ι} {history : List (Event ι)}
    {event : Event ι} (phase : Phase operation set creator history) (mem : event ∈ history) :
    creator = some event.process ∨ event = .operate event.process := by
  -- The creator sets the value and does the first operation; all others come later.
  cases phase with
  | absent | created => exact nomatch mem
  | initialised _ one =>
    obtain rfl := List.mem_singleton.mp mem
    exact .inl rfl
  | ready _ one _ operated =>
    rcases List.mem_cons.mp mem with rfl | mem
    · exact .inl rfl
    · rcases List.mem_cons.mp mem with rfl | mem
      · exact .inl rfl
      · obtain ⟨process, _, rfl⟩ := List.mem_map.mp mem
        exact .inr rfl

omit [DecidableEq ι] in
/-- The invariant keeps the promise. -/
theorem Invariant.correct (invariant : Invariant operation state) : Correct operation state where
  initialised := fun _ _ _ split => invariant.phase.initialised_before split
  intact := fun _ _ _ split => invariant.phase.setval_first split
  value := invariant.phase.value
  silent := by
    rintro process gaveUp event mem rfl
    have foreign := invariant.fits event.process
    rw [gaveUp] at foreign
    rcases invariant.phase.event_cases mem with mine | operated
    · exact foreign mine
    · -- Whoever has operated is done.
      rw [operated] at mem
      have done := invariant.done event.process mem
      rw [gaveUp] at done
      exact nomatch done

/-- Nobody operates before the set is initialised, and nothing is overwritten. -/
theorem goodInit_correct (operation : ι → Int) (actions : List (Action ι)) (state : State ι)
    (ran : (goodInit operation).run (initial ι) actions = some state) :
    Correct operation state := by
  -- The invariant holds along the run.
  have preserved : ∀ state action next, Invariant operation state →
      (goodInit operation).step state action = some next → Invariant operation next :=
    fun _ _ _ before stepped => before.step stepped
  exact (Machine.run_invariant preserved invariant_initial ran).correct

/-- The second process opens the set before the first has initialised it. -/
def early : List (Action (Fin 2)) :=
  [.goesOn 0 0 77, .goesOn 1 0 0, .goesOn 1 0 0, .goesOn 1 0 0, .goesOn 1 0 0, .goesOn 1 0 0,
    .goesOn 0 0 0, .goesOn 0 1000 0, .goesOn 1 0 0, .goesOn 1 0 0, .goesOn 1 0 0, .goesOn 1 0 0,
    .goesOn 1 1001 0, .goesOn 0 1002 0]

/-- The second process waits, and then both operate. -/
theorem goodInit_correct_early :
    ∃ state, (goodInit fun _ => (3 : Int)).run (initial (Fin 2)) early = some state ∧
      (state.set, state.history) = (some ⟨6, 1002⟩,
        [.setval 0, .dummy 0, .operate 1, .operate 0]) ∧ Correct (fun _ => 3) state := by
  -- Process 1 finds the set before it is initialised, and waits.
  have shown : ((goodInit fun _ => (3 : Int)).run (initial (Fin 2)) early).map
      (fun state => (state.set, state.history)) =
        some (some ⟨6, 1002⟩, [.setval 0, .dummy 0, .operate 1, .operate 0]) := by
    decide +kernel
  obtain ⟨state, ran, facts⟩ := Option.map_eq_some_iff.mp shown
  exact ⟨state, ran, facts, goodInit_correct _ early state ran⟩

end GoodInit

end SysProg.Svsem
