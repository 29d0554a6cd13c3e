import SysProg.GoPatterns.SemaphoreLaws

/-! When a write round may reuse the wait group that the readers of the last round waited for. -/

namespace SysProg.GoPatterns.Semaphore

variable {maxReads maxReaders : Nat}

/-- A reader at this place has entered a `rw.write.Wait()` that has to return before it goes on. -/
def ReaderPc.InsideWait (pc : ReaderPc) : Prop :=
  pc = .blocked ∨ pc = .woken

/-- When the writer executes `rw.write.Add(1)`, no reader is inside an earlier `Wait`. -/
def ReusesCleanly (state : State maxReaders) (actor : Actor maxReaders) : Prop :=
  actor = .writer → state.writer = .addWrite →
    ∀ reader, ¬ (state.readers reader).InsideWait

/-- The writer sleeps on until every reader that `WriteUnlock` released has left its `Wait`. -/
def SleepsLongEnough (state : State maxReaders) (actor : Actor maxReaders) : Prop :=
  actor = .writer → state.writer = .sleep →
    ∀ reader, state.readers reader ≠ .woken

instance (state : State maxReaders) (actor : Actor maxReaders) :
    Decidable (SleepsLongEnough state actor) :=
  inferInstanceAs (Decidable (actor = .writer → state.writer = .sleep →
    ∀ reader, state.readers reader ≠ .woken))

/-- A writer that is about to raise the counter finds no reader waiting for the last round. -/
def State.Rested (state : State maxReaders) : Prop :=
  state.writer = .addWrite → ∀ reader, state.readers reader ≠ .woken

/-- While the counter is zero nobody is blocked inside `Wait`. -/
theorem not_blocked_of_addWrite {state : State maxReaders} (invariant : Invariant maxReads state)
    (here : state.writer = .addWrite) (reader : Fin maxReaders) :
    state.readers reader ≠ .blocked := by
  intro blocked
  -- The counter is what the writer has added, and it has added nothing yet.
  have raised : 0 < state.write := invariant.blocked reader blocked
  have idle : state.write = 0 := by
    rw [invariant.write, here]
    rfl
  omega

/-- A reader is released by the writer alone, never by a step of its own. -/
theorem readerStep_ne_woken {state next : State maxReaders} {reader : Fin maxReaders}
    (stepped : readerStep maxReads state reader = some next) : next.readers reader ≠ .woken := by
  -- No instruction of a reader is followed by the place behind a released `Wait`.
  unfold readerStep at stepped
  split at stepped <;>
    simp only [reduceCtorEq, Option.some.injEq, Option.ite_none_right_eq_some] at stepped
  case h_4 | h_7 =>
    obtain ⟨_, rfl⟩ := stepped
    simp [State.readerAt]
  all_goals
    subst stepped
    simp only [State.readerAt, Function.update_self]
    try split
  all_goals
    intro woken
    cases woken

/-- A step of a reader leaves the writer and all other readers where they are. -/
theorem State.Rested.readerStep {state next : State maxReaders} {reader : Fin maxReaders}
    (rested : state.Rested) (stepped : readerStep maxReads state reader = some next) :
    next.Rested := by
  have move := readerStep_move stepped
  intro here other woken
  by_cases same : other = reader
  · -- The reader that stepped is not released by its own step.
    subst same
    exact readerStep_ne_woken stepped woken
  · -- Every other reader, and the writer, are as they were.
    rw [move.moved] at here woken
    simp only [State.readerAt, Function.update_of_ne same] at here woken
    exact rested here other woken

/-- The writer comes to `rw.write.Add(1)` out of its sleep only. -/
theorem writerStep_addWrite {state next : State maxReaders}
    (stepped : writerStep maxReads state = some next) (arrives : next.writer = .addWrite) :
    state.writer = .sleep ∧ next.readers = state.readers := by
  unfold writerStep at stepped
  split at stepped <;> rename_i here
  case h_2 =>
    obtain rfl := Option.some.inj stepped
    exact ⟨here, rfl⟩
  case h_1 =>
    -- The `select` goes on to the sleep or to the report.
    obtain rfl := Option.some.inj stepped
    cases closed : state.shutdown <;> simp [closed] at arrives
  case h_4 | h_6 =>
    -- The loops over the buffers go round or leave for the work and for `Done`.
    split at stepped
    · simp only [Option.ite_none_right_eq_some, Option.some.injEq] at stepped
      obtain ⟨_, rfl⟩ := stepped
      cases arrives
    · obtain rfl := Option.some.inj stepped
      cases arrives
  case h_9 | h_10 => cases stepped
  all_goals
    obtain rfl := Option.some.inj stepped
    cases arrives

/-- Launching a reader releases nobody, and the writer is launched at its `select`. -/
theorem State.Rested.mainStep {state next : State maxReaders} (rested : state.Rested)
    (stepped : mainStep state = some next) : next.Rested := by
  unfold Semaphore.mainStep at stepped
  split at stepped
  case h_2 first _ =>
    split at stepped
    · rename_i launched
      obtain rfl := Option.some.inj stepped
      intro here other
      -- The reader launched comes to its `select`, and the others stay.
      by_cases same : other = ⟨first, launched⟩
      · simp [State.readerAt, same]
      · simpa [State.readerAt, Function.update_of_ne same] using rested here other
    · obtain rfl := Option.some.inj stepped
      exact rested
  case h_4 =>
    obtain rfl := Option.some.inj stepped
    intro here
    cases here
  case h_6 =>
    simp only [Option.ite_none_right_eq_some, Option.some.injEq] at stepped
    obtain ⟨_, rfl⟩ := stepped
    exact rested
  case h_7 => cases stepped
  all_goals
    obtain rfl := Option.some.inj stepped
    exact rested

/-- Where the writer sleeps long enough, no step brings it to the counter too early. -/
theorem State.Rested.step {state next : State maxReaders} {actor : Actor maxReaders}
    (rested : state.Rested) (patient : SleepsLongEnough state actor)
    (stepped : (readerWriter maxReads maxReaders).step state actor = some next) :
    next.Rested := by
  cases actor with
  | main => exact rested.mainStep stepped
  | reader reader => exact rested.readerStep stepped
  | writer =>
    -- Only the end of the sleep leads to the counter, and there the readers have returned.
    intro arrives reader
    obtain ⟨asleep, readers⟩ := writerStep_addWrite stepped arrives
    rw [readers]
    exact patient rfl asleep reader

/--
The wait group is reused cleanly in every run in which the writer sleeps long enough.

The sleep is the only thing that keeps two rounds apart. A writer that wakes up while a released
reader has not run yet raises the counter under that reader, unless the reader overtakes it.
-/
theorem write_reuse_clean :
    (∀ actors : List (Actor maxReaders),
      (readerWriter maxReads maxReaders).Along SleepsLongEnough (initial maxReaders) actors →
      (readerWriter maxReads maxReaders).Along ReusesCleanly (initial maxReaders) actors) ∧
    ∀ state : State maxReaders, ¬ SleepsLongEnough state .writer →
      ∃ next, (readerWriter maxReads maxReaders).step state .writer = some next ∧
        ¬ ReusesCleanly next .writer := by
  constructor
  · intro actors along
    -- Carried along: the invariant of the whole program, and the writer never arriving too early.
    have preserved : ∀ state actor next, Invariant maxReads state ∧ state.Rested →
        SleepsLongEnough state actor →
        (readerWriter maxReads maxReaders).step state actor = some next →
        Invariant maxReads next ∧ next.Rested := by
      intro state actor next good patient stepped
      exact ⟨good.1.step stepped, good.2.step patient stepped⟩
    refine Machine.Along.weaken preserved ?_ ⟨invariant_initial, nofun⟩ along
    rintro state actor ⟨invariant, rested⟩ - rfl here reader (blocked | woken)
    · exact not_blocked_of_addWrite invariant here reader blocked
    · exact rested here reader woken
  · intro state early
    -- The writer goes from its sleep straight to the counter, and the reader stays where it is.
    simp only [SleepsLongEnough, true_implies, not_forall, not_not] at early
    obtain ⟨asleep, reader, woken⟩ := early
    refine ⟨{ state with writer := .addWrite }, ?_, fun clean => ?_⟩
    · show writerStep maxReads state = _
      rw [writerStep, asleep]
    · exact clean rfl rfl reader (.inr woken)

/-- One write round of a start with one reader, which waits for the round to end. -/
def waitedRound : List (Actor 1) :=
  [.main, .main, .main, .main, .main, .writer, .writer, .writer, .reader 0, .reader 0,
    .writer, .writer, .writer, .writer, .writer, .writer]

/-- The reader is scheduled before the writer wakes up, and the second round starts cleanly. -/
theorem write_reuse_clean_oneReader : ∃ state,
    (readerWriter 1 1).run (initial 1) (waitedRound ++ [.writer, .reader 0, .writer]) = some state ∧
    state.writer = .addWrite ∧ ReusesCleanly state .writer := by
  -- The writer sleeps longer than the reader needs, in every step of the run.
  have patient : (readerWriter 1 1).Along SleepsLongEnough (initial 1)
      (waitedRound ++ [.writer, .reader 0, .writer] ++ [.writer]) := by
    decide
  obtain ⟨state, ran, here⟩ : ∃ state,
      (readerWriter 1 1).run (initial 1) (waitedRound ++ [.writer, .reader 0, .writer]) =
        some state ∧ state.writer = .addWrite := ⟨_, rfl, rfl⟩
  exact ⟨state, ran, here, (write_reuse_clean.1 _ patient).of_run ran⟩

/-- A second round that starts before the released reader runs reuses the wait group too early. -/
theorem write_reuse_too_early : ¬ ∀ (maxReads maxReaders : Nat) (actors : List (Actor maxReaders)),
    (readerWriter maxReads maxReaders).Along ReusesCleanly (initial maxReaders) actors := by
  intro always
  obtain ⟨state, ran, here, woken⟩ : ∃ state,
      (readerWriter 1 1).run (initial 1) (waitedRound ++ [.writer, .writer]) = some state ∧
      state.writer = .addWrite ∧ state.readers 0 = .woken := ⟨_, rfl, rfl, rfl⟩
  -- The writer has gone through its `select` and its sleep, and the reader has not moved.
  have clean : ReusesCleanly state (.writer : Actor 1) :=
    (always 1 1 (waitedRound ++ [.writer, .writer] ++ [.writer])).of_run ran
  exact clean rfl here 0 (.inr woken)

end SysProg.GoPatterns.Semaphore
