import SysProg.Namespaces.SimpleInit

/-! The init program waits for a signal, and waits in vain if its handler has run before. -/

namespace SysProg.Namespaces.SimpleInit

/-- The child that was started last has terminated, and its status has been taken. -/
def State.StartedReaped (state : State) : Prop :=
  ∃ index, state.started = some index ∧ state.children[index]? = some .reaped

/-- The program is blocked in `pause()`, with no signal on the way. -/
def State.Blocked (state : State) : Prop :=
  state.main = .pause ∧ state.handling = false ∧ state.pending = false

/-- The handler reaps the child that was just started only when `main` has got to `pause()`. -/
def ReapsInPause (state : State) (action : Action) : Prop :=
  ∀ index, action = .waits index → state.started = some index →
    state.children[index]? = some .zombie → state.main ≠ .created

instance (state : State) (action : Action) : Decidable (ReapsInPause state action) :=
  match action with
  | .waits index =>
    decidable_of_iff (state.started = some index → state.children[index]? = some .zombie →
        state.main ≠ .created) (by simp [ReapsInPause])
  | .reads _ | .forks | .forkFails | .pauses | .tcsetpgrp | .tcsetpgrpFails | .delivers | .returns
  | .changes _ | .terminates _ | .adopts | .raises => isTrue nofun

variable {state next : State} {action : Action}

/-- `main` is about to wait for the child that it has started, or waits for it. -/
def State.Waiting (state : State) : Prop :=
  state.main = .created ∨ state.main = .pause ∧ state.handling = false

/-- What holds as long as the handler reaps in `pause()`. -/
structure Invariant (state : State) : Prop where
  -- New children are added behind it.
  known : ∀ index, state.started = some index → index < state.children.length
  -- There is still something that `pause()` can wait for.
  unreaped : state.Waiting → ¬ state.StartedReaped

/-- Nothing has been started at the start. -/
theorem invariant_initial : Invariant initial where
  known := nofun
  unreaped := fun waiting => by rcases waiting with same | ⟨same, _⟩ <;> exact nomatch same

/-- What can happen happens outside, in the handler, or in `main` while the handler does not run. -/
theorem step_cases (stepped : simpleInit.step state action = some next) :
    outsideStep state action = some next ∨
      state.handling = true ∧ handlerStep state action = some next ∨
        state.handling = false ∧ mainStep state action = some next := by
  simp only [simpleInit, step] at stepped
  split at stepped
  · exact nomatch stepped
  -- What happens outside is tried first, and does not depend on who runs.
  cases outside : outsideStep state action with
  | some result =>
    rw [outside] at stepped
    exact .inl stepped
  | none =>
    rw [outside] at stepped
    simp only [Option.orElse_none] at stepped
    cases handling : state.handling with
    | true =>
      rw [handling, if_pos rfl] at stepped
      exact .inr (.inl ⟨rfl, stepped⟩)
    | false =>
      rw [handling, if_neg Bool.false_ne_true] at stepped
      exact .inr (.inr ⟨rfl, stepped⟩)

/-- A child is reaped in no other way than by the handler. -/
theorem Invariant.childBecomes (invariant : Invariant state) {index : Nat} {child : Child}
    {pending : Bool}
    (reaped : child = .reaped → state.Waiting → state.started ≠ some index) :
    Invariant { state.childBecomes index child with pending } where
  known := by
    intro started is
    have known := invariant.known started is
    rwa [State.childBecomes, List.length_set]
  unreaped := by
    rintro waiting ⟨started, is, dead⟩
    have known := invariant.known started is
    simp only [State.childBecomes, List.getElem?_set] at dead
    -- Another child has not changed, so it is not the one that is gone.
    by_cases same : index = started
    · rw [if_pos same, if_pos (same ▸ known)] at dead
      exact reaped (Option.some.inj dead) waiting (same ▸ is)
    · rw [if_neg same] at dead
      exact invariant.unreaped waiting ⟨started, is, dead⟩

/-- One more child is not the child that was started last. -/
theorem Invariant.adopts (invariant : Invariant state) :
    Invariant { state with children := state.children ++ [.alive false] } where
  -- The orphan is put behind the children that are known.
  known := by
    intro started is
    have known := invariant.known started is
    simp only [List.length_append]
    omega
  unreaped := by
    rintro waiting ⟨started, is, dead⟩
    have known := invariant.known started is
    simp only [List.getElem?_append_left known] at dead
    exact invariant.unreaped waiting ⟨started, is, dead⟩

/-- What happens outside keeps the invariant. -/
theorem Invariant.outsideStep (invariant : Invariant state)
    (stepped : SimpleInit.outsideStep state action = some next) : Invariant next := by
  unfold SimpleInit.outsideStep at stepped
  split at stepped
  · -- A handler that begins to run while `main` is in `pause()` wakes it when it ends.
    split at stepped
    · obtain rfl := Option.some.inj stepped
      exact {
        known := invariant.known
        unreaped := by
          rintro (created | ⟨_, idle⟩)
          · exact invariant.unreaped (.inl created)
          · exact nomatch idle }
    · exact nomatch stepped
  -- A child that stops, goes on or terminates is not reaped by that.
  · split at stepped
    · obtain rfl := Option.some.inj stepped
      exact invariant.childBecomes nofun
    · exact nomatch stepped
  · split at stepped
    · obtain rfl := Option.some.inj stepped
      exact invariant.childBecomes nofun
    · exact nomatch stepped
  · obtain rfl := Option.some.inj stepped
    exact invariant.adopts
  · obtain rfl := Option.some.inj stepped
    exact ⟨invariant.known, invariant.unreaped⟩
  · exact nomatch stepped

/-- What the handler does keeps the invariant, if it reaps in `pause()`. -/
theorem Invariant.handlerStep (invariant : Invariant state) (handling : state.handling = true)
    (inPause : ReapsInPause state action)
    (stepped : SimpleInit.handlerStep state action = some next) : Invariant next := by
  unfold SimpleInit.handlerStep at stepped
  split at stepped
  next index =>
    split at stepped
    next child there =>
      split at stepped
      next found =>
        obtain rfl := Option.some.inj stepped
        refine invariant.childBecomes fun reaped waiting started => ?_
        -- What is reaped had terminated, so `main` is past the point where it is in danger.
        cases child with
        | alive unreported => exact nomatch reaped
        | zombie =>
          rcases waiting with created | ⟨_, idle⟩
          · exact inPause index rfl started there created
          · rw [handling] at idle
            exact nomatch idle
        | reaped => exact nomatch found
      · exact nomatch stepped
    · exact nomatch stepped
  -- `waitpid` finds nothing more, and the handler returns.
  · split at stepped
    · exact nomatch stepped
    · obtain rfl := Option.some.inj stepped
      exact {
        known := invariant.known
        unreaped := by
          -- `main` is no longer in `pause()`.
          intro waiting
          by_cases paused : state.main = .pause
          · rw [State.Waiting, if_pos paused] at waiting
            rcases waiting with same | ⟨same, _⟩ <;> exact nomatch same
          · rw [State.Waiting, if_neg paused] at waiting
            rcases waiting with created | ⟨same, _⟩
            · exact invariant.unreaped (.inl created)
            · exact absurd same paused }
  · exact nomatch stepped

/-- What `main` does keeps the invariant. -/
theorem Invariant.mainStep (invariant : Invariant state)
    (stepped : SimpleInit.mainStep state action = some next) : Invariant next := by
  -- Wherever `main` goes without waiting, there is nothing to show.
  have elsewhere : ∀ main : MainPc, main ≠ .created → main ≠ .pause →
      Invariant { state with main } := by
    intro main notCreated notPause
    exact {
      known := invariant.known
      unreaped := by
        rintro (same | ⟨same, _⟩)
        · exact absurd same notCreated
        · exact absurd same notPause }
  unfold SimpleInit.mainStep at stepped
  split at stepped
  -- Reading a line leaves the children alone.
  · split at stepped
    · split at stepped
      · obtain rfl := Option.some.inj stepped
        exact elsewhere .exits nofun nofun
      next line =>
        obtain rfl := Option.some.inj stepped
        split
        · exact elsewhere .fgets nofun nofun
        · exact elsewhere .fork nofun nofun
    · exact nomatch stepped
  · split at stepped
    · -- The child that is started is alive.
      obtain rfl := Option.some.inj stepped
      exact {
        known := by
          intro started is
          obtain rfl := Option.some.inj is
          simp
        unreaped := by
          rintro _ ⟨started, is, dead⟩
          obtain rfl := Option.some.inj is
          simp at dead }
    · exact nomatch stepped
  · split at stepped
    · obtain rfl := Option.some.inj stepped
      exact elsewhere .exits nofun nofun
    · exact nomatch stepped
  · split at stepped
    -- What has not been reaped by now is not reaped by the call.
    next created =>
      obtain rfl := Option.some.inj stepped
      exact ⟨invariant.known, fun _ => invariant.unreaped (.inl created)⟩
    · exact nomatch stepped
  · split at stepped
    · obtain rfl := Option.some.inj stepped
      exact elsewhere .fgets nofun nofun
    · exact nomatch stepped
  · split at stepped
    · obtain rfl := Option.some.inj stepped
      exact elsewhere .exits nofun nofun
    · exact nomatch stepped
  · exact nomatch stepped

/-- Every step in which the handler reaps in `pause()` keeps the invariant. -/
theorem Invariant.step (invariant : Invariant state) (inPause : ReapsInPause state action)
    (stepped : simpleInit.step state action = some next) : Invariant next := by
  -- A step outside the program, one of the handler, or one of the main program.
  rcases step_cases stepped with outside | ⟨handling, handler⟩ | ⟨_, main⟩
  · exact invariant.outsideStep outside
  · exact invariant.handlerStep handling inPause handler
  · exact invariant.mainStep main

/-- If the handler reaps in `pause()`, nobody is blocked there for a child that is gone. -/
theorem simpleInit_awake {actions : List Action}
    (inPause : simpleInit.Along ReapsInPause initial actions)
    (ran : simpleInit.run initial actions = some state) :
    ¬ (state.Blocked ∧ state.StartedReaped) := by
  -- Each step keeps the invariant, given that the child is reaped during pause().
  have preserved : ∀ state action next, Invariant state → ReapsInPause state action →
      simpleInit.step state action = some next → Invariant next :=
    fun _ _ _ before inPause stepped => before.step inPause stepped
  have invariant := Machine.run_invariant_along preserved invariant_initial inPause ran
  rintro ⟨⟨paused, idle, _⟩, gone⟩
  exact invariant.unreaped (.inr ⟨paused, idle⟩) gone

/-- A command that takes long enough. -/
def longCommand : List Action :=
  [.reads (some ['l', 's', '\n']), .forks, .pauses, .terminates 0, .delivers, .waits 0, .returns]

/-- The handler wakes `main`, which has reaped the child by then. -/
theorem simpleInit_awake_longCommand :
    ∃ state, simpleInit.run initial longCommand = some state ∧ state.main = .tcsetpgrp ∧
      state.StartedReaped ∧ ¬ (state.Blocked ∧ state.StartedReaped) := by
  have inPause : simpleInit.Along ReapsInPause initial longCommand := by decide
  -- The command outlives the call of pause(), so its end wakes the parent up.
  have shown : (simpleInit.run initial longCommand).map
      (fun state => (state.main, state.started, state.children)) =
        some (.tcsetpgrp, some 0, [.reaped]) := by decide
  obtain ⟨state, ran, facts⟩ := Option.map_eq_some_iff.mp shown
  obtain ⟨main, started, children⟩ := by simpa only [Prod.mk.injEq] using facts
  exact ⟨state, ran, main, ⟨0, started, by rw [children]; rfl⟩, simpleInit_awake inPause ran⟩

/-- A command that terminates before `main` gets to `pause()`. -/
def shortCommand : List Action :=
  [.reads (some ['l', 's', '\n']), .forks, .terminates 0, .delivers, .waits 0, .returns, .pauses]

/-- The handler takes the event that `pause()` waits for. -/
theorem simpleInit_hangs :
    ¬ ∀ actions state, simpleInit.run initial actions = some state →
      ¬ (state.Blocked ∧ state.StartedReaped) := by
  intro awake
  -- The only child has been reaped, and nothing else is going to happen.
  have shown : simpleInit.run initial shortCommand =
      some ⟨.pause, false, [.reaped], some 0, false⟩ := by decide
  exact awake shortCommand _ shown ⟨⟨rfl, rfl, rfl⟩, 0, rfl, rfl⟩

end SysProg.Namespaces.SimpleInit
