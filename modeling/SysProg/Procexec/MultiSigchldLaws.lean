import SysProg.Lib.Tally
import SysProg.Procexec.MultiSigchld

/-! A dead child leaves its signal pending until the handler looks, so none is forgotten. -/

namespace SysProg.Procexec.MultiSigchld

/-- What counts as not waited on. -/
def Child.unwaited : Child → Nat
  | .reaped => 0
  | _ => 1

/-- What the handler has reaped and not counted yet. -/
def uncounted (handler : Option HandlerPc) : Nat :=
  if handler = some .decrement then 1 else 0

/-- The handler has yet to find out that no child is dead. -/
def Looking : Option HandlerPc → Prop
  | some .waitpid | some .decrement => True
  | some .returns | none => False

/-- `main` has not created this child yet. -/
def MainPc.Before (index : Nat) : MainPc → Prop
  | .create j => j ≤ index
  | .failed => True
  | _ => False

variable {children : Nat} {state next : State children}

/-- What holds at all times. -/
structure Invariant (state : State children) : Prop where
  -- The loop creates the children in the order of their numbers.
  uncreated : ∀ index : Fin children, state.child index = .notCreated → state.main.Before index.val
  fresh : ∀ j, state.main = .create j → ∀ index : Fin children, j ≤ index.val →
    state.child index = .notCreated
  -- The handler is late by one between `waitpid` and the decrement.
  counts : state.numLiveChildren =
    tally Child.unwaited state.child + uncounted state.handler
  /-- A dead child has its signal pending, unless the handler is looking for it. -/
  noticed : ¬ Looking state.handler → ∀ index, state.child index = .zombie → state.pending = true
  -- The signal is blocked everywhere else.
  suspended : state.handler ≠ none → state.main = .sigsuspend
  waits : state.main = .sigsuspend → state.handler = none → 0 < state.numLiveChildren
  finished : state.main = .finished → state.numLiveChildren ≤ 0

/-- Nothing has happened at the start. -/
theorem invariant_initial : Invariant (initial children) where
  -- No child exists, and no signal was caught.
  uncreated := fun index _ => Nat.zero_le index.val
  fresh := fun _ _ _ _ => rfl
  counts := by simp [initial, tally, Child.unwaited, uncounted]
  noticed := nofun
  suspended := fun runs => absurd rfl runs
  waits := nofun
  finished := nofun

/-- A child is weighed as what becomes of it. -/
theorem State.tally_childBecomes (state : State children) (index : Fin children) (child : Child) :
    tally Child.unwaited (state.childBecomes index child).child +
        (state.child index).unwaited =
      tally Child.unwaited state.child + child.unwaited :=
  tally_update Child.unwaited state.child index child

/-- Every step of the handler keeps the invariant. -/
theorem Invariant.handlerStep (invariant : Invariant state) {pc : HandlerPc}
    (at_ : state.handler = some pc)
    (stepped : MultiSigchld.handlerStep state pc = some next) : Invariant next := by
  have suspended := invariant.suspended (by rw [at_]; exact nofun)
  have counts := invariant.counts
  rw [at_] at counts
  cases pc with
  | waitpid =>
    simp only [MultiSigchld.handlerStep] at stepped
    split at stepped
    · exact nomatch stepped
    next none_ =>
      -- The handler has found out that no child is dead.
      obtain rfl := Option.some.inj stepped
      exact { invariant with
        counts := counts
        noticed := fun _ index dead => absurd ⟨index, dead⟩ none_
        suspended := fun _ => suspended
        waits := fun _ idle => nomatch idle }
  -- The child that has been reaped is counted now.
  | decrement =>
    obtain rfl := Option.some.inj stepped
    exact { invariant with
      counts := by
        have one : uncounted (some .decrement) = 1 := rfl
        have none_ : uncounted (some .waitpid) = 0 := rfl
        show state.numLiveChildren - 1 =
          tally Child.unwaited state.child + uncounted (some .waitpid)
        omega
      noticed := fun found => absurd trivial found
      suspended := fun _ => suspended
      waits := fun _ idle => nomatch idle
      finished := fun same => nomatch suspended.symm.trans same }
  -- The mask is restored, and `main` tests the counter again.
  | returns =>
    obtain rfl := Option.some.inj stepped
    have noticed := invariant.noticed (by rw [at_]; exact id)
    exact { invariant with
      uncreated := by
        intro index fresh
        have before := invariant.uncreated index fresh
        rw [suspended] at before
        exact before
      fresh := nofun
      counts := counts
      noticed := fun _ => noticed
      suspended := fun runs => absurd rfl runs
      waits := nofun
      finished := nofun }

/-- Creating a child keeps the invariant. -/
theorem Invariant.create (invariant : Invariant state) (idle : state.handler = none) {j : Nat}
    (at_ : state.main = .create j) (there : j < children) :
    Invariant { state.childBecomes ⟨j, there⟩ .alive with main := .create (j + 1) } := by
  have counts := invariant.counts
  have noticed := invariant.noticed (by rw [idle]; exact id)
  -- The child that is created has not been waited on, before or after.
  have fresh := invariant.fresh j at_ ⟨j, there⟩ (Nat.le_refl j)
  have moved := state.tally_childBecomes ⟨j, there⟩ .alive
  rw [fresh] at moved
  have same : Child.unwaited .notCreated = Child.unwaited .alive := rfl
  exact { invariant with
    uncreated := by
      intro index uncreated
      by_cases mine : index = ⟨j, there⟩
      · rw [mine] at uncreated
        simp [State.childBecomes] at uncreated
      · simp only [State.childBecomes, Function.update_of_ne mine] at uncreated
        have before := invariant.uncreated index uncreated
        rw [at_] at before
        have other : index.val ≠ j := fun same => mine (Fin.ext same)
        exact Nat.lt_of_le_of_ne before other.symm
    fresh := by
      intro later at_ index above
      obtain rfl := MainPc.create.inj at_
      have mine : index ≠ ⟨j, there⟩ := by
        rintro rfl
        exact absurd above (Nat.not_succ_le_self j)
      simp only [State.childBecomes, Function.update_of_ne mine]
      exact invariant.fresh j ‹_› index (Nat.le_of_succ_le above)
    counts := by
      show state.numLiveChildren =
        tally Child.unwaited (state.childBecomes ⟨j, there⟩ .alive).child +
          uncounted state.handler
      omega
    noticed := by
      intro _ index dead
      by_cases mine : index = ⟨j, there⟩
      · rw [mine] at dead
        simp [State.childBecomes] at dead
      · simp only [State.childBecomes, Function.update_of_ne mine] at dead
        exact noticed index dead
    suspended := fun runs => absurd idle runs
    waits := nofun
    finished := nofun }

/-- Every step of `main` keeps the invariant. -/
theorem Invariant.mainStep (invariant : Invariant state) (idle : state.handler = none)
    (stepped : MultiSigchld.mainStep state = some next) : Invariant next := by
  have counts := invariant.counts
  have noticed := invariant.noticed (by rw [idle]; exact id)
  unfold MultiSigchld.mainStep at stepped
  cases at_ : state.main with
  | create j =>
    simp only [at_] at stepped
    split at stepped
    next there =>
      obtain rfl := Option.some.inj stepped
      exact invariant.create idle at_ there
    -- All children have been created.
    next enough =>
      obtain rfl := Option.some.inj stepped
      exact { invariant with
        uncreated := by
          intro index uncreated
          have before := invariant.uncreated index uncreated
          rw [at_] at before
          exact absurd (Nat.lt_of_le_of_lt before index.isLt) enough
        fresh := nofun
        counts := counts
        noticed := fun _ => noticed
        suspended := fun runs => absurd idle runs
        waits := nofun
        finished := nofun }
  | loop =>
    simp only [at_] at stepped
    obtain rfl := Option.some.inj stepped
    have created : ∀ index, state.child index = .notCreated → False := by
      intro index uncreated
      have before := invariant.uncreated index uncreated
      rw [at_] at before
      exact before
    -- The counter is exact here, since the handler does not run.
    by_cases some_ : 0 < state.numLiveChildren
    · rw [if_pos some_]
      exact { invariant with
        uncreated := fun index uncreated => (created index uncreated).elim
        fresh := nofun
        counts := counts
        noticed := fun _ => noticed
        suspended := fun _ => rfl
        waits := fun _ _ => some_
        finished := nofun }
    · rw [if_neg some_]
      exact { invariant with
        uncreated := fun index uncreated => (created index uncreated).elim
        fresh := nofun
        counts := counts
        noticed := fun _ => noticed
        suspended := fun runs => absurd idle runs
        waits := nofun
        finished := fun _ => Int.not_lt.mp some_ }
  | sigsuspend =>
    simp only [at_] at stepped
    split at stepped
    · -- The signal stops being pending, and the handler starts to look.
      obtain rfl := Option.some.inj stepped
      rw [idle] at counts
      exact { invariant with
        uncreated := by
          intro index uncreated
          have before := invariant.uncreated index uncreated
          rw [at_] at before
          exact before
        fresh := nofun
        counts := counts
        noticed := fun found => absurd trivial found
        suspended := fun _ => rfl
        waits := fun _ idle => nomatch idle
        finished := nofun }
    · exact nomatch stepped
  | finished => simp only [at_, reduceCtorEq] at stepped
  | failed => simp only [at_, reduceCtorEq] at stepped

/-- A child that exists moves on. -/
theorem Invariant.childBecomes (invariant : Invariant state) {index : Fin children} {child : Child}
    {handler : Option HandlerPc} {pending : Bool}
    (exists_ : state.child index ≠ .notCreated) (created : child ≠ .notCreated)
    (waited : child.unwaited + uncounted handler =
      (state.child index).unwaited + uncounted state.handler)
    (noticed : ¬ Looking handler →
      ∀ other, (state.childBecomes index child).child other = .zombie → pending = true)
    (runs : handler = none ↔ state.handler = none) :
    Invariant { state.childBecomes index child with handler, pending } where
  uncreated := by
    intro other uncreated
    -- A child that is not created yet is another one.
    have mine : other ≠ index := by
      rintro rfl
      exact created ((Function.update_self ..).symm.trans uncreated)
    simp only [State.childBecomes, Function.update_of_ne mine] at uncreated
    exact invariant.uncreated other uncreated
  fresh := by
    intro j at_ other above
    have mine : other ≠ index := by
      rintro rfl
      exact exists_ (invariant.fresh j at_ other above)
    simp only [State.childBecomes, Function.update_of_ne mine]
    exact invariant.fresh j at_ other above
  counts := by
    -- What the child loses in weight has been taken over by the handler.
    have moved := state.tally_childBecomes index child
    have counts := invariant.counts
    show state.numLiveChildren =
      tally Child.unwaited (state.childBecomes index child).child + uncounted handler
    omega
  noticed := noticed
  suspended := fun interrupted => invariant.suspended (mt runs.mpr interrupted)
  waits := fun at_ idle => invariant.waits at_ (runs.mp idle)
  finished := invariant.finished

/-- Every step keeps the invariant. -/
theorem Invariant.step (invariant : Invariant state) {action : Action children}
    (stepped : (multiSigchld children).step state action = some next) : Invariant next := by
  cases action with
  | goesOn =>
    simp only [multiSigchld, MultiSigchld.step] at stepped
    cases runs : state.handler with
    | some pc =>
      simp only [runs] at stepped
      exact invariant.handlerStep runs stepped
    | none =>
      simp only [runs] at stepped
      exact invariant.mainStep runs stepped
  -- `main` is not in `sigsuspend`, so the handler does not run.
  | forkFails =>
    simp only [multiSigchld, MultiSigchld.step] at stepped
    split at stepped
    next j at_ =>
      split at stepped
      · obtain rfl := Option.some.inj stepped
        exact { invariant with
          uncreated := fun _ _ => trivial
          fresh := nofun
          counts := invariant.counts
          noticed := invariant.noticed
          suspended := fun runs => nomatch at_.symm.trans (invariant.suspended runs)
          waits := nofun
          finished := nofun }
      · exact nomatch stepped
    · exact nomatch stepped
  | reaps index =>
    simp only [multiSigchld, MultiSigchld.step] at stepped
    split at stepped
    next found =>
      -- The child has been waited on, and is counted next.
      obtain ⟨runs, dead⟩ := found
      obtain rfl := Option.some.inj stepped
      refine invariant.childBecomes (by rw [dead]; exact nofun) nofun ?_
        (fun found => absurd trivial found) (by rw [runs]; exact ⟨nofun, nofun⟩)
      rw [runs, dead]
      rfl
    · exact nomatch stepped
  | terminates index =>
    simp only [multiSigchld, MultiSigchld.step] at stepped
    split at stepped
    next alive =>
      -- The child's death makes the signal pending.
      obtain rfl := Option.some.inj stepped
      refine invariant.childBecomes (by rw [alive]; exact nofun) nofun ?_ (fun _ _ _ => rfl) Iff.rfl
      rw [alive]
      rfl
    · exact nomatch stepped
  -- A signal that is pending for no reason does no harm.
  | raises =>
    obtain rfl := Option.some.inj stepped
    exact { invariant with
      counts := invariant.counts
      noticed := fun _ _ _ => rfl
      suspended := invariant.suspended
      waits := invariant.waits }

/-- All children have been created, and the handler does not run. -/
def State.InLoop (state : State children) : Prop :=
  (state.main = .loop ∨ state.main = .sigsuspend ∨ state.main = .finished) ∧ state.handler = none

/-- The number of children that have not been waited on. -/
def State.notWaitedOn (state : State children) : Nat :=
  (Finset.univ.filter fun index => state.child index ≠ .reaped).card

/-- Counting the children that have not been waited on is weighing them. -/
theorem State.notWaitedOn_eq (state : State children) :
    state.notWaitedOn = tally Child.unwaited state.child := by
  unfold State.notWaitedOn tally
  rw [Finset.card_filter]
  -- Each child counts one or nothing on both sides.
  refine Finset.sum_congr rfl fun index _ => ?_
  cases state.child index <;> rfl

/-- What is promised of the counter, of the wait and of the end. -/
structure Correct (state : State children) : Prop where
  counts : state.InLoop → state.numLiveChildren = state.notWaitedOn
  /-- While `main` is blocked with no signal pending, some child is alive. -/
  awake : state.main = .sigsuspend → state.handler = none → state.pending = false →
    ∃ index, state.child index = .alive
  reaped : state.main = .finished → ∀ index, state.child index = .reaped

/-- The invariant keeps the promise. -/
theorem Invariant.correct (invariant : Invariant state) : Correct state where
  counts := by
    rintro ⟨_, idle⟩
    have counts := invariant.counts
    rw [idle] at counts
    rw [counts, state.notWaitedOn_eq]
    rfl
  awake := by
    intro blocked idle quiet
    -- There is a child to wait for, and it is neither dead nor yet to be created.
    have some_ := invariant.waits blocked idle
    have counts := invariant.counts
    rw [idle] at counts
    have none_ : uncounted none = 0 := rfl
    have more : 0 < tally Child.unwaited state.child := by omega
    obtain ⟨index, unwaited⟩ := exists_of_tally_pos more
    refine ⟨index, ?_⟩
    cases is : state.child index with
    -- `main` does not wait before it has created all of them.
    | notCreated =>
      have before := invariant.uncreated index is
      rw [blocked] at before
      exact before.elim
    | alive => rfl
    -- A dead child would have left its signal pending.
    | zombie =>
      have idle_ : ¬ Looking state.handler := by
        rw [idle]
        exact id
      have pending := invariant.noticed idle_ index is
      exact nomatch quiet.symm.trans pending
    | reaped =>
      rw [is] at unwaited
      exact absurd unwaited (Nat.lt_irrefl 0)
  reaped := by
    intro ended index
    -- The counter is not positive, so no child weighs anything.
    have few := invariant.finished ended
    have counts := invariant.counts
    have nothing : tally Child.unwaited state.child = 0 := by omega
    have waited := tally_eq_zero_iff.mp nothing index
    cases is : state.child index with
    | reaped => rfl
    | notCreated | alive | zombie =>
      rw [is] at waited
      exact nomatch waited

/-- However the signals are merged, no dead child is forgotten and the counter is right. -/
theorem multiSigchld_correct (actions : List (Action children)) (state : State children)
    (ran : (multiSigchld children).run (initial children) actions = some state) :
    Correct state := by
  -- The invariant holds along the run.
  have preserved : ∀ state action next, Invariant state →
      (multiSigchld children).step state action = some next → Invariant next :=
    fun _ _ _ before stepped => before.step stepped
  exact (Machine.run_invariant preserved invariant_initial ran).correct

/-- Two children die before the first signal is delivered, and a third while it is handled. -/
def threeDeaths : List (Action 3) :=
  [.goesOn, .goesOn, .goesOn, .goesOn, .terminates 1, .terminates 0, .goesOn, .goesOn,
    .reaps 0, .goesOn, .reaps 1, .goesOn, .goesOn, .terminates 2, .goesOn, .goesOn, .goesOn,
    .reaps 2, .goesOn, .goesOn, .goesOn, .goesOn]

/-- Two signals are enough for three children. -/
theorem multiSigchld_correct_threeDeaths :
    ∃ state, (multiSigchld 3).run (initial 3) threeDeaths = some state ∧
      (state.main, state.numLiveChildren, state.sigCnt) = (.finished, 0, 2) ∧ Correct state := by
  -- Three children die, and two signals are caught for them.
  have shown : ((multiSigchld 3).run (initial 3) threeDeaths).map
      (fun state => (state.main, state.numLiveChildren, state.sigCnt)) =
        some (.finished, 0, 2) := by decide
  obtain ⟨state, ran, facts⟩ := Option.map_eq_some_iff.mp shown
  exact ⟨state, ran, facts, multiSigchld_correct threeDeaths state ran⟩

end SysProg.Procexec.MultiSigchld
