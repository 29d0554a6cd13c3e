import SysProg.Lib.Tally
import SysProg.Threads.ThreadMultijoin

/-! Every thread is joined once, no wake-up is lost, and the counters tell the states. -/

namespace SysProg.Threads.ThreadMultijoin

/-- A thread has locked the mutex. -/
def Entry.Inside (entry : Entry) : Prop :=
  match entry.pc with
  | .increment | .setState | .unlock => True
  | _ => False

/-- A thread has recorded its termination, and is going to signal it. -/
def ThreadPc.Signals : ThreadPc → Prop
  | .unlock | .signal => True
  | _ => False

/-- What counts in `numUnjoined`. -/
def Entry.unjoined (entry : Entry) : Nat :=
  -- The counter is ahead of the state for one step of the thread.
  (if entry.state = .terminated then 1 else 0) + (if entry.pc = .setState then 1 else 0)

/-- What counts as joined. -/
def Entry.joined (entry : Entry) : Nat :=
  if entry.state = .joined then 1 else 0

/-- What is recorded about a thread is true of it, if the joining is being recorded or not. -/
def Entry.Recorded (recording : Prop) (entry : Entry) : Prop :=
  match entry.pc with
  | .unlock | .signal => entry.state = .terminated ∧ entry.joins = 0 ∧ ¬ recording
  -- It is waiting to be joined, has just been joined, or is recorded as joined.
  | .returned => entry.state = .terminated ∧ entry.joins = 0 ∧ ¬ recording ∨
      entry.state = .terminated ∧ entry.joins = 1 ∧ recording ∨
      entry.state = .joined ∧ entry.joins = 1 ∧ ¬ recording
  | _ => entry.state = .alive ∧ entry.joins = 0 ∧ ¬ recording

variable {threads : Nat}

/-- It matters only whether the joining is being recorded. -/
theorem Entry.Recorded.of_iff {before after : Prop} {entry : Entry}
    (recorded : entry.Recorded before) (same : after ↔ before) : entry.Recorded after := by
  rw [propext same]
  exact recorded

/-- `main` has locked the mutex. -/
def MainPc.Inside : MainPc threads → Prop
  | .test | .scan _ | .join _ | .record _ | .unlock => True
  | _ => False

/-- `main` has not created and counted all threads yet. -/
def MainPc.Creating : MainPc threads → Prop
  | .start | .create _ => True
  | _ => False

/-- `main` is on its way to wait for another thread. -/
def MainPc.Waits : MainPc threads → Prop
  | .lock | .test | .asleep | .relock => True
  | _ => False

/-- `main` has not created this thread yet. -/
def MainPc.Before (idx : Nat) : MainPc threads → Prop
  | .start => True
  | .create next => next ≤ idx
  | _ => False

variable {state next : State threads}

/-- What holds at all times. -/
structure Invariant (state : State threads) : Prop where
  guards : Guards state.threadMutex
    (Party.Inside state.main.Inside fun idx => (state.thread idx).Inside)
  uncreated : ∀ idx : Fin threads, state.main.Before idx.val →
    (state.thread idx).pc = .notCreated
  recorded : ∀ idx, (state.thread idx).Recorded (state.main = .record idx)
  -- One counter goes up and down with the states.
  unjoined : state.numUnjoined = tally Entry.unjoined state.thread
  -- The other one goes down with every thread that is joined.
  live : state.numLive + tally Entry.joined state.thread = state.totThreads
  creating : state.main.Creating → state.totThreads = 0 ∧ state.numLive = 0
  total : ¬ state.main.Creating → state.totThreads = threads
  -- Somebody is left whenever `main` goes to wait.
  waits : state.main.Waits → 0 < state.numLive
  /-- `main` joins only a thread whose termination it has found recorded. -/
  joins : ∀ idx, state.main = .join idx → (state.thread idx).state = .terminated
  exited : state.main = .exited → state.numLive ≤ 0
  /-- While `main` sleeps beside a thread to be joined, somebody is going to wake it. -/
  attended : state.main = .asleep → ∀ idx, (state.thread idx).state = .terminated →
    ∃ other, (state.thread other).pc.Signals

/-- Nothing has happened at the start. -/
theorem invariant_initial : Invariant (initial threads) where
  -- No thread exists, so nothing is counted and nobody is in the mutex.
  guards := by
    intro party
    cases party with
    | main => exact ⟨False.elim, nofun⟩
    | member idx => exact ⟨False.elim, nofun⟩
  uncreated := fun _ _ => rfl
  recorded := fun _ => ⟨rfl, rfl, nofun⟩
  unjoined := by simp [tally, initial, Entry.unjoined]
  live := by simp [tally, initial, Entry.joined]
  creating := fun _ => ⟨rfl, rfl⟩
  total := fun created => absurd trivial created
  waits := nofun
  joins := nofun
  exited := nofun
  attended := nofun

/-- Whatever is true of all other threads, and of this one as it changes, is true of all. -/
theorem State.forall_threadAt {property : Fin threads → Entry → Prop} {idx : Fin threads}
    {entry : Entry} (here : property idx entry)
    (others : ∀ other, other ≠ idx → property other (state.thread other)) :
    ∀ other, property other ((state.threadAt idx entry).thread other) :=
  (Function.forall_update_iff state.thread property).mpr ⟨here, others⟩

/-- A thread that has recorded its termination, or has not, is weighed as it is recorded now. -/
theorem State.tally_threadAt (state : State threads) (weight : Entry → Nat) (idx : Fin threads)
    (entry : Entry) :
    tally weight (state.threadAt idx entry).thread + weight (state.thread idx) =
      tally weight state.thread + weight entry :=
  tally_update weight state.thread idx entry

/-- At most as many threads are joined as there are. -/
theorem State.joined_le (state : State threads) : tally Entry.joined state.thread ≤ threads := by
  -- Each entry counts once at most.
  have each : ∀ idx, (state.thread idx).joined ≤ 1 := by
    intro idx
    unfold Entry.joined
    split <;> omega
  have most := tally_le_card each
  rwa [Fintype.card_fin] at most

/-- Creating a thread keeps the invariant. -/
theorem Invariant.create (invariant : Invariant state) {idx : Nat} (at_ : state.main = .create idx)
    (there : idx < threads) :
    Invariant { state.threadAt ⟨idx, there⟩ ⟨.sleep, .alive, 0⟩ with
      main := .create (idx + 1) } := by
  have fresh := invariant.uncreated ⟨idx, there⟩ (by rw [at_]; exact le_refl idx)
  have recorded := invariant.recorded ⟨idx, there⟩
  rw [Entry.Recorded, fresh] at recorded
  obtain ⟨alive, -, -⟩ := recorded
  have creating := invariant.creating (by rw [at_]; trivial)
  have outside : Entry.Inside ⟨.sleep, .alive, 0⟩ ↔ (state.thread ⟨idx, there⟩).Inside := by
    rw [Entry.Inside, Entry.Inside, fresh]
  exact
    { guards := (invariant.guards.keep_member outside).keep_main (by rw [at_]; exact Iff.rfl)
      uncreated := by
        intro other above
        have mine : other ≠ ⟨idx, there⟩ := by
          rintro rfl
          exact Nat.not_succ_le_self idx above
        simp only [State.threadAt, Function.update_of_ne mine]
        apply invariant.uncreated
        rw [at_]
        exact Nat.le_of_succ_le above
      recorded := by
        refine State.forall_threadAt ⟨rfl, rfl, nofun⟩ fun other _ => ?_
        exact (invariant.recorded other).of_iff ⟨nofun, fun same => nomatch at_.symm.trans same⟩
      -- A new thread counts nowhere.
      unjoined := by
        have moved := state.tally_threadAt Entry.unjoined ⟨idx, there⟩ ⟨.sleep, .alive, 0⟩
        have nothing :
            (state.thread ⟨idx, there⟩).unjoined = Entry.unjoined ⟨.sleep, .alive, 0⟩ := by
          simp [Entry.unjoined, alive, fresh]
        have unjoined := invariant.unjoined
        show state.numUnjoined = (tally Entry.unjoined (state.threadAt _ _).thread : Int)
        omega
      live := by
        have moved := state.tally_threadAt Entry.joined ⟨idx, there⟩ ⟨.sleep, .alive, 0⟩
        have nothing : (state.thread ⟨idx, there⟩).joined = Entry.joined ⟨.sleep, .alive, 0⟩ := by
          simp [Entry.joined, alive]
        have live := invariant.live
        show state.numLive + (tally Entry.joined (state.threadAt _ _).thread : Int) =
          state.totThreads
        omega
      creating := fun _ => creating
      total := fun created => absurd trivial created
      waits := nofun
      joins := nofun
      exited := nofun
      attended := nofun }

/-- Joining a thread that has returned keeps the invariant. -/
theorem Invariant.join (invariant : Invariant state) {idx : Fin threads}
    (at_ : state.main = .join idx) (returned : (state.thread idx).pc = .returned) :
    Invariant { state.threadAt idx
        { state.thread idx with joins := (state.thread idx).joins + 1 } with
      main := .record idx } := by
  have terminated := invariant.joins idx at_
  have recorded := invariant.recorded idx
  rw [Entry.Recorded, returned] at recorded
  -- The thread has not been joined before.
  have fresh : (state.thread idx).joins = 0 := by
    rcases recorded with ⟨-, none_, -⟩ | ⟨-, -, recording⟩ | ⟨joined, -, -⟩
    · exact none_
    · exact nomatch at_.symm.trans recording
    · exact nomatch terminated.symm.trans joined
  have total := invariant.total (by rw [at_]; exact id)
  exact
    { guards := (invariant.guards.keep_member (by rfl)).keep_main (by rw [at_]; exact Iff.rfl)
      uncreated := nofun
      recorded := by
        refine State.forall_threadAt ?_ fun other different => ?_
        · simp only [Entry.Recorded, returned]
          exact .inr (.inl ⟨terminated, by rw [fresh], trivial⟩)
        · refine (invariant.recorded other).of_iff ⟨fun same => ?_, fun same => ?_⟩
          · exact absurd (MainPc.record.inj same).symm different
          · exact nomatch at_.symm.trans same
      unjoined := by
        have moved := state.tally_threadAt Entry.unjoined idx
          { state.thread idx with joins := (state.thread idx).joins + 1 }
        have unjoined := invariant.unjoined
        have same : Entry.unjoined { state.thread idx with joins := (state.thread idx).joins + 1 } =
          (state.thread idx).unjoined := rfl
        show state.numUnjoined = (tally Entry.unjoined (state.threadAt _ _).thread : Int)
        omega
      live := by
        have moved := state.tally_threadAt Entry.joined idx
          { state.thread idx with joins := (state.thread idx).joins + 1 }
        have live := invariant.live
        have same : Entry.joined { state.thread idx with joins := (state.thread idx).joins + 1 } =
          (state.thread idx).joined := rfl
        show state.numLive + (tally Entry.joined (state.threadAt _ _).thread : Int) =
          state.totThreads
        omega
      creating := False.elim
      total := fun _ => total
      waits := nofun
      joins := nofun
      exited := nofun
      attended := nofun }

/-- Recording that a thread has been joined keeps the invariant. -/
theorem Invariant.record (invariant : Invariant state) {idx : Fin threads}
    (at_ : state.main = .record idx) :
    Invariant { state.threadAt idx { state.thread idx with state := .joined } with
      main := .scan (idx.val + 1)
      numLive := state.numLive - 1
      numUnjoined := state.numUnjoined - 1 } := by
  have recorded := invariant.recorded idx
  -- Only a thread that has returned, and has been joined now, is recorded.
  have joined : (state.thread idx).pc = .returned ∧ (state.thread idx).state = .terminated ∧
      (state.thread idx).joins = 1 := by
    unfold Entry.Recorded at recorded
    split at recorded
    · exact absurd at_ recorded.2.2
    · exact absurd at_ recorded.2.2
    next returned =>
      rcases recorded with ⟨-, -, never⟩ | ⟨terminated, once, -⟩ | ⟨-, -, never⟩
      · exact absurd at_ never
      · exact ⟨returned, terminated, once⟩
      · exact absurd at_ never
    · exact absurd at_ recorded.2.2
  obtain ⟨returned, terminated, once⟩ := joined
  have total := invariant.total (by rw [at_]; exact id)
  exact
    { guards := (invariant.guards.keep_member (by rfl)).keep_main (by rw [at_]; exact Iff.rfl)
      uncreated := nofun
      recorded := by
        refine State.forall_threadAt ?_ fun other different => ?_
        · simp only [Entry.Recorded, returned]
          exact .inr (.inr ⟨trivial, once, nofun⟩)
        · refine (invariant.recorded other).of_iff ⟨nofun, fun same => ?_⟩
          exact absurd (MainPc.record.inj (at_.symm.trans same)).symm different
      unjoined := by
        have moved := state.tally_threadAt Entry.unjoined idx
          { state.thread idx with state := .joined }
        have unjoined := invariant.unjoined
        -- The thread stops being counted as unjoined, and is counted as joined.
        have before : (state.thread idx).unjoined = 1 := by
          simp [Entry.unjoined, terminated, returned]
        have after : Entry.unjoined { state.thread idx with state := .joined } = 0 := by
          simp [Entry.unjoined, returned]
        show state.numUnjoined - 1 = (tally Entry.unjoined (state.threadAt _ _).thread : Int)
        omega
      live := by
        have moved := state.tally_threadAt Entry.joined idx
          { state.thread idx with state := .joined }
        have live := invariant.live
        have before : (state.thread idx).joined = 0 := by simp [Entry.joined, terminated]
        have after : Entry.joined { state.thread idx with state := .joined } = 1 := rfl
        show state.numLive - 1 + (tally Entry.joined (state.threadAt _ _).thread : Int) =
          state.totThreads
        omega
      creating := False.elim
      total := fun _ => total
      waits := nofun
      joins := nofun
      exited := nofun
      attended := nofun }

/-- What must be true for `main` to come to this place by a step that changes nothing else. -/
def MainPc.Asks (state : State threads) : MainPc threads → Prop
  | .lock | .test | .relock => 0 < state.numLive
  | .asleep => 0 < state.numLive ∧ ∀ idx, (state.thread idx).state = .terminated →
      ∃ other, (state.thread other).pc.Signals
  | .join idx => (state.thread idx).state = .terminated
  | .exited => state.numLive ≤ 0
  | .start | .create _ | .record _ => False
  | .loop | .scan _ | .unlock => True

/-- Once all threads have been created, `main` moves and keeps the invariant. -/
theorem Invariant.mainAt (invariant : Invariant state) {main : MainPc threads}
    {threadMutex : Option (Party (Fin threads))} (created : ¬ state.main.Creating)
    (before : ∀ idx, state.main ≠ .record idx) (asks : main.Asks state)
    (guards : Guards threadMutex (Party.Inside main.Inside fun idx => (state.thread idx).Inside)) :
    Invariant { state with main, threadMutex } := by
  -- Neither the place that `main` leaves nor the one it comes to records a joining.
  have never : ∀ idx, main ≠ .record idx := by
    rintro idx rfl
    exact asks
  exact { invariant with
    guards := guards
    uncreated := by
      intro idx early
      cases main <;> first | exact asks.elim | exact early.elim
    recorded := fun idx => (invariant.recorded idx).of_iff
      ⟨fun same => absurd same (never idx), fun same => absurd same (before idx)⟩
    creating := by
      intro creating
      cases main <;> first | exact asks.elim | exact creating.elim
    total := fun _ => invariant.total created
    waits := by
      intro waits
      cases main <;> first | exact waits.elim | exact asks | exact asks.1
    joins := by
      rintro idx rfl
      exact asks
    exited := by
      rintro rfl
      exact asks
    attended := by
      rintro rfl
      exact asks.2 }

/-- Every step of `main` keeps the invariant. -/
theorem Invariant.mainStep (invariant : Invariant state)
    (stepped : ThreadMultijoin.mainStep state = some next) : Invariant next := by
  have unjoined := invariant.unjoined
  have live := invariant.live
  unfold ThreadMultijoin.mainStep at stepped
  cases at_ : state.main with
  | start =>
    have none_ := invariant.creating (by rw [at_]; trivial)
    simp only [at_] at stepped
    obtain rfl := Option.some.inj stepped
    have recorded : ∀ main : MainPc threads, (∀ idx, main ≠ .record idx) →
        ∀ idx, (state.thread idx).Recorded (main = .record idx) := by
      intro main never idx
      exact (invariant.recorded idx).of_iff
        ⟨fun same => absurd same (never idx), fun same => nomatch at_.symm.trans same⟩
    by_cases few : threads = 0
    · -- Without an argument there is nothing but a message about the usage.
      rw [if_pos few]
      exact { invariant with
        guards := invariant.guards.keep_main (by rw [at_]; exact Iff.rfl)
        uncreated := nofun
        recorded := recorded _ nofun
        creating := False.elim
        total := by
          intro _
          show state.totThreads = threads
          omega
        waits := nofun
        joins := nofun
        exited := fun _ => none_.2.le
        attended := nofun }
    -- The threads are going to be created.
    · rw [if_neg few]
      exact { invariant with
        guards := invariant.guards.keep_main (by rw [at_]; exact Iff.rfl)
        uncreated := fun idx _ => invariant.uncreated idx (by rw [at_]; trivial)
        recorded := recorded _ nofun
        creating := fun _ => none_
        total := fun created => absurd trivial created
        waits := nofun
        joins := nofun
        exited := nofun
        attended := nofun }
  | create idx =>
    simp only [at_] at stepped
    split at stepped
    next there =>
      obtain rfl := Option.some.inj stepped
      exact invariant.create at_ there
    -- All threads have been created, and nobody has been joined, so all of them are left.
    next beyond =>
      obtain rfl := Option.some.inj stepped
      have none_ := invariant.creating (by rw [at_]; trivial)
      exact { invariant with
        guards := invariant.guards.keep_main (by rw [at_]; exact Iff.rfl)
        uncreated := nofun
        recorded := fun idx => (invariant.recorded idx).of_iff
          ⟨nofun, fun same => nomatch at_.symm.trans same⟩
        live := by
          show (threads : Int) + tally Entry.joined state.thread = threads
          omega
        creating := False.elim
        total := fun _ => rfl
        waits := nofun
        joins := nofun
        exited := nofun
        attended := nofun }
  | loop =>
    simp only [at_] at stepped
    obtain rfl := Option.some.inj stepped
    -- `main` goes to wait only when somebody is left, and exits only when nobody is.
    by_cases more : 0 < state.numLive
    · rw [if_pos more]
      exact invariant.mainAt (by rw [at_]; exact id) (by rw [at_]; exact nofun) more
        (invariant.guards.keep_main (by rw [at_]; exact Iff.rfl))
    · rw [if_neg more]
      exact invariant.mainAt (by rw [at_]; exact id) (by rw [at_]; exact nofun) (not_lt.mp more)
        (invariant.guards.keep_main (by rw [at_]; exact Iff.rfl))
  | lock | relock =>
    have more := invariant.waits (by rw [at_]; trivial)
    simp only [at_] at stepped
    split at stepped
    next free =>
      obtain rfl := Option.some.inj stepped
      have guards := invariant.guards
      rw [free] at guards
      exact invariant.mainAt (by rw [at_]; exact id) (by rw [at_]; exact nofun) more
        (guards.lock_main trivial)
    · exact nomatch stepped
  | test =>
    have more := invariant.waits (by rw [at_]; trivial)
    simp only [at_] at stepped
    split at stepped
    next none_ =>
      obtain rfl := Option.some.inj stepped
      -- `main` goes to sleep beside no thread to be joined.
      have nobody : ∀ idx, (state.thread idx).state = .terminated →
          ∃ other, (state.thread other).pc.Signals := by
        intro idx terminated
        have heavy := le_tally Entry.unjoined state.thread idx
        have counts : 1 ≤ (state.thread idx).unjoined := by simp [Entry.unjoined, terminated]
        omega
      exact invariant.mainAt (by rw [at_]; exact id) (by rw [at_]; exact nofun) ⟨more, nobody⟩
        (invariant.guards.unlock_main (by rw [at_]; trivial) id)
    · obtain rfl := Option.some.inj stepped
      exact invariant.mainAt (by rw [at_]; exact id) (by rw [at_]; exact nofun) trivial
        (invariant.guards.keep_main (by rw [at_]; exact Iff.rfl))
  | asleep => simp only [at_, reduceCtorEq] at stepped
  -- Only a thread that has recorded its termination is joined.
  | scan idx =>
    simp only [at_] at stepped
    split at stepped
    · split at stepped
      · split at stepped
        next terminated =>
          obtain rfl := Option.some.inj stepped
          exact invariant.mainAt (by rw [at_]; exact id) (by rw [at_]; exact nofun) terminated
            (invariant.guards.keep_main (by rw [at_]; exact Iff.rfl))
        · obtain rfl := Option.some.inj stepped
          exact invariant.mainAt (by rw [at_]; exact id) (by rw [at_]; exact nofun) trivial
            (invariant.guards.keep_main (by rw [at_]; exact Iff.rfl))
      · exact nomatch stepped
    · obtain rfl := Option.some.inj stepped
      exact invariant.mainAt (by rw [at_]; exact id) (by rw [at_]; exact nofun) trivial
        (invariant.guards.keep_main (by rw [at_]; exact Iff.rfl))
  | join idx =>
    simp only [at_] at stepped
    split at stepped
    -- The join waits for the thread to return, which takes no mutex.
    next returned =>
      obtain rfl := Option.some.inj stepped
      exact invariant.join at_ returned
    · exact nomatch stepped
  | record idx =>
    simp only [at_] at stepped
    obtain rfl := Option.some.inj stepped
    exact invariant.record at_
  | unlock =>
    simp only [at_] at stepped
    obtain rfl := Option.some.inj stepped
    exact invariant.mainAt (by rw [at_]; exact id) (by rw [at_]; exact nofun) trivial
      (invariant.guards.unlock_main (by rw [at_]; trivial) id)
  | exited => simp only [at_, reduceCtorEq] at stepped

/-- Nobody is asleep who has been woken. -/
theorem wake_ne_asleep (main : MainPc threads) : wake main ≠ .asleep := by
  unfold wake
  -- main is woken, or it did not sleep.
  split
  · exact nofun
  next awake => exact awake

/-- Waking `main` keeps the invariant. -/
theorem Invariant.wakes (invariant : Invariant state) :
    Invariant { state with main := wake state.main } := by
  -- main is woken only if it sleeps, and then it has something to look for.
  by_cases asleep : state.main = .asleep
  · have woken : wake state.main = .relock := if_pos asleep
    have more := invariant.waits (by rw [asleep]; trivial)
    rw [woken]
    exact invariant.mainAt (by rw [asleep]; exact id) (by rw [asleep]; exact nofun) more
      (invariant.guards.keep_main (by rw [asleep]; exact Iff.rfl))
  · have same : wake state.main = state.main := if_neg asleep
    rw [same]
    exact invariant

/-- A thread that moves keeps the invariant, if what counts of it is counted. -/
theorem Invariant.threadAt (invariant : Invariant state) {idx : Fin threads} {entry : Entry}
    {threadMutex : Option (Party (Fin threads))} {numUnjoined : Int}
    (created : (state.thread idx).pc ≠ .notCreated)
    (recorded : entry.Recorded (state.main = .record idx))
    (guards : Guards threadMutex (Party.Inside state.main.Inside fun other =>
      ((state.threadAt idx entry).thread other).Inside))
    (counted : numUnjoined + (state.thread idx).unjoined = state.numUnjoined + entry.unjoined)
    (joined : entry.joined = (state.thread idx).joined)
    (stays : (state.thread idx).state = .terminated → entry.state = .terminated)
    (attended : state.main = .asleep → ∀ other,
      ((state.threadAt idx entry).thread other).state = .terminated →
        ∃ another, ((state.threadAt idx entry).thread another).pc.Signals) :
    Invariant { state.threadAt idx entry with threadMutex, numUnjoined } := by
  exact { invariant with
    guards := guards
    uncreated := by
      intro other before
      have mine : other ≠ idx := by
        rintro rfl
        exact created (invariant.uncreated other before)
      simp only [State.threadAt, Function.update_of_ne mine]
      exact invariant.uncreated other before
    recorded := State.forall_threadAt recorded fun other _ => invariant.recorded other
    unjoined := by
      have moved := state.tally_threadAt Entry.unjoined idx entry
      have unjoined := invariant.unjoined
      show numUnjoined = (tally Entry.unjoined (state.threadAt _ _).thread : Int)
      omega
    live := by
      have moved := state.tally_threadAt Entry.joined idx entry
      have live := invariant.live
      show state.numLive + (tally Entry.joined (state.threadAt _ _).thread : Int) =
        state.totThreads
      omega
    joins := by
      intro other at_
      -- A thread that `main` is about to join does not take its termination back.
      by_cases mine : other = idx
      · subst mine
        simp only [State.threadAt, Function.update_self]
        exact stays (invariant.joins other at_)
      · simp only [State.threadAt, Function.update_of_ne mine]
        exact invariant.joins other at_
    attended := attended }

/-- Every step of a thread keeps the invariant. -/
theorem Invariant.threadStep (invariant : Invariant state) {idx : Fin threads}
    (stepped : ThreadMultijoin.threadStep state idx = some next) : Invariant next := by
  have recorded := invariant.recorded idx
  have guards := invariant.guards
  -- Whoever was going to wake `main` still is, unless it is this thread.
  have still : ∀ entry : Entry, ¬ (state.thread idx).pc.Signals → entry.state ≠ .terminated →
      state.main = .asleep → ∀ other,
        ((state.threadAt idx entry).thread other).state = .terminated →
          ∃ another, ((state.threadAt idx entry).thread another).pc.Signals := by
    intro entry idle alive asleep other terminated
    have mine : other ≠ idx := by
      rintro rfl
      simp only [State.threadAt, Function.update_self] at terminated
      exact alive terminated
    simp only [State.threadAt, Function.update_of_ne mine] at terminated
    obtain ⟨another, signals⟩ := invariant.attended asleep other terminated
    have different : another ≠ idx := fun same => idle (same ▸ signals)
    exact (Function.exists_update_iff state.thread fun _ entry => entry.pc.Signals).mpr
      (.inr ⟨another, different, signals⟩)
  -- Now it is this thread that is going to wake `main`.
  have signalling : ∀ entry : Entry, entry.pc.Signals →
      ∃ another, ((state.threadAt idx entry).thread another).pc.Signals := by
    intro entry signals
    apply (Function.exists_update_iff state.thread fun _ entry => entry.pc.Signals).mpr
    exact .inl signals
  unfold ThreadMultijoin.threadStep at stepped
  simp only at stepped
  split at stepped
  · exact nomatch stepped
  cases at_ : state.thread idx with
  | mk pc recordedState joins =>
    rw [at_] at recorded still
    have inside : (state.thread idx).Inside ↔ Entry.Inside ⟨pc, recordedState, joins⟩ := by rw [at_]
    have created : pc ≠ .notCreated → (state.thread idx).pc ≠ .notCreated := by
      rw [at_]
      exact id
    have same : (state.thread idx).state = recordedState := by rw [at_]
    simp only [at_] at stepped
    cases pc with
    | notCreated => simp only [reduceCtorEq] at stepped
    -- Until it has recorded its termination, a thread does not concern `main`.
    | sleep =>
      simp only at stepped
      obtain rfl := Option.some.inj stepped
      obtain ⟨rfl, -, -⟩ := id recorded
      exact invariant.threadAt (created nofun) recorded (guards.keep_member inside.symm)
        (by rw [at_]; rfl) (by rw [at_]; rfl) (by rw [at_]; exact id) (still _ id nofun)
    | lock =>
      simp only at stepped
      split at stepped
      next free =>
        obtain rfl := Option.some.inj stepped
        obtain ⟨rfl, -, -⟩ := id recorded
        rw [free] at guards
        exact invariant.threadAt (created nofun) recorded (guards.lock_member trivial)
          (by rw [at_]; rfl) (by rw [at_]; rfl) (by rw [at_]; exact id) (still _ id nofun)
      · exact nomatch stepped
    | increment =>
      simp only at stepped
      obtain rfl := Option.some.inj stepped
      obtain ⟨rfl, -, -⟩ := id recorded
      -- The thread is counted although its termination has not been recorded yet.
      exact invariant.threadAt (created nofun) recorded (guards.keep_member inside.symm)
        (by rw [at_]; simp [Entry.unjoined]) (by rw [at_]; rfl) (by rw [at_]; exact id)
        (still _ id nofun)
    -- The state catches up with the counter.
    | setState =>
      simp only at stepped
      obtain rfl := Option.some.inj stepped
      obtain ⟨rfl, none_, never⟩ := id recorded
      exact invariant.threadAt (created nofun) ⟨rfl, none_, never⟩
        (guards.keep_member inside.symm) (by rw [at_]; rfl) (by rw [at_]; rfl) (fun _ => rfl)
        fun _ _ _ => signalling _ trivial
    | unlock =>
      simp only at stepped
      obtain rfl := Option.some.inj stepped
      exact invariant.threadAt (created nofun) recorded
        (guards.unlock_member (inside.mpr trivial) id) (by rw [at_]; rfl) (by rw [at_]; rfl)
        (by rw [at_]; exact id) fun _ _ _ => signalling _ trivial
    | signal =>
      simp only at stepped
      obtain rfl := Option.some.inj stepped
      obtain ⟨rfl, none_, never⟩ := id recorded
      -- Once it has been woken, `main` needs nobody to wake it.
      have awake := wake_ne_asleep state.main
      have woken := invariant.wakes
      have once : (state.thread idx).Recorded (wake state.main = .record idx) := woken.recorded idx
      rw [at_] at once
      -- A thread that has signalled is ready to be joined.
      have returned : Entry.Recorded (wake state.main = .record idx)
          ⟨.returned, .terminated, joins⟩ := .inl once
      exact woken.threadAt (created nofun) returned (woken.guards.keep_member inside.symm)
        (by rw [at_]; rfl) (by rw [at_]; rfl) (fun _ => rfl) fun asleep => absurd asleep awake
    | returned => simp only [reduceCtorEq] at stepped

/-- Every step keeps the invariant. -/
theorem Invariant.step (invariant : Invariant state) {action : Action threads}
    (stepped : (threadMultijoin threads).step state action = some next) : Invariant next := by
  cases action with
  | main => exact invariant.mainStep stepped
  | thread idx => exact invariant.threadStep stepped
  | spurious =>
    simp only [threadMultijoin] at stepped
    split at stepped
    next asleep =>
      -- Waking up without a signal is waking up.
      obtain rfl := Option.some.inj stepped
      have woken := invariant.wakes
      rw [show wake state.main = .relock from if_pos asleep] at woken
      exact woken
    · exact nomatch stepped

/-- How many threads are recorded in a state. -/
def State.count (state : State threads) (recorded : TState) : Nat :=
  (Finset.univ.filter fun idx => (state.thread idx).state = recorded).card

/-- What is promised of the counters, of the joining and of the wake-ups. -/
structure Correct (state : State threads) : Prop where
  /-- While the mutex is free, one counter tells how many threads have terminated only. -/
  unjoined : state.threadMutex = none → state.numUnjoined = state.count .terminated
  /-- Once all threads have been created and counted, the other one tells how many are left. -/
  live : ¬ state.main.Creating → state.numLive = threads - state.count .joined
  once : ∀ idx, (state.thread idx).joins ≤ 1
  /-- No thread is joined before it has recorded its termination. -/
  terminated : ∀ idx, 0 < (state.thread idx).joins → (state.thread idx).state ≠ .alive
  /-- While `main` is asleep beside a thread to be joined, some thread has yet to signal. -/
  attended : state.main = .asleep → (∃ idx, (state.thread idx).state = .terminated) →
    ∃ other, (state.thread other).pc.Signals
  /-- When `main` has exited, every thread has been joined. -/
  exited : state.main = .exited → ∀ idx, (state.thread idx).joins = 1
  /-- When every thread has been joined, `main` waits for no other one. -/
  leaves : (∀ idx, (state.thread idx).state = .joined) → ¬ state.main.Waits

/-- What counts as joined are the threads that are recorded as joined. -/
theorem State.tally_joined (state : State threads) :
    tally Entry.joined state.thread = state.count .joined :=
  (Finset.card_filter _ _).symm

/-- While the mutex is free, what counts in `numUnjoined` is recorded. -/
theorem Invariant.tally_unjoined (invariant : Invariant state) (free : state.threadMutex = none) :
    tally Entry.unjoined state.thread = state.count .terminated := by
  have guards := invariant.guards
  rw [free] at guards
  rw [State.count, Finset.card_filter]
  refine Finset.sum_congr rfl fun idx _ => ?_
  -- Nobody is between the increment and the setting of the state.
  have outside := guards.nobody (.member idx)
  have elsewhere : (state.thread idx).pc ≠ .setState := by
    intro at_
    apply outside
    simp only [Party.Inside, Entry.Inside, at_]
  rw [Entry.unjoined, if_neg elsewhere, Nat.add_zero]

/-- What is recorded about a thread tells how often it has been joined. -/
theorem Entry.Recorded.joins {recording : Prop} {entry : Entry}
    (recorded : entry.Recorded recording) :
    entry.joins ≤ 1 ∧ (0 < entry.joins → entry.state ≠ .alive) ∧
      (entry.state = .joined → entry.joins = 1) := by
  unfold Entry.Recorded at recorded
  -- A thread is joined once it has terminated, and only then.
  split at recorded
  · obtain ⟨same, none_, -⟩ := recorded
    simp [same, none_]
  · obtain ⟨same, none_, -⟩ := recorded
    simp [same, none_]
  · rcases recorded with ⟨same, count, -⟩ | ⟨same, count, -⟩ | ⟨same, count, -⟩ <;>
      simp [same, count]
  · obtain ⟨same, none_, -⟩ := recorded
    simp [same, none_]

/-- The invariant keeps the promise. -/
theorem Invariant.correct (invariant : Invariant state) : Correct state where
  unjoined := by
    intro free
    rw [invariant.unjoined, invariant.tally_unjoined free]
  live := by
    intro created
    have live := invariant.live
    rw [invariant.total created, state.tally_joined] at live
    omega
  once := fun idx => (invariant.recorded idx).joins.1
  terminated := fun idx => (invariant.recorded idx).joins.2.1
  attended := fun asleep ⟨idx, terminated⟩ => invariant.attended asleep idx terminated
  exited := by
    intro exited idx
    have live := invariant.live
    have none_ := invariant.exited exited
    have most := state.joined_le
    rw [invariant.total (by rw [exited]; exact id)] at live
    rw [state.tally_joined] at live most
    -- As many threads are recorded as joined as there are.
    have all : state.count .joined = (Finset.univ : Finset (Fin threads)).card := by
      rw [Finset.card_univ, Fintype.card_fin]
      omega
    have joined := Finset.card_filter_eq_iff.mp all idx (Finset.mem_univ idx)
    exact (invariant.recorded idx).joins.2.2 joined
  leaves := by
    intro all waits
    have live := invariant.live
    have more := invariant.waits waits
    have created : ¬ state.main.Creating := by
      intro creating
      cases at_ : state.main <;> rw [at_] at waits creating <;>
        first | exact waits.elim | exact creating.elim
    -- If all of them are joined, nobody is left to wait for.
    have every : state.count .joined = threads := by
      rw [State.count, Finset.filter_true_of_mem fun idx _ => all idx, Finset.card_univ,
        Fintype.card_fin]
    rw [invariant.total created, state.tally_joined, every] at live
    omega

/-- Every thread is joined once and no wake-up is lost, however the threads terminate. -/
theorem threadMultijoin_correct (actions : List (Action threads)) (state : State threads)
    (ran : (threadMultijoin threads).run (initial threads) actions = some state) :
    Correct state := by
  -- The invariant holds along the run.
  have preserved : ∀ state action next, Invariant state →
      (threadMultijoin threads).step state action = some next → Invariant next :=
    fun _ _ _ before stepped => before.step stepped
  exact (Machine.run_invariant preserved invariant_initial ran).correct

/-- The second of two threads terminates first, while `main` sleeps. -/
def secondFirst : List (Action 2) :=
  [.main, .main, .main, .main, .main, .main, .main] ++ List.replicate 6 (.thread 1) ++
    List.replicate 8 .main ++ List.replicate 6 (.thread 0) ++ List.replicate 10 .main

/-- `main` exits when it has joined both threads. -/
theorem threadMultijoin_correct_secondFirst :
    ∃ state, (threadMultijoin 2).run (initial 2) secondFirst = some state ∧
      (state.main, state.numLive) = (.exited, 0) ∧ Correct state := by
  -- The thread created second terminates first, and is joined first.
  have shown : ((threadMultijoin 2).run (initial 2) secondFirst).map
      (fun state => (state.main, state.numLive)) = some (.exited, 0) := by decide +kernel
  obtain ⟨state, ran, finished⟩ := Option.map_eq_some_iff.mp shown
  exact ⟨state, ran, finished, threadMultijoin_correct secondFirst state ran⟩

end SysProg.Threads.ThreadMultijoin
