import SysProg.Lib.Mutex
import SysProg.Lib.Tally
import SysProg.Threads.ThreadIncr

/-! What the two threads can make of the variable: any of many numbers, or with a lock just one. -/

namespace SysProg.Threads.ThreadIncr

/-- How often a thread has stored a number. -/
def Thread.stored (thread : Thread) : Nat :=
  match thread.pc with
  | .unlock | .next => thread.j + 1
  | _ => thread.j

/-- How often a number has been stored. -/
def State.total {σ : Type} (state : State σ) : Nat :=
  tally Thread.stored state.threads

/-- What is true of the loop of a thread. -/
def Thread.Loops (loops : Nat) (thread : Thread) : Prop :=
  match thread.pc with
  | .notCreated => thread.j = 0
  | .test => thread.j ≤ loops
  | .returned => thread.j = loops
  | _ => thread.j < loops

/-- What is true of both threads and of `main`. -/
structure Placed {σ : Type} (loops : Nat) (state : State σ) : Prop where
  loops : ∀ index, (state.threads index).Loops loops
  /-- `main` creates the threads one after the other. -/
  created : ∀ index, (state.threads index).pc = .notCreated ↔
    ∃ first ≤ index, state.main = .create first
  joined : (state.main = .join 1 → (state.threads 0).pc = .returned) ∧
    (state.main = .print ∨ state.main = .exited → ∀ index, (state.threads index).pc = .returned)
  printed : ∀ number, state.printed = some number → state.main = .exited ∧ number = state.glob
  exited : state.main = .exited → state.printed.isSome

variable {σ : Type} {loops : Nat} {state next : State σ} {index : Fin 2} {thread : Thread}
  {variant : Variant σ}

/-- The thread that moves is elsewhere, and the other one is where it was. -/
@[simp] theorem threadAt_same : (state.threadAt index thread).threads index = thread :=
  Function.update_self ..

/-- The other thread has not moved. -/
theorem threadAt_other {other : Fin 2} (different : other ≠ index) :
    (state.threadAt index thread).threads other = state.threads other :=
  Function.update_of_ne different ..

/-- What is true of the thread that moves and of the other one is true of both. -/
theorem forall_threadAt (holds : Fin 2 → Thread → Prop) (here : holds index thread)
    (there : ∀ other, other ≠ index → holds other (state.threads other)) (other : Fin 2) :
    holds other ((state.threadAt index thread).threads other) := by
  -- Only the thread that has moved has to be looked at again.
  by_cases same : other = index
  · subst same
    rw [threadAt_same]
    exact here
  · rw [threadAt_other same]
    exact there other same

/-- How often a number has been stored, when a thread has moved. -/
theorem total_threadAt (state : State σ) (index : Fin 2) (thread : Thread) :
    (state.threadAt index thread).total + (state.threads index).stored =
      state.total + thread.stored :=
  tally_update Thread.stored state.threads index thread

/-- A thread that moves without storing a number does not change how often this was done. -/
theorem total_threadAt_of_stored (same : thread.stored = (state.threads index).stored) :
    (state.threadAt index thread).total = state.total := by
  have moved := total_threadAt state index thread
  omega

/-- A thread that stores a number adds one to how often this was done. -/
theorem total_threadAt_of_store (here : (state.threads index).pc = .store)
    (done : thread.stored = (state.threads index).j + 1) :
    (state.threadAt index thread).total = state.total + 1 := by
  -- The thread has stored once more, and the other one as often as before.
  have moved := total_threadAt state index thread
  have before : (state.threads index).stored = (state.threads index).j := by
    rw [Thread.stored, here]
  omega

/-- No thread has stored more often than both together. -/
theorem stored_le_total (state : State σ) (index : Fin 2) :
    (state.threads index).stored ≤ state.total :=
  le_tally Thread.stored state.threads index

/-- A thread stores a number once in each round of its loop. -/
theorem Thread.Loops.stored_le (inside : thread.Loops loops) : thread.stored ≤ loops := by
  unfold Thread.Loops at inside
  unfold Thread.stored
  -- At each place a thread has stored as often as it has gone round, or once more.
  cases pc : thread.pc with
  | notCreated | test | lock | load | add | store | unlock | next | returned =>
    simp only [pc] at inside ⊢
    omega

/-- Both threads together store no more than twice as many numbers as there are rounds. -/
theorem Placed.total_le (placed : Placed loops state) : state.total ≤ 2 * loops := by
  -- There are two threads.
  have first := (placed.loops 0).stored_le
  have second := (placed.loops 1).stored_le
  have sum : state.total = (state.threads 0).stored + (state.threads 1).stored :=
    Fin.sum_univ_two fun index => (state.threads index).stored
  omega

/-- Both together have not stored all their numbers if one of them has not. -/
theorem Placed.total_lt (placed : Placed loops state) (index : Fin 2)
    (short : (state.threads index).stored < loops) :
    state.total < 2 * loops := by
  -- The other thread has stored no more numbers than it has rounds.
  have first := (placed.loops 0).stored_le
  have second := (placed.loops 1).stored_le
  have sum : state.total = (state.threads 0).stored + (state.threads 1).stored :=
    Fin.sum_univ_two fun index => (state.threads index).stored
  match index with
  | 0 => omega
  | 1 => omega

/-- When a program has printed, both threads have stored all their numbers. -/
theorem Placed.total_eq (placed : Placed loops state) {number : Int}
    (printed : state.printed = some number) : state.total = 2 * loops ∧ number = state.glob := by
  -- When main prints, both threads have returned, and each has stored a number in every round.
  obtain ⟨exited, same⟩ := placed.printed number printed
  have done : ∀ index, (state.threads index).stored = loops := by
    intro index
    have inside := placed.loops index
    have returned := placed.joined.2 (.inr exited) index
    rw [Thread.Loops, returned] at inside
    rw [Thread.stored, returned]
    exact inside
  have sum : state.total = (state.threads 0).stored + (state.threads 1).stored :=
    Fin.sum_univ_two fun index => (state.threads index).stored
  rw [done 0, done 1] at sum
  exact ⟨by omega, same⟩

/-- A thread moves to another instruction of its loop. -/
theorem Placed.threadAt (placed : Placed loops state)
    (running : (state.threads index).pc ≠ .returned) (was : (state.threads index).pc ≠ .notCreated)
    (inside : thread.Loops loops) (there : thread.pc ≠ .notCreated) (glob : Int) (lock : σ) :
    Placed loops { state.threadAt index thread with glob := glob, lock := lock } where
  loops := forall_threadAt _ inside fun other _ => placed.loops other
  created := forall_threadAt (fun other place => place.pc = .notCreated ↔
    ∃ first ≤ other, state.main = .create first)
    ⟨fun absent => absurd absent there, fun creating => absurd ((placed.created index).mpr creating)
      was⟩ fun other _ => placed.created other
  -- A thread that still runs has not been joined, and nothing has been printed.
  joined := by
    constructor
    · intro joining
      have returned := placed.joined.1 joining
      by_cases same : 0 = index
      · subst same
        exact absurd returned running
      · show ((state.threadAt index thread).threads 0).pc = _
        rw [threadAt_other same]
        exact returned
    · intro finished
      exact absurd (placed.joined.2 finished index) running
  printed := by
    intro number printed
    obtain ⟨exited, _⟩ := placed.printed number printed
    exact absurd (placed.joined.2 (.inr exited) index) running
  exited := placed.exited

/-- What one step of a thread can do. -/
inductive Moves (guard : Option (Lock (Fin 2) σ)) (loops : Nat) (state : State σ)
    (index : Fin 2) : State σ → Prop where
  | test (here : (state.threads index).pc = .test) (more : (state.threads index).j < loops) :
    Moves guard loops state index (state.threadAt index
      { state.threads index with pc := if guard.isSome then .lock else .load })
  | return_ (here : (state.threads index).pc = .test) (over_ : ¬ (state.threads index).j < loops) :
    Moves guard loops state index (state.threadAt index
      { state.threads index with pc := .returned })
  | lock (here : (state.threads index).pc = .lock) {lock : Lock (Fin 2) σ} {held : σ}
    (guards : guard = some lock) (acquired : lock.acquire index state.lock = some held) :
    Moves guard loops state index { state.threadAt index
      { state.threads index with pc := .load } with lock := held }
  | load (here : (state.threads index).pc = .load) :
    Moves guard loops state index (state.threadAt index
      { state.threads index with pc := .add, loc := state.glob })
  | add (here : (state.threads index).pc = .add) :
    Moves guard loops state index (state.threadAt index
      { state.threads index with pc := .store, loc := int ((state.threads index).loc + 1) })
  | store (here : (state.threads index).pc = .store) :
    Moves guard loops state index { state.threadAt index
      { state.threads index with pc := if guard.isSome then .unlock else .next } with
      glob := (state.threads index).loc }
  | unlock (here : (state.threads index).pc = .unlock) {lock : Lock (Fin 2) σ} {free : σ}
    (guards : guard = some lock) (released : lock.release index state.lock = some free) :
    Moves guard loops state index { state.threadAt index
      { state.threads index with pc := .next } with lock := free }
  | next (here : (state.threads index).pc = .next) :
    Moves guard loops state index (state.threadAt index
      { state.threads index with pc := .test, j := (state.threads index).j + 1 })

/-- Each step of a thread is one of these. -/
theorem moves_of_step {guard : Option (Lock (Fin 2) σ)}
    (stepped : threadStep guard loops state index = some next) :
    Moves guard loops state index next := by
  -- One case for each place in the loop, where the lock and the unlock may be left out.
  rw [threadStep] at stepped
  cases here : (state.threads index).pc with
  | notCreated | returned => simp [here] at stepped
  | test =>
    simp only [here] at stepped
    split at stepped
    next more => exact Option.some.inj stepped ▸ .test here more
    next over_ => exact Option.some.inj stepped ▸ .return_ here over_
  | lock =>
    simp only [here, Option.bind_eq_bind, Option.bind_eq_some_iff] at stepped
    obtain ⟨lock, guards, held, acquired, same⟩ := stepped
    exact Option.some.inj same ▸ .lock here guards acquired
  | load =>
    simp only [here] at stepped
    exact Option.some.inj stepped ▸ .load here
  | add =>
    simp only [here] at stepped
    exact Option.some.inj stepped ▸ .add here
  | store =>
    simp only [here] at stepped
    exact Option.some.inj stepped ▸ .store here
  | unlock =>
    simp only [here, Option.bind_eq_bind, Option.bind_eq_some_iff] at stepped
    obtain ⟨lock, guards, free, released, same⟩ := stepped
    exact Option.some.inj same ▸ .unlock here guards released
  | next =>
    simp only [here] at stepped
    exact Option.some.inj stepped ▸ .next here

/-- What one step of `main` can do. -/
inductive MainMoves (state : State σ) : State σ → Prop where
  | createFirst (here : state.main = .create 0) :
    MainMoves state { state.threadAt 0 ⟨.test, 0, 0⟩ with main := .create 1 }
  | createSecond (here : state.main = .create 1) :
    MainMoves state { state.threadAt 1 ⟨.test, 0, 0⟩ with main := .join 0 }
  | joinFirst (here : state.main = .join 0) (returned : (state.threads 0).pc = .returned) :
    MainMoves state { state with main := .join 1 }
  | joinSecond (here : state.main = .join 1) (returned : (state.threads 1).pc = .returned) :
    MainMoves state { state with main := .print }
  | print (here : state.main = .print) :
    MainMoves state { state with main := .exited, printed := some state.glob }

/-- Each step of `main` is one of these. -/
theorem mainMoves_of_step (stepped : mainStep state = some next) : MainMoves state next := by
  -- The loops of main over the two threads are taken apart into single moves.
  rw [mainStep] at stepped
  split at stepped
  next index here =>
    match index with
    | 0 => exact Option.some.inj stepped ▸ .createFirst here
    | 1 => exact Option.some.inj stepped ▸ .createSecond here
  next index here =>
    split at stepped
    next returned =>
      match index with
      | 0 => exact Option.some.inj stepped ▸ .joinFirst here returned
      | 1 => exact Option.some.inj stepped ▸ .joinSecond here returned
    · exact nomatch stepped
  next here => exact Option.some.inj stepped ▸ .print here
  · exact nomatch stepped

/-- A step of a thread keeps it in its loop. -/
theorem Placed.moves {guard : Option (Lock (Fin 2) σ)} (placed : Placed loops state)
    (moves : Moves guard loops state index next) : Placed loops next := by
  -- A move changes the place of one thread only, so it is enough to look at its rounds.
  have inside := placed.loops index
  cases moves with
  | test here more =>
    refine placed.threadAt (by simp [here]) (by simp [here]) ?_ ?_ state.glob state.lock
    · cases guard with
      | none => exact more
      | some lock => exact more
    · cases guard with
      | none => exact nofun
      | some lock => exact nofun
  | return_ here over_ =>
    refine placed.threadAt (by simp [here]) (by simp [here]) ?_ (by simp) state.glob state.lock
    simp only [Thread.Loops, here] at inside ⊢
    omega
  | lock here guards acquired =>
    refine placed.threadAt (by simp [here]) (by simp [here]) ?_ (by simp) state.glob _
    simpa only [Thread.Loops, here] using inside
  | load here =>
    refine placed.threadAt (by simp [here]) (by simp [here]) ?_ (by simp) state.glob state.lock
    simpa only [Thread.Loops, here] using inside
  | add here =>
    refine placed.threadAt (by simp [here]) (by simp [here]) ?_ (by simp) state.glob state.lock
    simpa only [Thread.Loops, here] using inside
  -- The number of the round counts as stored from here on.
  | store here =>
    refine placed.threadAt (by simp [here]) (by simp [here]) ?_ ?_ _ state.lock
    · simp only [Thread.Loops, here] at inside
      cases guard with
      | none => exact inside
      | some lock => exact inside
    · cases guard with
      | none => exact nofun
      | some lock => exact nofun
  | unlock here guards released =>
    refine placed.threadAt (by simp [here]) (by simp [here]) ?_ (by simp) state.glob _
    simpa only [Thread.Loops, here] using inside
  | next here =>
    refine placed.threadAt (by simp [here]) (by simp [here]) ?_ (by simp) state.glob state.lock
    simp only [Thread.Loops, here] at inside ⊢
    omega

/-- A step of `main` keeps the threads where they should be. -/
theorem Placed.mainMoves (placed : Placed loops state) (moves : MainMoves state next) :
    Placed loops next := by
  cases moves with
  -- The first thread is where its loop begins, and the second one has not been created yet.
  | createFirst here =>
    refine ⟨forall_threadAt _ (Nat.zero_le loops) fun other _ => placed.loops other, ?_, ?_, ?_,
      nofun⟩
    · apply forall_threadAt (fun other place => place.pc = .notCreated ↔
        ∃ first ≤ other, MainPc.create 1 = .create first)
      · simp
      · intro other different
        have second : other = 1 := by omega
        rw [placed.created other, here]
        simp [second]
    · exact ⟨nofun, fun finished => by simp at finished⟩
    · intro number printed
      exact absurd (placed.printed number printed).1 (by simp [here])
  | createSecond here =>
    refine ⟨forall_threadAt _ (Nat.zero_le loops) fun other _ => placed.loops other, ?_, ?_, ?_,
      nofun⟩
    · apply forall_threadAt (fun other place => place.pc = .notCreated ↔
        ∃ first ≤ other, MainPc.join 0 = .create first)
      · simp
      · intro other different
        have first : other = 0 := by omega
        rw [placed.created other, here]
        simp [first]
    · exact ⟨by simp, fun finished => by simp at finished⟩
    · intro number printed
      exact absurd (placed.printed number printed).1 (by simp [here])
  | joinFirst here returned =>
    refine ⟨placed.loops, ?_, ⟨fun _ => returned, fun finished => by simp at finished⟩, ?_, nofun⟩
    · intro index
      rw [placed.created index, here]
      simp
    · intro number printed
      exact absurd (placed.printed number printed).1 (by simp [here])
  -- Both threads have returned now, the first one since it has been joined before.
  | joinSecond here returned =>
    have first := placed.joined.1 here
    refine ⟨placed.loops, ?_, ⟨nofun, fun _ index => ?_⟩, ?_, nofun⟩
    · intro index
      rw [placed.created index, here]
      simp
    · match index with
      | 0 => exact first
      | 1 => exact returned
    · intro number printed
      exact absurd (placed.printed number printed).1 (by simp [here])
  | print here =>
    have both := placed.joined.2 (.inl here)
    refine ⟨placed.loops, ?_, ⟨nofun, fun _ => both⟩, ?_, fun _ => rfl⟩
    · intro index
      rw [placed.created index, here]
      simp
    · intro number printed
      exact ⟨rfl, (Option.some.inj printed).symm⟩

/-- The threads are where they should be before they have been created. -/
theorem placed_initial (variant : Variant σ) (loops : Nat) : Placed loops (initial variant) where
  -- main is about to create the first thread.
  loops _ := rfl
  created index := ⟨fun _ => ⟨0, Fin.zero_le index, rfl⟩, fun _ => rfl⟩
  joined := ⟨nofun, fun finished => by simp [initial] at finished⟩
  printed := nofun
  exited := nofun

section Racing

/-- What is true of the number that a thread has loaded, as often as has been stored by then. -/
def Thread.Loaded (total : Nat) (thread : Thread) : Prop :=
  match thread.pc with
  | .add => 0 ≤ thread.loc ∧ thread.loc ≤ total ∧ (1 ≤ thread.j → 1 ≤ thread.loc)
  | .store => 1 ≤ thread.loc ∧ thread.loc ≤ total + 1 ∧ (1 ≤ thread.j → 2 ≤ thread.loc)
  | _ => True

/-- What is true of the variable, whatever the order of the steps. -/
structure Racing (state : State σ) : Prop where
  /-- It has not been incremented more often than a number has been stored. -/
  high : state.glob ≤ state.total
  low : 0 ≤ state.glob
  positive : 0 < state.total → 1 ≤ state.glob
  loaded : ∀ index, (state.threads index).Loaded state.total
  /-- A thread that was the last one to store has loaded what it or the other one has stored. -/
  last : 0 < state.total → ∃ index, 0 < (state.threads index).stored ∧
    (2 ≤ (state.threads index).stored → 2 ≤ state.glob)

/-- What is true of a number that was loaded early is true later. -/
theorem Thread.Loaded.mono {total more : Nat} (loaded : thread.Loaded total)
    (grows : total ≤ more) :
    thread.Loaded more := by
  unfold Thread.Loaded at loaded ⊢
  -- What was loaded is bounded by a total that has grown.
  split at loaded
  · omega
  · omega
  · trivial

/-- A thread has moved without storing a number. -/
theorem Racing.keep (racing : Racing state) (same : thread.stored = (state.threads index).stored)
    (loaded : thread.Loaded state.total) : Racing (state.threadAt index thread) := by
  -- Without a store, the total and with it all bounds stay as they are.
  have total := total_threadAt_of_stored same
  refine ⟨total ▸ racing.high, racing.low, total ▸ racing.positive, ?_, ?_⟩
  · rw [total]
    exact forall_threadAt _ loaded fun other _ => racing.loaded other
  · rw [total]
    -- The thread that has stored last is still the same one.
    intro some_
    obtain ⟨latest, stored, two⟩ := racing.last some_
    have count : ((state.threadAt index thread).threads latest).stored =
        (state.threads latest).stored := by
      by_cases same_ : latest = index
      · subst same_
        rw [threadAt_same, same]
      · rw [threadAt_other same_]
    exact ⟨latest, count ▸ stored, count ▸ two⟩

/-- A thread stores the number that it has incremented. -/
theorem Racing.store (racing : Racing state) (here : (state.threads index).pc = .store)
    (done : thread.stored = (state.threads index).j + 1) (loaded : thread.Loaded 0) :
    Racing { state.threadAt index thread with glob := (state.threads index).loc } := by
  -- The number that is stored is at most one more than the total before.
  have total := total_threadAt_of_store here done
  have total_ : State.total { state.threadAt index thread with
      glob := (state.threads index).loc } = state.total + 1 := total
  have number := racing.loaded index
  rw [Thread.Loaded, here] at number
  obtain ⟨positive, high, two⟩ := number
  refine ⟨?_, ?_, fun _ => positive, ?_, fun _ => ⟨index, ?_, fun more => ?_⟩⟩
  · rw [total_]
    exact_mod_cast high
  · show 0 ≤ (state.threads index).loc
    omega
  · rw [total_]
    exact forall_threadAt _ (loaded.mono (Nat.zero_le _))
      fun other _ => (racing.loaded other).mono (Nat.le_succ _)
  · show 0 < ((state.threadAt index thread).threads index).stored
    rw [threadAt_same]
    omega
  -- In a later round, the thread has loaded at least a 1 before it stores.
  · have more : 2 ≤ ((state.threadAt index thread).threads index).stored := more
    rw [threadAt_same] at more
    exact two (by omega)

/-- Without a lock, a step of a thread keeps what is true of the variable. -/
theorem Racing.moves (racing : Racing state) (placed : Placed loops state)
    (fits : 2 * loops < 2 ^ 31) (moves : Moves none loops state index next) : Racing next := by
  have bounded := placed.total_le
  have mine := stored_le_total state index
  have number := racing.loaded index
  cases moves with
  | test here more => exact racing.keep (by simp [Thread.stored, here]) trivial
  | return_ here over_ => exact racing.keep (by simp [Thread.stored, here]) trivial
  | lock here guards acquired => exact nomatch guards
  | load here =>
    refine racing.keep (by simp [Thread.stored, here]) ⟨racing.low, racing.high, ?_⟩
    -- After the first round something has been stored.
    intro later
    apply racing.positive
    rw [Thread.stored, here] at mine
    exact lt_of_lt_of_le later mine
  | add here =>
    rw [Thread.Loaded, here] at number
    obtain ⟨low, high, positive⟩ := number
    have exact_ : int ((state.threads index).loc + 1) = (state.threads index).loc + 1 :=
      int_of_fits (by omega) (by omega)
    refine racing.keep (by simp [Thread.stored, here]) ?_
    show 1 ≤ int _ ∧ int _ ≤ _ ∧ (1 ≤ (state.threads index).j → 2 ≤ int _)
    rw [exact_]
    omega
  | store here => exact racing.store here rfl trivial
  | unlock here guards released => exact nomatch guards
  | next here => exact racing.keep (by simp [Thread.stored, here]) trivial

/-- A new thread has stored nothing. -/
theorem Racing.create (racing : Racing state) (placed : Placed loops state)
    (absent : (state.threads index).pc = .notCreated) (main : MainPc) :
    Racing { state.threadAt index ⟨.test, 0, 0⟩ with main := main } := by
  have inside := placed.loops index
  rw [Thread.Loops, absent] at inside
  -- A thread that begins has stored and loaded nothing.
  have kept : Racing (state.threadAt index ⟨.test, 0, 0⟩) :=
    racing.keep (by simp [Thread.stored, absent, inside]) trivial
  exact ⟨kept.high, kept.low, kept.positive, kept.loaded, kept.last⟩

/-- Nothing is true of the variable that `main` could change. -/
theorem Racing.mainMoves (racing : Racing state) (placed : Placed loops state)
    (moves : MainMoves state next) : Racing next := by
  -- The steps of main leave the number and what the threads have loaded alone.
  cases moves with
  | createFirst here => exact racing.create placed ((placed.created 0).mpr ⟨0, le_rfl, here⟩) _
  | createSecond here => exact racing.create placed ((placed.created 1).mpr ⟨1, le_rfl, here⟩) _
  | joinFirst here returned =>
    exact ⟨racing.high, racing.low, racing.positive, racing.loaded, racing.last⟩
  | joinSecond here returned =>
    exact ⟨racing.high, racing.low, racing.positive, racing.loaded, racing.last⟩
  | print here =>
    exact ⟨racing.high, racing.low, racing.positive, racing.loaded, racing.last⟩

/-- Without a lock, at least two increments count, if each thread makes as many. -/
theorem prints_bounds (fits : 2 * loops < 2 ^ 31) (some_ : 0 < loops) {number : Int}
    (prints : Prints threadIncr loops number) :
    ((min 2 loops : Nat) : Int) ≤ number ∧ number ≤ (2 * loops : Nat) := by
  obtain ⟨actions, state, ran, printed⟩ := prints
  have preserved : ∀ before action after, Placed loops before ∧ Racing before →
      (machine threadIncr loops).step before action = some after →
        Placed loops after ∧ Racing after := by
    intro before action after good stepped
    cases action with
    | main =>
      have moves := mainMoves_of_step stepped
      exact ⟨good.1.mainMoves moves, good.2.mainMoves good.1 moves⟩
    | thread index =>
      have moves := moves_of_step stepped
      exact ⟨good.1.moves moves, good.2.moves good.1 fits moves⟩
  have start : Placed loops (initial threadIncr) ∧ Racing (initial threadIncr) :=
    ⟨placed_initial _ _, le_rfl, le_rfl, nofun, fun _ => trivial, nofun⟩
  obtain ⟨placed, racing⟩ := Machine.run_invariant preserved start ran
  obtain ⟨total, rfl⟩ := placed.total_eq printed
  have high := racing.high
  have positive := racing.positive (by omega)
  obtain ⟨index, _, two⟩ := racing.last (by omega)
  -- Both threads have stored as many numbers as there are rounds.
  have stored : (state.threads index).stored = loops := by
    have first := (placed.loops 0).stored_le
    have second := (placed.loops 1).stored_le
    have sum : state.total = (state.threads 0).stored + (state.threads 1).stored :=
      Fin.sum_univ_two fun index => (state.threads index).stored
    match index with
    | 0 => omega
    | 1 => omega
  rw [stored] at two
  constructor
  · by_cases more : 2 ≤ loops
    · have least := two more
      omega
    · omega
  · omega

/-- One thread has gone on to some instruction, while the other one has stood still. -/
structure Went (loops : Nat) (before after : State Unit) (index : Fin 2) (thread : Thread)
    (glob : Int) : Prop where
  reaches : (machine threadIncr loops).Reaches before after
  main : after.main = before.main
  here : after.threads index = thread
  there : ∀ other, other ≠ index → after.threads other = before.threads other
  glob : after.glob = glob

variable {before middle after : State Unit} {j : Nat} {loc : Int}

/-- A thread takes one step. -/
theorem went_step {glob : Int} (stepped : threadStep none loops before index =
    some { before.threadAt index thread with glob := glob }) :
    ∃ after, Went loops before after index thread glob :=
  ⟨_, @Machine.Reaches.single _ _ _ _ _ (.thread index) stepped, rfl, threadAt_same,
    fun _ different => threadAt_other different, rfl⟩

/-- A thread takes some steps after others. -/
theorem Went.trans {first second : Thread} {glob glob_ : Int}
    (front : Went loops before middle index first glob)
    (back : Went loops middle after index second glob_) :
    Went loops before after index second glob_ where
  -- The second part goes on where the first one has ended, and both leave the other thread alone.
  reaches := front.reaches.trans back.reaches
  main := back.main.trans front.main
  here := back.here
  there other different := (back.there other different).trans (front.there other different)
  glob := back.glob

/-- A thread begins a round, and loads the variable. -/
theorem went_load (loops : Nat) (here : before.threads index = ⟨.test, j, loc⟩) (more : j < loops) :
    ∃ after, Went loops before after index ⟨.add, j, before.glob⟩ before.glob := by
  -- The test and the load are two steps of this thread.
  obtain ⟨one, first⟩ : ∃ one, Went loops before one index ⟨.load, j, loc⟩ before.glob :=
    went_step (by simp [threadStep, here, more, State.threadAt])
  obtain ⟨two, second⟩ : ∃ two, Went loops one two index ⟨.add, j, one.glob⟩ one.glob :=
    went_step (by simp [threadStep, first.here, State.threadAt])
  rw [first.glob] at second
  exact ⟨two, first.trans second⟩

/-- A thread ends a round, and stores what it has loaded and incremented. -/
theorem went_store (here : before.threads index = ⟨.add, j, loc⟩) (low : 0 ≤ loc)
    (high : loc < 2 * loops) (fits : 2 * loops < 2 ^ 31) :
    ∃ after, Went loops before after index ⟨.test, j + 1, loc + 1⟩ (loc + 1) := by
  -- Three steps: the sum is formed, stored, and the round is over.
  have exact_ : int (loc + 1) = loc + 1 := int_of_fits (by omega) (by omega)
  obtain ⟨one, first⟩ : ∃ one, Went loops before one index ⟨.store, j, loc + 1⟩ before.glob :=
    went_step (by simp [threadStep, here, exact_, State.threadAt])
  obtain ⟨two, second⟩ : ∃ two, Went loops one two index ⟨.next, j, loc + 1⟩ (loc + 1) :=
    went_step (by simp [threadStep, first.here, State.threadAt])
  obtain ⟨three, third⟩ : ∃ three, Went loops two three index ⟨.test, j + 1, loc + 1⟩ two.glob :=
    went_step (by simp [threadStep, second.here, State.threadAt])
  rw [second.glob] at third
  exact ⟨three, (first.trans second).trans third⟩

/-- A thread makes some rounds while the other one stands still. -/
theorem went_rounds (count : Nat) (here : before.threads index = ⟨.test, j, loc⟩)
    (more : j + count ≤ loops) (low : 0 ≤ before.glob) (high : before.glob + count ≤ 2 * loops)
    (fits : 2 * loops < 2 ^ 31) :
    ∃ after loc_, Went loops before after index ⟨.test, j + count, loc_⟩ (before.glob + count) := by
  -- The induction makes one round after the others.
  induction count with
  | zero =>
    refine ⟨before, loc, .refl before, rfl, here, fun _ _ => rfl, ?_⟩
    simp
  | succ count ih =>
    obtain ⟨middle, loc_, went⟩ := ih (by omega) (by push_cast at high; omega)
    obtain ⟨loaded, load⟩ := went_load loops went.here (by omega)
    rw [went.glob] at load
    obtain ⟨after, store⟩ := went_store load.here (by omega) (by push_cast at high; omega) fits
    have same : before.glob + ((count + 1 : Nat) : Int) = before.glob + count + 1 := by
      push_cast
      omega
    rw [same]
    exact ⟨after, _, (went.trans load).trans store⟩

/-- When both threads have made all rounds, what is in the variable can be printed. -/
theorem prints_of_reaches (started : (machine threadIncr loops).Reaches (initial threadIncr) before)
    (main : before.main = .join 0) {one two : Int} (first : before.threads 0 = ⟨.test, loops, one⟩)
    (second : before.threads 1 = ⟨.test, loops, two⟩) : Prints threadIncr loops before.glob := by
  obtain ⟨middle, left⟩ :
      ∃ middle, Went loops before middle 0 ⟨.returned, loops, one⟩ before.glob :=
    went_step (by simp [threadStep, first, State.threadAt])
  have waiting : middle.threads 1 = ⟨.test, loops, two⟩ :=
    (left.there 1 (by decide)).trans second
  obtain ⟨after, right⟩ : ∃ after, Went loops middle after 1 ⟨.returned, loops, two⟩ middle.glob :=
    went_step (by simp [threadStep, waiting, State.threadAt])
  have both : (after.threads 0).pc = .returned ∧ (after.threads 1).pc = .returned := by
    rw [right.here, right.there 0 (by decide), left.here]
    exact ⟨rfl, rfl⟩
  have joining : after.main = .join 0 := (right.main.trans left.main).trans main
  -- `main` joins both threads, and prints.
  have prints : (machine threadIncr loops).run after [.main, .main, .main] =
      some { after with main := .exited, printed := some after.glob } := by
    simp [Machine.run, machine, mainStep, joining, both.1, both.2]
  obtain ⟨actions, ran⟩ := (started.trans (left.reaches.trans right.reaches)).trans ⟨_, prints⟩
  refine ⟨actions, _, ran, ?_⟩
  rw [right.glob, left.glob]

/-- `main` creates both threads. -/
theorem reaches_created (loops : Nat) :
    ∃ state, (machine threadIncr loops).Reaches (initial threadIncr) state ∧ state.main = .join 0 ∧
      (∀ index, state.threads index = ⟨.test, 0, 0⟩) ∧ state.glob = 0 := by
  -- main creates both threads before either of them does anything.
  refine ⟨_, ⟨[.main, .main], rfl⟩, rfl, fun index => ?_, rfl⟩
  match index with
  | 0 => rfl
  | 1 => rfl

/-- Without a lock, some rounds of each thread can be lost between a load and a store. -/
theorem prints_of_lost (fits : 2 * loops < 2 ^ 31) (kept lost : Nat) (many : kept < loops)
    (few : lost < loops) : Prints threadIncr loops (kept + 1 + loops - lost : Int) := by
  obtain ⟨start, started, main, fresh, zero⟩ := reaches_created loops
  have other : (1 : Fin 2) ≠ 0 := by decide
  -- The first thread makes the rounds that are kept, and loads the variable.
  obtain ⟨one, _, first⟩ := went_rounds kept (fresh 0) (by omega) (by omega) (by omega) fits
  obtain ⟨two, second⟩ := went_load loops first.here (by omega)
  rw [first.glob, zero] at second
  -- The second thread makes rounds that are lost when the first one stores.
  have waits : two.threads 1 = ⟨.test, 0, 0⟩ :=
    (second.there 1 other).trans ((first.there 1 other).trans (fresh 1))
  have glob := second.glob
  obtain ⟨three, _, third⟩ :=
    went_rounds lost waits (by omega) (by omega) (by omega) fits
  obtain ⟨four, fourth⟩ := went_store ((third.there 0 other.symm).trans second.here) (by omega)
    (by omega) fits
  -- It loads what the first thread has stored.
  obtain ⟨five, fifth⟩ :=
    went_load loops ((fourth.there 1 other).trans third.here) (by omega)
  rw [fourth.glob] at fifth
  -- Now the first thread makes its other rounds, which are lost when the second one stores.
  have glob := fifth.glob
  obtain ⟨six, _, sixth⟩ := went_rounds (loops - (0 + kept + 1))
    ((fifth.there 0 other.symm).trans fourth.here) (by omega) (by omega) (by omega) fits
  obtain ⟨seven, seventh⟩ := went_store ((sixth.there 1 other).trans fifth.here) (by omega)
    (by omega) fits
  have glob := seventh.glob
  obtain ⟨eight, _, eighth⟩ := went_rounds (loops - (0 + lost + 1)) seventh.here (by omega)
    (by omega) (by omega) fits
  have went := (((started.trans first.reaches).trans (second.reaches.trans third.reaches)).trans
    (fourth.reaches.trans fifth.reaches)).trans
      ((sixth.reaches.trans seventh.reaches).trans eighth.reaches)
  have joining : eight.main = .join 0 := by
    rw [eighth.main, seventh.main, sixth.main, fifth.main, fourth.main, third.main, second.main,
      first.main, main]
  have left := (eighth.there 0 other.symm).trans ((seventh.there 0 other.symm).trans sixth.here)
  have right := eighth.here
  have all : 0 + kept + 1 + (loops - (0 + kept + 1)) = loops := by omega
  have all_ : 0 + lost + 1 + (loops - (0 + lost + 1)) = loops := by omega
  rw [all] at left
  rw [all_] at right
  have prints := prints_of_reaches went joining left right
  have same : eight.glob = kept + 1 + loops - lost := by
    rw [eighth.glob, seventh.glob]
    omega
  rwa [same] at prints

/-- If each thread makes one round, one of the increments can be lost. -/
theorem prints_one : Prints threadIncr 1 1 := by
  -- Both threads load the counter before either of them stores it.
  refine ⟨[.main, .main, .thread 0, .thread 0, .thread 1, .thread 1, .thread 0, .thread 0,
    .thread 0, .thread 0, .thread 1, .thread 1, .thread 1, .thread 1, .main, .main, .main],
    _, rfl, ?_⟩
  decide

/-- Without a lock, exactly the numbers from two to twice the rounds can be printed. -/
theorem threadIncr_prints_iff (loops : Nat) (some_ : 0 < loops) (fits : 2 * loops < 2 ^ 31)
    (number : Int) :
    Prints threadIncr loops number ↔
      ((min 2 loops : Nat) : Int) ≤ number ∧ number ≤ (2 * loops : Nat) := by
  constructor
  · exact prints_bounds fits some_
  · rintro ⟨low, high⟩
    by_cases one : loops = 1 ∧ number = 1
    · rw [one.1, one.2]
      exact prints_one
    · -- Either nothing is lost by the first store, or nothing is kept before it.
      by_cases more : loops + 1 ≤ number
      · have prints := prints_of_lost fits (number - loops - 1).toNat 0 (by omega) some_
        have same : ((number - loops - 1).toNat : Int) + 1 + loops - (0 : Nat) = number := by omega
        rwa [same] at prints
      · have prints := prints_of_lost fits 0 (loops + 1 - number).toNat some_ (by omega)
        have same : ((0 : Nat) : Int) + 1 + loops - (loops + 1 - number).toNat = number := by omega
        rwa [same] at prints

/-- Almost all of the twenty million increments can be lost. -/
theorem threadIncr_prints_two : Prints threadIncr 10000000 2 :=
  (threadIncr_prints_iff 10000000 (by decide) (by decide) 2).mpr ⟨by decide, by decide⟩

end Racing

section Guarded

/-- Between the calls that ask for the lock and give it back. -/
def Thread.Inside (thread : Thread) : Prop :=
  match thread.pc with
  | .load | .add | .store | .unlock => True
  | _ => False

/-- What a thread has loaded and incremented is what is in the variable. -/
def Thread.Carries (glob : Int) (thread : Thread) : Prop :=
  match thread.pc with
  | .add => thread.loc = glob
  | .store => thread.loc = glob + 1
  | _ => True

/-- What is true of the variable when the threads ask for a lock. -/
structure Exact (held : σ → Option (Fin 2) → Prop) (state : State σ) : Prop where
  holder : ∃ holder, held state.lock holder ∧
    Guards holder fun index => (state.threads index).Inside
  glob : state.glob = state.total
  carries : ∀ index, (state.threads index).Carries state.glob

variable {lock : Lock (Fin 2) σ} {held : σ → Option (Fin 2) → Prop}

/-- A thread moves within the guarded code, or outside of it, and stores nothing. -/
theorem Exact.keep (exact_ : Exact held state) (same : thread.stored = (state.threads index).stored)
    (inside : thread.Inside ↔ (state.threads index).Inside) (carries : thread.Carries state.glob) :
    Exact held (state.threadAt index thread) := by
  -- Without a store, the number is still the total of what has been stored.
  have total := total_threadAt_of_stored same
  obtain ⟨holder, holds, guards⟩ := exact_.holder
  refine ⟨⟨holder, holds, guards.keep_update inside⟩, ?_, ?_⟩
  · rw [total]
    exact exact_.glob
  · exact forall_threadAt _ carries fun other _ => exact_.carries other

/-- With a lock, a step of a thread keeps what is true of the variable. -/
theorem Exact.moves (excludes : lock.Excludes held) (exact_ : Exact held state)
    (placed : Placed loops state) (fits : 2 * loops < 2 ^ 31)
    (moves : Moves (some lock) loops state index next) : Exact held next := by
  have bounded := placed.total_le
  have glob := exact_.glob
  have number := exact_.carries index
  obtain ⟨holder, holds, guards⟩ := exact_.holder
  cases moves with
  | test here more =>
    exact exact_.keep (by simp [Thread.stored, here]) (by simp [Thread.Inside, here]) trivial
  | return_ here over_ =>
    exact exact_.keep (by simp [Thread.stored, here]) (by simp [Thread.Inside, here]) trivial
  | @lock here _ taken same acquired =>
    obtain rfl := Option.some.inj same
    -- Nobody has held the lock.
    cases holder with
    | some other =>
      rw [excludes.blocked _ index other holds] at acquired
      exact nomatch acquired
    | none =>
      obtain ⟨taken_, acquired_, holds_⟩ := excludes.acquire state.lock index holds
      obtain rfl := Option.some.inj (acquired_.symm.trans acquired)
      have total : (state.threadAt index { state.threads index with pc := .load }).total =
          state.total := total_threadAt_of_stored (by simp [Thread.stored, here])
      refine ⟨⟨some index, holds_, guards.lock_update trivial⟩, glob.trans ?_,
        forall_threadAt _ trivial fun other _ => exact_.carries other⟩
      exact congrArg Nat.cast total.symm
  | load here =>
    exact exact_.keep (by simp [Thread.stored, here]) (by simp [Thread.Inside, here]) rfl
  | add here =>
    rw [Thread.Carries, here] at number
    have short := placed.loops index
    rw [Thread.Loops, here] at short
    have less := placed.total_lt index (by rwa [Thread.stored, here])
    refine exact_.keep (by simp [Thread.stored, here]) (by simp [Thread.Inside, here]) ?_
    show int ((state.threads index).loc + 1) = state.glob + 1
    rw [number]
    exact int_of_fits (by omega) (by omega)
  | store here =>
    rw [Thread.Carries, here] at number
    have total : (state.threadAt index { state.threads index with pc := .unlock }).total =
        state.total + 1 := total_threadAt_of_store here rfl
    refine ⟨⟨holder, holds, guards.keep_update (by simp [Thread.Inside, here])⟩, ?_, ?_⟩
    · refine Eq.trans ?_ (congrArg Nat.cast total.symm)
      push_cast
      omega
    · -- The other thread has not loaded anything, for it would hold the lock.
      refine forall_threadAt (fun _ place => place.Carries (state.threads index).loc) trivial ?_
      intro other different
      have outside : ¬ (state.threads other).Inside := fun inside =>
        different (guards.exclusive inside (by simp [Thread.Inside, here]))
      unfold Thread.Inside at outside
      unfold Thread.Carries
      split <;> simp_all
  | @unlock here _ free same released =>
    obtain rfl := Option.some.inj same
    have holding : holder = some index :=
      (guards index).mp (by simp [Thread.Inside, here])
    subst holding
    obtain ⟨free_, released_, holds_⟩ := excludes.release state.lock index holds
    obtain rfl := Option.some.inj (released_.symm.trans released)
    have total : (state.threadAt index { state.threads index with pc := .next }).total =
        state.total := total_threadAt_of_stored (by simp [Thread.stored, here])
    refine ⟨⟨none, holds_, guards.unlock_update (by simp [Thread.Inside, here]) not_false⟩,
      glob.trans ?_, forall_threadAt _ trivial fun other _ => exact_.carries other⟩
    exact congrArg Nat.cast total.symm
  | next here =>
    exact exact_.keep (by simp [Thread.stored, here]) (by simp [Thread.Inside, here]) trivial

/-- With a lock, a step of `main` keeps what is true of the variable. -/
theorem Exact.mainMoves (exact_ : Exact held state) (placed : Placed loops state)
    (moves : MainMoves state next) : Exact held next := by
  -- A thread that is created has neither stored anything nor asked for the lock.
  have creates : ∀ index main, (state.threads index).pc = .notCreated →
      Exact held { state.threadAt index ⟨.test, 0, 0⟩ with main := main } := by
    intro index main absent
    have none_ := placed.loops index
    rw [Thread.Loops, absent] at none_
    have kept : Exact held (state.threadAt index ⟨.test, 0, 0⟩) :=
      exact_.keep (by simp [Thread.stored, absent, none_]) (by simp [Thread.Inside, absent]) trivial
    exact ⟨kept.holder, kept.glob, kept.carries⟩
  cases moves with
  | createFirst here => exact creates 0 _ ((placed.created 0).mpr ⟨0, le_rfl, here⟩)
  | createSecond here => exact creates 1 _ ((placed.created 1).mpr ⟨1, le_rfl, here⟩)
  | joinFirst here returned => exact ⟨exact_.holder, exact_.glob, exact_.carries⟩
  | joinSecond here returned => exact ⟨exact_.holder, exact_.glob, exact_.carries⟩
  | print here => exact ⟨exact_.holder, exact_.glob, exact_.carries⟩

/-- How many steps a thread can still take. -/
def Thread.left (loops : Nat) (thread : Thread) : Nat :=
  let rounds := 8 * (loops - thread.j)
  match thread.pc with
  | .notCreated => rounds + 2
  | .test => rounds + 1
  | .lock => rounds
  | .load => rounds - 1
  | .add => rounds - 2
  | .store => rounds - 3
  | .unlock => rounds - 4
  | .next => rounds - 5
  | .returned => 0

/-- How many steps `main` can still take. -/
def MainPc.left : MainPc → Nat
  | .create 0 => 5
  | .create 1 => 4
  | .join 0 => 3
  | .join 1 => 2
  | .print => 1
  | .exited => 0

/-- How many steps are left at most. -/
def State.left (loops : Nat) (state : State σ) : Nat :=
  state.main.left + tally (Thread.left loops) state.threads

/-- A thread that moves leaves fewer steps to be taken. -/
theorem left_threadAt (less : thread.left loops < (state.threads index).left loops) (glob : Int)
    (lock : σ) : State.left loops { state.threadAt index thread with glob := glob, lock := lock } <
      state.left loops := by
  -- The thread has less left to do, and everybody else as much as before.
  have moved := tally_update (Thread.left loops) state.threads index thread
  show state.main.left + tally (Thread.left loops) (Function.update state.threads index thread) <
    state.main.left + tally (Thread.left loops) state.threads
  omega

/-- Every step of a thread leaves fewer steps to be taken. -/
theorem Placed.left_moves {guard : Option (Lock (Fin 2) σ)} (placed : Placed loops state)
    (moves : Moves guard loops state index next) : next.left loops < state.left loops := by
  -- Each place in a round is worth one step less than the place before it.
  have inside := placed.loops index
  cases moves with
  -- Without a lock, a round begins with the load and has two steps less.
  | test here more =>
    refine left_threadAt ?_ state.glob state.lock
    cases guard with
    | none =>
      simp only [Thread.left, here]
      show 8 * (loops - (state.threads index).j) - 1 < _
      omega
    | some lock => simp [Thread.left, here]
  | return_ here over_ =>
    refine left_threadAt ?_ state.glob state.lock
    simp [Thread.left, here]
  | lock here guards acquired =>
    rw [Thread.Loops, here] at inside
    refine left_threadAt ?_ state.glob _
    simp only [Thread.left, here]
    omega
  | load here =>
    rw [Thread.Loops, here] at inside
    refine left_threadAt ?_ state.glob state.lock
    simp only [Thread.left, here]
    omega
  | add here =>
    rw [Thread.Loops, here] at inside
    refine left_threadAt ?_ state.glob state.lock
    simp only [Thread.left, here]
    omega
  | store here =>
    rw [Thread.Loops, here] at inside
    refine left_threadAt ?_ _ state.lock
    cases guard with
    | none =>
      simp only [Thread.left, here]
      simp
      omega
    | some lock =>
      simp only [Thread.left, here]
      simp
      omega
  | unlock here guards released =>
    rw [Thread.Loops, here] at inside
    refine left_threadAt ?_ state.glob _
    simp only [Thread.left, here]
    omega
  | next here =>
    rw [Thread.Loops, here] at inside
    refine left_threadAt ?_ state.glob state.lock
    simp only [Thread.left, here]
    omega

/-- Every step of `main` leaves fewer steps to be taken. -/
theorem Placed.left_mainMoves (placed : Placed loops state) (moves : MainMoves state next) :
    next.left loops < state.left loops := by
  -- Creating a thread is a step that is taken for the thread, too.
  have creates : ∀ index, (state.threads index).pc = .notCreated →
      tally (Thread.left loops) (state.threadAt index ⟨.test, 0, 0⟩).threads <
        tally (Thread.left loops) state.threads := by
    intro index absent
    have none_ := placed.loops index
    rw [Thread.Loops, absent] at none_
    have moved := tally_update (Thread.left loops) state.threads index ⟨.test, 0, 0⟩
    have before : (state.threads index).left loops = 8 * loops + 2 := by
      simp [Thread.left, absent, none_]
    have after : (⟨.test, 0, 0⟩ : Thread).left loops = 8 * loops + 1 := rfl
    show tally (Thread.left loops) (Function.update state.threads index ⟨.test, 0, 0⟩) < _
    omega
  cases moves with
  | createFirst here =>
    rw [State.left, State.left, here]
    exact Nat.add_lt_add (by decide : 4 < 5)
      (creates 0 ((placed.created 0).mpr ⟨0, le_rfl, here⟩))
  | createSecond here =>
    rw [State.left, State.left, here]
    exact Nat.add_lt_add (by decide : 3 < 4)
      (creates 1 ((placed.created 1).mpr ⟨1, le_rfl, here⟩))
  | joinFirst here returned =>
    rw [State.left, State.left, here]
    exact Nat.add_lt_add_right (by decide : 2 < 3) _
  | joinSecond here returned =>
    rw [State.left, State.left, here]
    exact Nat.add_lt_add_right (by decide : 1 < 2) _
  | print here =>
    rw [State.left, State.left, here]
    exact Nat.add_lt_add_right (by decide : 0 < 1) _

/-- What is promised of a program that prints how often both threads have incremented. -/
structure Reliable (variant : Variant σ) (loops : Nat) : Prop where
  prints : ∀ actions state, (machine variant loops).run (initial variant) actions = some state →
    state.printed = if state.main = .exited then some ((2 * loops : Nat) : Int) else none
  /-- No thread waits for ever, and no call fails. -/
  progress : ∀ actions state, (machine variant loops).run (initial variant) actions = some state →
    state.main = .exited ∨ ∃ action next, (machine variant loops).step state action = some next
  ends : ∀ actions state, (machine variant loops).run (initial variant) actions = some state →
    actions.length ≤ 16 * loops + 9

/-- A thread in the guarded code can go on. -/
theorem exists_step_of_inside (loops : Nat) (excludes : lock.Excludes held)
    (exact_ : Exact held state) (index : Fin 2) (inside : (state.threads index).Inside) :
    ∃ next, threadStep (some lock) loops state index = some next := by
  -- Between lock and unlock nothing waits, and the owner can release the lock.
  obtain ⟨holder, holds, guards⟩ := exact_.holder
  obtain rfl := (guards index).mp inside
  apply Option.isSome_iff_exists.mp
  cases here : (state.threads index).pc with
  | load | add | store => simp [threadStep, here]
  | unlock =>
    obtain ⟨free, released, _⟩ := excludes.release state.lock index holds
    simp [threadStep, here, released]
  | notCreated | test | lock | next | returned =>
    rw [Thread.Inside, here] at inside
    exact inside.elim

/-- As long as a thread has not returned, it can go on, or the other one can. -/
theorem exists_step_of_running (loops : Nat) (excludes : lock.Excludes held)
    (exact_ : Exact held state) (created : (state.threads index).pc ≠ .notCreated)
    (running : (state.threads index).pc ≠ .returned) :
    ∃ other next, threadStep (some lock) loops state other = some next := by
  -- Only the lock may have to be waited for, and then its owner goes on.
  cases here : (state.threads index).pc with
  | notCreated => exact absurd here created
  | returned => exact absurd here running
  | test =>
    refine ⟨index, Option.isSome_iff_exists.mp ?_⟩
    by_cases more : (state.threads index).j < loops
    · simp [threadStep, here, more]
    · simp [threadStep, here, more]
  | next => exact ⟨index, Option.isSome_iff_exists.mp (by simp [threadStep, here])⟩
  | load | add | store | unlock =>
    obtain ⟨next, stepped⟩ := exists_step_of_inside loops excludes exact_ index
      (by simp [Thread.Inside, here])
    exact ⟨index, next, stepped⟩
  | lock =>
    obtain ⟨holder, holds, guards⟩ := exact_.holder
    cases holder with
    | none =>
      obtain ⟨taken, acquired, _⟩ := excludes.acquire state.lock index holds
      exact ⟨index, Option.isSome_iff_exists.mp (by simp [threadStep, here, acquired])⟩
    | some other =>
      obtain ⟨next, stepped⟩ := exists_step_of_inside loops excludes exact_ other
        ((guards other).mpr rfl)
      exact ⟨other, next, stepped⟩

/-- With any lock that excludes all but one, no increment is lost. -/
theorem reliable_of_excludes (excludes : lock.Excludes held) (fits : 2 * loops < 2 ^ 31) :
    Reliable (guarded lock) loops := by
  -- Where the lock excludes, the number in the variable is exact in every state.
  have sound : ∀ actions state,
      (machine (guarded lock) loops).run (initial (guarded lock)) actions = some state →
        Placed loops state ∧ Exact held state := by
    intro actions state ran
    have start : Exact held (initial (guarded lock)) :=
      ⟨⟨none, excludes.initial, fun index => ⟨False.elim, nofun⟩⟩, rfl, fun _ => trivial⟩
    have preserved : ∀ before action after, Placed loops before ∧ Exact held before →
        (machine (guarded lock) loops).step before action = some after →
          Placed loops after ∧ Exact held after := by
      intro before action after good stepped
      cases action with
      | main =>
        have moves := mainMoves_of_step stepped
        exact ⟨good.1.mainMoves moves, good.2.mainMoves good.1 moves⟩
      | thread index =>
        have moves := moves_of_step stepped
        exact ⟨good.1.moves moves, good.2.moves excludes good.1 fits moves⟩
    exact Machine.run_invariant preserved ⟨placed_initial _ _, start⟩ ran
  refine ⟨fun actions state ran => ?_, fun actions state ran => ?_, fun actions state ran => ?_⟩
  · obtain ⟨placed, exact_⟩ := sound actions state ran
    split
    next exited =>
      obtain ⟨number, printed⟩ := Option.isSome_iff_exists.mp (placed.exited exited)
      obtain ⟨total, rfl⟩ := placed.total_eq printed
      rw [printed, exact_.glob, total]
    next running =>
      cases printed : state.printed with
      | none => rfl
      | some number => exact absurd (placed.printed number printed).1 running
  · obtain ⟨placed, exact_⟩ := sound actions state ran
    cases main : state.main with
    | exited => exact .inl rfl
    | create index | print =>
      exact .inr ⟨.main, Option.isSome_iff_exists.mp (by simp [machine, mainStep, main])⟩
    | join index =>
      by_cases returned : (state.threads index).pc = .returned
      · exact .inr ⟨.main, Option.isSome_iff_exists.mp
          (by simp [machine, mainStep, main, returned])⟩
      · have created : (state.threads index).pc ≠ .notCreated := by
          intro absent
          obtain ⟨_, _, creating⟩ := (placed.created index).mp absent
          exact nomatch main.symm.trans creating
        obtain ⟨other, next, stepped⟩ :=
          exists_step_of_running loops excludes exact_ created returned
        exact .inr ⟨.thread other, next, stepped⟩
  · have preserved : ∀ before action after, Placed loops before →
        (machine (guarded lock) loops).step before action = some after → Placed loops after := by
      intro before action after placed stepped
      cases action with
      | main => exact placed.mainMoves (mainMoves_of_step stepped)
      | thread index => exact placed.moves (moves_of_step stepped)
    have lowered : ∀ before action after, Placed loops before →
        (machine (guarded lock) loops).step before action = some after →
          after.left loops < before.left loops := by
      intro before action after placed stepped
      cases action with
      | main => exact placed.left_mainMoves (mainMoves_of_step stepped)
      | thread index => exact placed.left_moves (moves_of_step stepped)
    have bound := Machine.run_length_le preserved lowered (placed_initial (guarded lock) loops) ran
    have start : (initial (guarded lock)).left loops = 16 * loops + 9 := by
      have both : tally (Thread.left loops) (initial (guarded lock)).threads =
          (8 * loops + 2) + (8 * loops + 2) :=
        Fin.sum_univ_two fun _ => (⟨.notCreated, 0, 0⟩ : Thread).left loops
      rw [State.left, both]
      show 5 + _ = _
      omega
    omega

/-- With a mutex, a write lock, a spin lock or a semaphore, no increment is lost. -/
theorem guarded_reliable (loops : Nat) (fits : 2 * loops < 2 ^ 31) :
    Reliable threadIncrMutex loops ∧ Reliable threadIncrRwlock loops ∧
      Reliable threadIncrSpinlock loops ∧ Reliable threadIncrPsem loops :=
  -- Each program has a lock that excludes, and that is all that is needed of it.
  ⟨reliable_of_excludes Lock.mutex_excludes fits, reliable_of_excludes Lock.writeLock_excludes fits,
    reliable_of_excludes Lock.spinLock_excludes fits,
    reliable_of_excludes Lock.semaphore_excludes fits⟩

theorem guarded_reliable_default :
    Reliable threadIncrMutex 10000000 ∧ Reliable threadIncrRwlock 10000000 ∧
      Reliable threadIncrSpinlock 10000000 ∧ Reliable threadIncrPsem 10000000 :=
  guarded_reliable 10000000 (by decide)

end Guarded

end SysProg.Threads.ThreadIncr
