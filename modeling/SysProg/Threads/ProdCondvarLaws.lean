import SysProg.Lib.Tally
import SysProg.Threads.ProdCondvar

/-! No unit is lost, no wake-up is lost, and the consumer leaves when everything is consumed. -/

namespace SysProg.Threads.ProdCondvar

/-- Whether `main` has locked the mutex. -/
def MainPc.Inside : MainPc → Prop
  | .test | .consume | .unlock => True
  | _ => False

/-- Whether a producer has locked the mutex. -/
def Producer.Inside (producer : Producer) : Prop :=
  match producer.pc with
  | .increment | .unlock => True
  | _ => False

/-- A producer has made a unit available, and is going to signal that. -/
def ProducerPc.Signals : ProducerPc → Prop
  | .unlock | .signal => True
  | _ => False

/-- How many units a producer has made available. -/
def Producer.units (producer : Producer) : Nat :=
  match producer.pc with
  | .notCreated => 0
  | .unlock | .signal => producer.j + 1
  | _ => producer.j

/-- The loop of a producer does not go beyond what it is asked for. -/
def Producer.Within (count : Nat) (producer : Producer) : Prop :=
  match producer.pc with
  | .notCreated => True
  | .loop | .returned => producer.j ≤ count
  | _ => producer.j < count

variable {threads : Nat}

/-- How many units have been produced. -/
def State.produced (state : State threads) : Nat :=
  tally Producer.units state.producers

/-- How many units all producers are asked to produce. -/
def total (counts : Fin threads → Count) : Nat :=
  ∑ index, (counts index).val

/-- How many units the first producers are asked to produce. -/
def firstTotal (counts : Fin threads → Count) (created : Nat) : Nat :=
  ∑ j ∈ Finset.range created, if there : j < threads then (counts ⟨j, there⟩).val else 0

/-- How many units the producers are asked to produce that `main` has dealt with. -/
def MainPc.asked (counts : Fin threads → Count) : MainPc → Nat
  | .create j => firstTotal counts j
  | _ => total counts

variable {counts : Fin threads → Count} {state next : State threads}

/-- What holds at all times, as long as no number overflows. -/
structure Invariant (counts : Fin threads → Count) (state : State threads) : Prop where
  guards : Guards state.mtx
    (Party.Inside state.main.Inside fun index => (state.producers index).Inside)
  -- The loop creates the producers in the order of their numbers.
  uncreated : ∀ j, state.main = .create j → ∀ index : Fin threads, j ≤ index.val →
    (state.producers index).pc = .notCreated
  within : ∀ index, (state.producers index).Within (counts index).val
  /-- Every unit is available or consumed. -/
  balance : (state.produced : Int) = state.avail + state.numConsumed
  avail : 0 ≤ state.avail
  consumed : 0 ≤ state.numConsumed
  -- What `main` has added up so far is what has been asked for so far.
  asked : state.totRequired = state.main.asked counts
  -- The flag is set from the comparison of the two numbers.
  done : state.done = true → (total counts : Int) ≤ state.numConsumed
  exited : state.main = .exited → state.done = true
  /-- While `main` sleeps beside a unit, somebody is going to wake it. -/
  attended : state.main = .asleep → 0 < state.avail →
    ∃ index, (state.producers index).pc.Signals

/-- The whole list of producers is asked for everything. -/
theorem firstTotal_all (counts : Fin threads → Count) :
    firstTotal counts threads = total counts := by
  rw [firstTotal, Finset.sum_range]
  simp [total]

/-- One more producer is asked for its units. -/
theorem firstTotal_succ (counts : Fin threads → Count) {j : Nat} (there : j < threads) :
    firstTotal counts (j + 1) = firstTotal counts j + (counts ⟨j, there⟩).val := by
  rw [firstTotal, Finset.sum_range_succ, dif_pos there]
  rfl

/-- The first producers are asked for no more than all of them. -/
theorem firstTotal_le (counts : Fin threads → Count) {j : Nat} (within : j ≤ threads) :
    firstTotal counts j ≤ total counts := by
  rw [← firstTotal_all]
  exact Finset.sum_le_sum_of_subset (Finset.range_mono within)

/-- Beyond the list nobody is asked for anything. -/
theorem firstTotal_of_beyond (counts : Fin threads → Count) {j : Nat} (beyond : threads ≤ j) :
    firstTotal counts j = total counts := by
  -- By induction from the number of threads on; beyond it nothing is added.
  induction j, beyond using Nat.le_induction with
  | base => exact firstTotal_all counts
  | succ j beyond ih =>
    rw [firstTotal, Finset.sum_range_succ, dif_neg (Nat.not_lt.mpr beyond)]
    exact ih

/-- A producer within its bounds has made no more units available than it is asked for. -/
theorem Producer.Within.units_le {producer : Producer} {count : Nat}
    (within : producer.Within count) : producer.units ≤ count := by
  obtain ⟨pc, j⟩ := producer
  cases pc <;> simp only [Producer.Within, Producer.units] at within ⊢ <;> omega

/-- Nothing has happened at the start. -/
theorem invariant_initial : Invariant counts (initial threads) where
  -- No thread exists, and nothing was produced or consumed.
  guards := by
    intro thread
    cases thread with
    | main => exact ⟨False.elim, nofun⟩
    | member index => exact ⟨False.elim, nofun⟩
  uncreated := fun _ _ _ _ => rfl
  within := fun _ => trivial
  balance := by simp [State.produced, tally, initial, Producer.units]
  avail := le_refl 0
  consumed := le_refl 0
  asked := rfl
  done := nofun
  exited := nofun
  attended := nofun

/-- No more units are produced than all producers are asked for. -/
theorem State.produced_le (within : ∀ index, (state.producers index).Within (counts index).val) :
    state.produced ≤ total counts := by
  unfold State.produced total tally
  exact Finset.sum_le_sum fun index _ => (within index).units_le

/-- A producer that moves is counted at its new place. -/
theorem State.produced_producerAt (state : State threads) (index : Fin threads)
    (producer : Producer) :
    (state.producerAt index producer).produced + (state.producers index).units =
      state.produced + producer.units :=
  tally_update Producer.units state.producers index producer

/-- Creating a producer keeps the invariant. -/
theorem Invariant.create (invariant : Invariant counts state) (fits : total counts < 2 ^ 31)
    {j : Nat} (at_ : state.main = .create j) (there : j < threads) :
    Invariant counts { state.producerAt ⟨j, there⟩ ⟨.loop, 0⟩ with
      main := .create (j + 1)
      totRequired := int (state.totRequired + (counts ⟨j, there⟩).val) } := by
  have fresh := invariant.uncreated j at_ ⟨j, there⟩ (le_refl j)
  have asked := invariant.asked
  rw [at_] at asked
  have most := firstTotal_le counts (Nat.succ_le_of_lt there)
  rw [firstTotal_succ counts there] at most
  exact { invariant with
    guards := by
      have outside : Producer.Inside ⟨.loop, 0⟩ ↔ (state.producers ⟨j, there⟩).Inside := by
        rw [Producer.Inside, Producer.Inside, fresh]
      exact (invariant.guards.keep_member outside).keep_main (by rw [at_]; exact Iff.rfl)
    uncreated := by
      intro later same index above
      obtain rfl := MainPc.create.inj same
      have mine : index ≠ ⟨j, there⟩ := by
        rintro rfl
        exact Nat.not_succ_le_self j above
      simp only [State.producerAt, Function.update_of_ne mine]
      exact invariant.uncreated j at_ index (by omega)
    within := (Function.forall_update_iff state.producers
      fun index producer => producer.Within (counts index).val).mpr
        ⟨Nat.zero_le _, fun index _ => invariant.within index⟩
    balance := by
      -- A new producer has produced nothing.
      have moved := state.produced_producerAt ⟨j, there⟩ ⟨.loop, 0⟩
      have nothing : (state.producers ⟨j, there⟩).units = 0 := by rw [Producer.units, fresh]
      have none_ : Producer.units ⟨.loop, 0⟩ = 0 := rfl
      have balance := invariant.balance
      have same : (state.producerAt ⟨j, there⟩ ⟨.loop, 0⟩).produced = state.produced := by omega
      exact (congrArg Nat.cast same).trans balance
    asked := by
      -- The sum is below that of all producers, so it does not overflow.
      simp only [asked, MainPc.asked, firstTotal_succ counts there]
      rw [int_of_fits]
      · push_cast
        rfl
      · omega
      · omega
    exited := nofun
    attended := nofun }

/-- What must be true for `main` to come to this place by a step that changes nothing else. -/
def MainPc.Asks (state : State threads) : MainPc → Prop
  | .create _ => False
  | .asleep => 0 < state.avail → ∃ index, (state.producers index).pc.Signals
  | .exited => state.done = true
  | .lock | .test | .relock | .consume | .unlock | .checkDone => True

/-- Once all producers have been asked, `main` moves and keeps the invariant. -/
theorem Invariant.mainAt (invariant : Invariant counts state) {main : MainPc}
    {mtx : Option (Party (Fin threads))} (asked : state.totRequired = total counts)
    (asks : main.Asks state)
    (guards : Guards mtx (Party.Inside main.Inside fun index => (state.producers index).Inside)) :
    Invariant counts { state with main, mtx } := by
  exact { invariant with
    guards := guards
    uncreated := by
      rintro j rfl
      exact asks.elim
    -- main is past the creation of the threads, so their total is known.
    asked := by
      cases main with
      | create j => exact asks.elim
      | lock | test | asleep | relock | consume | unlock | checkDone | exited => exact asked
    exited := by
      rintro rfl
      exact asks
    attended := by
      rintro rfl
      exact asks }

/-- Consuming a unit keeps the invariant. -/
theorem Invariant.consume (invariant : Invariant counts state) (fits : total counts < 2 ^ 31)
    (at_ : state.main = .consume) (some_ : 0 < state.avail) :
    Invariant counts { state with
      numConsumed := int (state.numConsumed + 1)
      avail := int (state.avail - 1)
      done := state.totRequired ≤ int (state.numConsumed + 1) } := by
  have produced := State.produced_le invariant.within
  have balance := invariant.balance
  have consumed := invariant.consumed
  have asked := invariant.asked
  rw [at_] at asked
  -- The unit that is consumed has been produced, so no number overflows.
  have more : int (state.numConsumed + 1) = state.numConsumed + 1 :=
    int_of_fits (by omega) (by omega)
  have less : int (state.avail - 1) = state.avail - 1 := int_of_fits (by omega) (by omega)
  exact { invariant with
    balance := by
      show (state.produced : Int) = int (state.avail - 1) + int (state.numConsumed + 1)
      rw [more, less]
      omega
    avail := by
      show 0 ≤ int (state.avail - 1)
      omega
    consumed := by
      show 0 ≤ int (state.numConsumed + 1)
      omega
    -- The comparison is with what all producers are asked for.
    done := by
      intro enough
      have reached : state.totRequired ≤ int (state.numConsumed + 1) := of_decide_eq_true enough
      rw [asked] at reached
      exact reached
    exited := fun exited => nomatch at_.symm.trans exited
    attended := fun asleep => nomatch at_.symm.trans asleep }

/-- Every step of `main` keeps the invariant. -/
theorem Invariant.mainStep (invariant : Invariant counts state)
    (fits : total counts < 2 ^ 31)
    (stepped : ProdCondvar.mainStep counts state = some next) : Invariant counts next := by
  have guards := invariant.guards
  have asked := invariant.asked
  unfold ProdCondvar.mainStep at stepped
  cases at_ : state.main with
  | create j =>
    rw [at_] at asked
    simp only [at_] at stepped
    split at stepped
    next there =>
      obtain rfl := Option.some.inj stepped
      exact invariant.create fits at_ there
    -- All producers have been created, and all counts have been added up.
    next beyond =>
      obtain rfl := Option.some.inj stepped
      rw [MainPc.asked, firstTotal_of_beyond counts (Nat.not_lt.mp beyond)] at asked
      exact invariant.mainAt asked trivial (guards.keep_main (by rw [at_]; exact Iff.rfl))
  -- Whether from the start or from the sleep, `main` goes on when the mutex is free.
  | lock | relock =>
    rw [at_] at asked
    simp only [at_] at stepped
    split at stepped
    next free =>
      obtain rfl := Option.some.inj stepped
      rw [free] at guards
      exact invariant.mainAt asked trivial (guards.lock_main trivial)
    · exact nomatch stepped
  | test =>
    rw [at_] at asked
    simp only [at_] at stepped
    split at stepped
    next empty =>
      -- `main` goes to sleep beside no unit.
      obtain rfl := Option.some.inj stepped
      exact invariant.mainAt asked (fun some_ => absurd empty some_.ne')
        (guards.unlock_main (by rw [at_]; trivial) id)
    · obtain rfl := Option.some.inj stepped
      exact invariant.mainAt asked trivial (guards.keep_main (by rw [at_]; exact Iff.rfl))
  | asleep => simp only [at_, reduceCtorEq] at stepped
  | consume =>
    rw [at_] at asked
    simp only [at_] at stepped
    split at stepped
    next some_ =>
      obtain rfl := Option.some.inj stepped
      have consumed := invariant.consume fits at_ some_
      rw [at_] at consumed
      exact consumed
    -- Nothing is left to be consumed.
    · obtain rfl := Option.some.inj stepped
      exact invariant.mainAt asked trivial (guards.keep_main (by rw [at_]; exact Iff.rfl))
  | unlock =>
    rw [at_] at asked
    simp only [at_] at stepped
    obtain rfl := Option.some.inj stepped
    exact invariant.mainAt asked trivial (guards.unlock_main (by rw [at_]; trivial) id)
  | checkDone =>
    rw [at_] at asked
    simp only [at_] at stepped
    obtain rfl := Option.some.inj stepped
    -- The loop ends when the flag is set, and goes on otherwise.
    by_cases finished : state.done = true
    · rw [if_pos finished]
      exact invariant.mainAt asked finished (guards.keep_main (by rw [at_]; exact Iff.rfl))
    · rw [if_neg finished]
      exact invariant.mainAt asked trivial (guards.keep_main (by rw [at_]; exact Iff.rfl))
  | exited => simp only [at_, reduceCtorEq] at stepped

/-- A producer that moves within its bounds keeps all producers within theirs. -/
theorem Invariant.within_producerAt (invariant : Invariant counts state) {index : Fin threads}
    {producer : Producer} (within : producer.Within (counts index).val) :
    ∀ other, ((state.producerAt index producer).producers other).Within (counts other).val :=
  -- The producer at the index produces what it is to, and so do the others.
  (Function.forall_update_iff state.producers
    fun other producer => producer.Within (counts other).val).mpr
      ⟨within, fun other _ => invariant.within other⟩

/-- A producer that moves keeps the invariant, if it takes along what it has made available. -/
theorem Invariant.producerAt (invariant : Invariant counts state) {index : Fin threads}
    {producer : Producer} {mtx : Option (Party (Fin threads))} {avail : Int}
    (created : (state.producers index).pc ≠ .notCreated)
    (within : producer.Within (counts index).val)
    (guards : Guards mtx (Party.Inside state.main.Inside fun other =>
      ((state.producerAt index producer).producers other).Inside))
    (counted : avail + (state.producers index).units = state.avail + producer.units)
    (available : 0 ≤ avail)
    (attended : state.main = .asleep → 0 < avail →
      ∃ other, ((state.producerAt index producer).producers other).pc.Signals) :
    Invariant counts { state.producerAt index producer with mtx, avail } := by
  exact { invariant with
    guards := guards
    uncreated := by
      intro j at_ other above
      have mine : other ≠ index := by
        rintro rfl
        exact created (invariant.uncreated j at_ other above)
      simp only [State.producerAt, Function.update_of_ne mine]
      exact invariant.uncreated j at_ other above
    within := invariant.within_producerAt within
    balance := by
      -- What is new in the producer is new in `avail`.
      have moved := state.produced_producerAt index producer
      have balance := invariant.balance
      show ((state.producerAt index producer).produced : Int) = avail + state.numConsumed
      omega
    avail := available
    attended := attended }

/-- Nobody is asleep who has been woken. -/
theorem wake_ne_asleep (main : MainPc) : wake main ≠ .asleep := by
  unfold wake
  -- main is woken, or it did not sleep.
  split
  · exact nofun
  next awake => exact awake

/-- Waking `main` keeps the invariant. -/
theorem Invariant.wakes (invariant : Invariant counts state) :
    Invariant counts { state with main := wake state.main } := by
  by_cases asleep : state.main = .asleep
  · have woken : wake state.main = .relock := if_pos asleep
    have asked := invariant.asked
    rw [asleep] at asked
    rw [woken]
    exact invariant.mainAt asked trivial
      (invariant.guards.keep_main (by rw [asleep]; exact Iff.rfl))
  -- Whoever is awake does not notice.
  · have same : wake state.main = state.main := if_neg asleep
    rw [same]
    exact invariant

/-- Every step of a producer keeps the invariant. -/
theorem Invariant.producerStep (invariant : Invariant counts state)
    (fits : total counts < 2 ^ 31) {index : Fin threads}
    (stepped : ProdCondvar.producerStep counts state index = some next) :
    Invariant counts next := by
  have within := invariant.within index
  have guards := invariant.guards
  have attended := invariant.attended
  -- Whoever was going to wake `main` still is, unless it is this producer.
  have still : ∀ producer : Producer, ¬ (state.producers index).pc.Signals →
      state.main = .asleep → 0 < state.avail →
        ∃ other, ((state.producerAt index producer).producers other).pc.Signals := by
    intro producer idle asleep some_
    obtain ⟨other, signals⟩ := attended asleep some_
    have mine : other ≠ index := fun same => idle (same ▸ signals)
    exact (Function.exists_update_iff state.producers fun _ producer => producer.pc.Signals).mpr
      (.inr ⟨other, mine, signals⟩)
  -- Now it is this producer that is going to wake `main`.
  have signalling : ∀ producer : Producer, producer.pc.Signals →
      ∃ other, ((state.producerAt index producer).producers other).pc.Signals := by
    intro producer signals
    apply (Function.exists_update_iff state.producers fun _ producer => producer.pc.Signals).mpr
    exact .inl signals
  unfold ProdCondvar.producerStep at stepped
  split at stepped
  · exact nomatch stepped
  cases at_ : state.producers index with
  | mk pc j =>
    rw [at_] at within still
    have inside : (state.producers index).Inside ↔ Producer.Inside ⟨pc, j⟩ := by rw [at_]
    have created : pc ≠ .notCreated → (state.producers index).pc ≠ .notCreated := by
      rw [at_]
      exact id
    simp only [at_] at stepped
    cases pc with
    | notCreated => simp only [reduceCtorEq] at stepped
    -- The loop makes nothing available.
    | loop =>
      simp only at stepped
      split at stepped
      next more =>
        obtain rfl := Option.some.inj stepped
        exact invariant.producerAt (created nofun) more (guards.keep_member inside.symm)
          (by rw [at_]; rfl) invariant.avail (still _ id)
      · obtain rfl := Option.some.inj stepped
        exact invariant.producerAt (created nofun) within (guards.keep_member inside.symm)
          (by rw [at_]; rfl) invariant.avail (still _ id)
    | lock =>
      simp only at stepped
      split at stepped
      next free =>
        obtain rfl := Option.some.inj stepped
        rw [free] at guards
        exact invariant.producerAt (created nofun) within (guards.lock_member trivial)
          (by rw [at_]; rfl) invariant.avail (still _ id)
      · exact nomatch stepped
    | increment =>
      simp only at stepped
      obtain rfl := Option.some.inj stepped
      -- The new unit is one that the producer is asked for, so the number does not overflow.
      have avail := invariant.avail
      have consumed := invariant.consumed
      have balance := invariant.balance
      have moved := state.produced_producerAt index ⟨.unlock, j⟩
      rw [at_] at moved
      have units : Producer.units ⟨.unlock, j⟩ = Producer.units ⟨.increment, j⟩ + 1 := rfl
      have next_ : Producer.Within (counts index).val ⟨.unlock, j⟩ := within
      have room := State.produced_le (invariant.within_producerAt next_)
      have more : int (state.avail + 1) = state.avail + 1 := int_of_fits (by omega) (by omega)
      rw [more]
      refine invariant.producerAt (created nofun) within (guards.keep_member inside.symm) ?_
        (by omega) fun _ _ => signalling _ trivial
      rw [at_]
      simp only [Producer.units]
      omega
    -- Between the unlocking and the signal, it is this producer that has yet to signal.
    | unlock =>
      simp only at stepped
      obtain rfl := Option.some.inj stepped
      exact invariant.producerAt (created nofun) within
        (guards.unlock_member (inside.mpr trivial) id) (by rw [at_]; rfl) invariant.avail
        fun _ _ => signalling _ trivial
    | signal =>
      simp only at stepped
      obtain rfl := Option.some.inj stepped
      -- Once it has been woken, `main` needs nobody to wake it.
      have awake := wake_ne_asleep state.main
      exact invariant.wakes.producerAt (created nofun) within
        (invariant.wakes.guards.keep_member inside.symm) (by rw [at_]; rfl)
        invariant.avail fun asleep => absurd asleep awake
    | returned => simp only [reduceCtorEq] at stepped

/-- Every step keeps the invariant. -/
theorem Invariant.step (invariant : Invariant counts state) (fits : total counts < 2 ^ 31)
    {action : Action threads} (stepped : (prodCondvar counts).step state action = some next) :
    Invariant counts next := by
  cases action with
  | main => exact invariant.mainStep fits stepped
  | producer index => exact invariant.producerStep fits stepped
  | spurious =>
    simp only [prodCondvar] at stepped
    split at stepped
    next asleep =>
      -- Waking up without a signal is waking up.
      obtain rfl := Option.some.inj stepped
      have woken := invariant.wakes
      rw [show wake state.main = .relock from if_pos asleep] at woken
      exact woken
    · exact nomatch stepped

/-- What is promised of the units and of the wake-ups. -/
structure Correct (counts : Fin threads → Count) (state : State threads) : Prop where
  /-- While the mutex is free, every unit that has been produced is available or consumed. -/
  balance : state.mtx = none → (state.produced : Int) = state.avail + state.numConsumed
  /-- While `main` is asleep beside a unit, some producer has yet to signal. -/
  attended : state.main = .asleep → 0 < state.avail →
    ∃ index, (state.producers index).pc.Signals
  /-- When `main` has left its loop, everything has been consumed. -/
  complete : state.main = .exited → state.numConsumed = total counts

/-- The invariant keeps the promise. -/
theorem Invariant.correct (invariant : Invariant counts state) : Correct counts state where
  balance := fun _ => invariant.balance
  attended := invariant.attended
  complete := by
    intro exited
    -- Everything is consumed, and no more than that can be.
    have enough := invariant.done (invariant.exited exited)
    have most := State.produced_le invariant.within
    have balance := invariant.balance
    have avail := invariant.avail
    omega

/-- If the units fit an `int`, none of them and no wake-up is lost, and `main` consumes them all. -/
theorem prodCondvar_correct (counts : Fin threads → Count) (fits : total counts < 2 ^ 31)
    (actions : List (Action threads)) (state : State threads)
    (ran : (prodCondvar counts).run (initial threads) actions = some state) :
    Correct counts state := by
  -- The invariant holds along the run, as the total fits in an int.
  have preserved : ∀ state action next, Invariant counts state →
      (prodCondvar counts).step state action = some next → Invariant counts next :=
    fun _ _ _ before stepped => before.step fits stepped
  exact (Machine.run_invariant preserved invariant_initial ran).correct

/-- The first of two producers is asked for two units, the second one for one. -/
def threeCounts (index : Fin 2) : Count :=
  if index = 0 then ⟨2, by decide⟩ else ⟨1, by decide⟩

/--
Three units from two producers: `main` wakes up by itself before the first one is there, and is
signalled after the others.
-/
def threeUnits : List (Action 2) :=
  [.main, .main, .main, .producer 0, .main, .main, .spurious, .producer 0, .producer 1, .producer 0,
    .producer 0, .main, .producer 0, .main, .main, .main, .main, .main, .main, .main, .producer 1,
    .producer 1, .producer 0, .producer 1, .producer 0, .producer 0, .producer 0, .producer 1,
    .main, .main, .producer 0, .main, .main, .main, .main, .main]

/-- All three units are consumed, and `main` leaves. -/
theorem prodCondvar_correct_threeUnits :
    ∃ state, (prodCondvar threeCounts).run (initial 2) threeUnits = some state ∧
      (state.main, state.numConsumed) = (.exited, 3) ∧ Correct threeCounts state := by
  -- Two producers make three units, and main consumes all of them.
  have shown : ((prodCondvar threeCounts).run (initial 2) threeUnits).map
      (fun state => (state.main, state.numConsumed)) = some (.exited, 3) := by decide +kernel
  obtain ⟨state, ran, consumed⟩ := Option.map_eq_some_iff.mp shown
  exact ⟨state, ran, consumed, prodCondvar_correct _ (by decide) threeUnits state ran⟩

/-- Two producers, which together are asked for one unit more than an `int` can tell. -/
def twoCounts (index : Fin 2) : Count :=
  if index = 0 then ⟨2 ^ 31 - 1, by decide⟩ else ⟨1, by decide⟩

/-- The first of two producers has produced one unit, which `main` has consumed. -/
def firstUnit : List (Action 2) :=
  [.main, .main, .main, .producer 0, .producer 0, .producer 0, .producer 0, .producer 0,
    .main, .main, .main, .main, .main, .main]

/-- The sum of what is asked for overflows, and `main` leaves after the first unit. -/
theorem prodCondvar_leaves_early :
    ¬ ∀ actions state, (prodCondvar twoCounts).run (initial 2) actions = some state →
      Correct twoCounts state := by
  intro correct
  -- The total overflows to a negative number, so main is done after the first unit.
  have shown : ((prodCondvar twoCounts).run (initial 2) firstUnit).map
      (fun state => (state.main, state.numConsumed)) = some (.exited, 1) := by decide +kernel
  obtain ⟨state, ran, consumed⟩ := Option.map_eq_some_iff.mp shown
  obtain ⟨exited, one⟩ := Prod.mk.inj consumed
  have complete := (correct firstUnit state ran).complete exited
  rw [one] at complete
  exact absurd complete (by decide +kernel)

end SysProg.Threads.ProdCondvar
