import SysProg.Threads.BarrierDemo

/-! No thread passes the barrier before all of them have come, and all threads return. -/

namespace SysProg.Threads.BarrierDemo

variable {threads numBarriers round : Nat} {serial : Nat → Fin threads}
  {state next : State threads} {thread chosen other : Fin threads} {pc : ThreadPc}

section Places

/-- How often the thread has said that it is about to wait. -/
def ThreadPc.announced (numBarriers : Nat) : ThreadPc → Nat
  | .notCreated | .started => 0
  | .test j | .aboutToWait j => j
  | .wait j | .asleep j | .passed j _ | .newline j => j + 1
  | .terminating | .returned => numBarriers

/-- How often the thread has said that it has passed the barrier. -/
def ThreadPc.through (numBarriers : Nat) : ThreadPc → Nat
  | .notCreated | .started => 0
  | .test j | .aboutToWait j | .wait j | .asleep j | .passed j _ => j
  | .newline j => j + 1
  | .terminating | .returned => numBarriers

/-- The thread waits at the barrier. -/
def ThreadPc.waits : ThreadPc → Nat
  | .asleep _ => 1
  | _ => 0

/-- Where a thread can be when the barrier has opened so often. -/
def ThreadPc.Fits (numBarriers round : Nat) (serial : Nat → Fin threads) (thread : Fin threads) :
    ThreadPc → Prop
  | .notCreated | .started => round = 0
  | .test j => j = round ∧ j ≤ numBarriers
  | .aboutToWait j | .wait j | .asleep j => j = round ∧ j < numBarriers
  | .passed j told => j + 1 = round ∧ j < numBarriers ∧ told = decide (thread = serial j)
  | .newline j => j + 1 = round ∧ j < numBarriers
  | .terminating | .returned => round = numBarriers

/-- No thread has come to the barrier less often than it has opened. -/
theorem ThreadPc.Fits.announced (fits : pc.Fits numBarriers round serial thread) :
    round ≤ pc.announced numBarriers := by
  cases pc <;> simp only [ThreadPc.Fits, ThreadPc.announced] at fits ⊢ <;> omega

/-- And none has passed it more often. -/
theorem ThreadPc.Fits.through (fits : pc.Fits numBarriers round serial thread) :
    pc.through numBarriers ≤ round := by
  cases pc <;> simp only [ThreadPc.Fits, ThreadPc.through] at fits ⊢ <;> omega

theorem ThreadPc.Fits.le (fits : pc.Fits numBarriers round serial thread) :
    round ≤ numBarriers := by
  cases pc <;> simp only [ThreadPc.Fits] at fits <;> omega

end Places

/-- What is true in every state, when the barrier has opened so often. -/
structure Invariant (numBarriers round : Nat) (serial : Nat → Fin threads)
    (state : State threads) : Prop where
  fits : ∀ thread, (state.pcs thread).Fits numBarriers round serial thread
  waiting : state.waiting = tally ThreadPc.waits state.pcs
  few : state.waiting < threads
  announced : ∀ thread j, state.output.count (.aboutToWait thread j) =
    if j < (state.pcs thread).announced numBarriers then 1 else 0
  through : ∀ thread j told, state.output.count (.passed thread j told) =
    if j < (state.pcs thread).through numBarriers ∧ told = decide (thread = serial j) then 1 else 0
  /-- Whoever passes the barrier does so after all threads have come. -/
  together : ∀ front back thread j told, state.output = front ++ .passed thread j told :: back →
    ∀ other, .aboutToWait other j ∈ front
  created : ∀ thread, state.pcs thread = .notCreated ↔
    state.main = .init ∨ ∃ threadNum ≤ thread.val, state.main = .create threadNum
  joined : ∀ threadNum, state.main = .join threadNum →
    ∀ thread, thread.val < threadNum → state.pcs thread = .returned
  ended : state.main = .exited → ∀ thread, state.pcs thread = .returned
  valid : state.main ≠ .failed

/-- Before the barrier has been initialised, nobody waits and nothing has been printed. -/
theorem invariant_initial (some_ : 0 < threads) (serial : Nat → Fin threads) :
    Invariant numBarriers 0 serial (initial threads) where
  -- No thread exists, so nobody waits, and nothing has been printed.
  fits _ := rfl
  waiting := (tally_eq_zero_iff.mpr fun _ => rfl).symm
  few := some_
  announced _ _ := rfl
  through _ _ _ := rfl
  together front back thread j told whole := by simp [initial] at whole
  created thread := by simp [initial]
  joined := nofun
  ended := nofun
  valid := nofun

section Moves

/-- What a thread may print when it goes on by itself. -/
structure Speaks (numBarriers round : Nat) (serial : Nat → Fin threads) (state : State threads)
    (thread : Fin threads) (pc : ThreadPc) (line : Line threads) : Prop where
  mine : ∀ j, [line].count (.aboutToWait thread j) +
      (if j < (state.pcs thread).announced numBarriers then 1 else 0) =
    if j < pc.announced numBarriers then 1 else 0
  passes : ∀ j told, [line].count (.passed thread j told) +
      (if j < (state.pcs thread).through numBarriers ∧ told = decide (thread = serial j)
        then 1 else 0) =
    if j < pc.through numBarriers ∧ told = decide (thread = serial j) then 1 else 0
  others : ∀ other, other ≠ thread →
    (∀ j, line ≠ .aboutToWait other j) ∧ ∀ j told, line ≠ .passed other j told
  late : ∀ j told, line = .passed thread j told → j < round

/-- A thread that runs, and does not return to where it was not yet created. -/
structure Runs (state : State threads) (thread : Fin threads) (pc : ThreadPc) : Prop where
  created : state.pcs thread ≠ .notCreated ∧ pc ≠ .notCreated
  running : state.pcs thread ≠ .returned

/-- What holds of the thread that goes on, and of all others where they are, holds of each. -/
theorem forall_goto {holds : Fin threads → ThreadPc → Prop} (mine : holds thread pc)
    (others : ∀ other, other ≠ thread → holds other (state.pcs other)) (other : Fin threads) :
    holds other ((state.goto thread pc).pcs other) := by
  -- The thread that moves is where it goes, and every other one stays.
  show holds other (Function.update state.pcs thread pc other)
  by_cases same : other = thread
  · rw [same, Function.update_self]
    exact mine
  · rw [Function.update_of_ne same]
    exact others other same

/-- A thread goes on without a word, and may fall asleep. -/
theorem Invariant.goto {waiting : Nat} (invariant : Invariant numBarriers round serial state)
    (runs : Runs state thread pc) (fits : pc.Fits numBarriers round serial thread)
    (counted : waiting + (state.pcs thread).waits = state.waiting + pc.waits)
    (few : waiting < threads)
    (announced : (state.pcs thread).announced numBarriers = pc.announced numBarriers)
    (through : (state.pcs thread).through numBarriers = pc.through numBarriers) :
    Invariant numBarriers round serial { state.goto thread pc with waiting := waiting } where
  -- Only the place of this thread changes, so each clause is read at it and kept for the others.
  fits := forall_goto fits fun other _ => invariant.fits other
  waiting := by
    -- The sleepers are counted again with this thread at its new place.
    have total := tally_update ThreadPc.waits state.pcs thread pc
    have before := invariant.waiting
    show waiting = tally ThreadPc.waits (Function.update state.pcs thread pc)
    omega
  few := few
  announced := by
    refine @forall_goto _ state _ _ (fun other pc => ∀ j,
      state.output.count (.aboutToWait other j) =
        if j < pc.announced numBarriers then 1 else 0) (fun j => ?_)
      fun other _ => invariant.announced other
    rw [← announced]
    exact invariant.announced thread j
  through := by
    refine @forall_goto _ state _ _ (fun other pc => ∀ j told,
      state.output.count (.passed other j told) =
        if j < pc.through numBarriers ∧ told = decide (other = serial j) then 1 else 0)
      (fun j told => ?_) fun other _ => invariant.through other
    rw [← through]
    exact invariant.through thread j told
  together := invariant.together
  created := by
    refine @forall_goto _ state _ _ (fun other pc => pc = .notCreated ↔ state.main = .init ∨
      ∃ threadNum ≤ other.val, state.main = .create threadNum) ?_
      fun other _ => invariant.created other
    exact (iff_of_false runs.created.2 runs.created.1).trans (invariant.created thread)
  joined threadNum joins := by
    refine @forall_goto _ state _ _ (fun other pc => other.val < threadNum → pc = .returned)
      (fun before => ?_) fun other _ => invariant.joined threadNum joins other
    -- A thread that has been joined has returned, and a thread that has returned takes no step.
    exact absurd (invariant.joined threadNum joins thread before) runs.running
  ended ended := by
    refine @forall_goto _ state _ _ (fun _ pc => pc = .returned) ?_
      fun other _ => invariant.ended ended other
    exact absurd (invariant.ended ended thread) runs.running
  valid := invariant.valid

/-- All threads have come to a barrier that has opened. -/
theorem Invariant.announced_of_lt (invariant : Invariant numBarriers round serial state) {j : Nat}
    (before : j < round) (other : Fin threads) : .aboutToWait other j ∈ state.output := by
  -- A barrier that has opened was announced by every thread.
  have reached := (invariant.fits other).announced
  have count := invariant.announced other j
  rw [if_pos (before.trans_le reached)] at count
  exact List.count_pos_iff.mp (by omega)

/-- A thread prints something, and goes on. -/
theorem Invariant.speak {line : Line threads}
    (invariant : Invariant numBarriers round serial state) (runs : Runs state thread pc)
    (awake : (state.pcs thread).waits = 0 ∧ pc.waits = 0)
    (fits : pc.Fits numBarriers round serial thread)
    (speaks : Speaks numBarriers round serial state thread pc line) :
    Invariant numBarriers round serial ((state.print line).goto thread pc) where
  fits := forall_goto fits fun other _ => invariant.fits other
  waiting := by
    have total := tally_update ThreadPc.waits state.pcs thread pc
    rw [awake.1, awake.2] at total
    exact invariant.waiting.trans (Nat.add_right_cancel total).symm
  few := invariant.few
  announced := by
    refine @forall_goto _ (state.print line) _ _ (fun other pc => ∀ j,
      (state.output ++ [line]).count (.aboutToWait other j) =
        if j < pc.announced numBarriers then 1 else 0) (fun j => ?_) fun other different j => ?_
    · rw [List.count_append, invariant.announced, add_comm, speaks.mine]
    · rw [List.count_append, List.count_singleton, invariant.announced]
      simp [(speaks.others other different).1 j]
      rfl
  through := by
    refine @forall_goto _ (state.print line) _ _ (fun other pc => ∀ j told,
      (state.output ++ [line]).count (.passed other j told) =
        if j < pc.through numBarriers ∧ told = decide (other = serial j) then 1 else 0)
      (fun j told => ?_) fun other different j told => ?_
    · rw [List.count_append, invariant.through, add_comm, speaks.passes]
    · rw [List.count_append, List.count_singleton, invariant.through]
      simp [(speaks.others other different).2 j told]
      rfl
  together front back one j told whole other := by
    have whole_ : state.output ++ [line] = front ++ .passed one j told :: back := whole
    rcases List.eq_nil_or_concat' back with rfl | ⟨back_, last, rfl⟩
    · -- This is the line that has just been printed.
      obtain ⟨rfl, same⟩ := List.append_inj' whole_ rfl
      obtain rfl := List.singleton_inj.mp same
      by_cases mine : one = thread
      · subst mine
        exact invariant.announced_of_lt (speaks.late j told rfl) other
      · exact absurd rfl ((speaks.others one mine).2 j told)
    · have regrouped : front ++ .passed one j told :: (back_ ++ [last]) =
          (front ++ .passed one j told :: back_) ++ [last] := by simp
      have parts := List.append_inj' (whole_.trans regrouped) rfl
      exact invariant.together front back_ one j told parts.1 other
  created := by
    refine @forall_goto _ state _ _ (fun other pc => pc = .notCreated ↔ state.main = .init ∨
      ∃ threadNum ≤ other.val, state.main = .create threadNum) ?_
      fun other _ => invariant.created other
    exact (iff_of_false runs.created.2 runs.created.1).trans (invariant.created thread)
  joined threadNum joins := by
    refine @forall_goto _ state _ _ (fun other pc => other.val < threadNum → pc = .returned)
      (fun before => ?_) fun other _ => invariant.joined threadNum joins other
    exact absurd (invariant.joined threadNum joins thread before) runs.running
  ended ended := by
    refine @forall_goto _ state _ _ (fun _ pc => pc = .returned) ?_
      fun other _ => invariant.ended ended other
    exact absurd (invariant.ended ended thread) runs.running
  valid := invariant.valid

/-- Other lines say nothing about a barrier. -/
theorem Invariant.print {line : Line threads}
    (invariant : Invariant numBarriers round serial state)
    (announces : ∀ other j, line ≠ .aboutToWait other j)
    (passes : ∀ other j told, line ≠ .passed other j told) :
    Invariant numBarriers round serial (state.print line) where
  fits := invariant.fits
  waiting := invariant.waiting
  few := invariant.few
  announced other j := by
    have absent : [line].count (.aboutToWait other j) = 0 := by
      simp [announces]
    rw [State.print, List.count_append, invariant.announced, absent]
    rfl
  through other j told := by
    have absent : [line].count (.passed other j told) = 0 := by
      simp [passes]
    rw [State.print, List.count_append, invariant.through, absent]
    rfl
  -- A line that passes no barrier moves none of those that do.
  together front back one j told whole other := by
    have whole_ : state.output ++ [line] = front ++ .passed one j told :: back := whole
    rcases List.eq_nil_or_concat' back with rfl | ⟨back_, last, rfl⟩
    · have same := (List.append_inj' whole_ rfl).2
      exact absurd (List.singleton_inj.mp same) (passes one j told)
    · have regrouped : front ++ .passed one j told :: (back_ ++ [last]) =
          (front ++ .passed one j told :: back_) ++ [last] := by simp
      have parts := List.append_inj' (whole_.trans regrouped) rfl
      exact invariant.together front back_ one j told parts.1 other
  created := invariant.created
  joined := invariant.joined
  ended := invariant.ended
  valid := invariant.valid

end Moves

section Barrier

/-- A thread that comes to the barrier before the last of them falls asleep. -/
theorem Invariant.sleep {j : Nat} (invariant : Invariant numBarriers round serial state)
    (here : state.pcs thread = .wait j) (early : state.waiting + 1 ≠ threads) :
    Invariant numBarriers round serial
      { state.goto thread (.asleep j) with waiting := state.waiting + 1 } := by
  -- The thread waits at the barrier and is counted there; nothing is printed.
  have few := invariant.few
  have fits := invariant.fits thread
  rw [here] at fits
  apply invariant.goto
  · exact { created := by simp [here], running := by simp [here] }
  · exact fits
  · rw [here]
    rfl
  · omega
  · rw [here]
    rfl
  · rw [here]
    rfl

/-- When the last thread comes to the barrier, all others are asleep there. -/
theorem Invariant.all_asleep {j : Nat} (invariant : Invariant numBarriers round serial state)
    (here : state.pcs thread = .wait j) (last : state.waiting + 1 = threads)
    (different : other ≠ thread) : state.pcs other = .asleep j := by
  -- If the thread were asleep as well, then all of them would be.
  have total := tally_update ThreadPc.waits state.pcs thread (.asleep j)
  have awake : (state.pcs thread).waits = 0 := by
    rw [here]
    rfl
  have one : (ThreadPc.asleep j).waits = 1 := rfl
  have full : tally ThreadPc.waits (Function.update state.pcs thread (.asleep j)) =
      Fintype.card (Fin threads) := by
    have before := invariant.waiting
    rw [Fintype.card_fin]
    omega
  have atMost : ∀ other, ThreadPc.waits (Function.update state.pcs thread (.asleep j) other) ≤ 1 :=
    fun other => by
      cases Function.update state.pcs thread (.asleep j) other <;> simp [ThreadPc.waits]
  have asleep := eq_one_of_tally_eq_card atMost full other
  rw [Function.update_of_ne different] at asleep
  have mine := invariant.fits thread
  have fits := invariant.fits other
  rw [here] at mine
  cases place : state.pcs other with
  | asleep k =>
    rw [place] at fits
    rw [fits.1, mine.1]
  | notCreated | started | test | aboutToWait | wait | passed | newline | terminating | returned =>
    rw [place] at asleep
    cases asleep

/-- The state after the last of the threads has come to the barrier. -/
def State.opened (state : State threads) (j : Nat) (chosen : Fin threads) : State threads :=
  { state with
    waiting := 0
    pcs := fun other => .passed j (decide (other = chosen)) }

/-- The barrier opens: all threads have passed it, and the chosen one is told so. -/
theorem Invariant.barrierWait {j : Nat} (invariant : Invariant numBarriers round serial state)
    (here : state.pcs thread = .wait j) (last : state.waiting + 1 = threads) :
    state.barrierWait thread chosen j = state.opened j chosen := by
  -- All others sleep at this barrier, so all of them wake up.
  have pcs :
      Function.update (fun other => wake chosen other (state.pcs other)) thread
          (.passed j (decide (thread = chosen))) =
        fun other => .passed j (decide (other = chosen)) := by
    funext other
    by_cases same : other = thread
    · rw [same, Function.update_self]
    · rw [Function.update_of_ne same, invariant.all_asleep here last same]
      rfl
  rw [State.barrierWait, if_pos last, pcs, State.opened]

/-- And that is one barrier more. -/
theorem Invariant.opened {j : Nat} (invariant : Invariant numBarriers round serial state)
    (here : state.pcs thread = .wait j) (last : state.waiting + 1 = threads) :
    Invariant numBarriers (round + 1) (Function.update serial round chosen)
      (state.opened j chosen) := by
  have mine := invariant.fits thread
  rw [here] at mine
  obtain ⟨rfl, more⟩ := mine
  have came : ∀ other, state.pcs other = .wait j ∨ state.pcs other = .asleep j := by
    intro other
    by_cases same : other = thread
    · rw [same]
      exact Or.inl here
    · exact Or.inr (invariant.all_asleep here last same)
  have announced : ∀ other, (state.pcs other).announced numBarriers = j + 1 := by
    intro other
    rcases came other with place | place <;> rw [place] <;> rfl
  have through : ∀ other, (state.pcs other).through numBarriers = j := by
    intro other
    rcases came other with place | place <;> rw [place] <;> rfl
  have running : ∀ other, state.pcs other ≠ .notCreated ∧ state.pcs other ≠ .returned := by
    intro other
    rcases came other with place | place <;> simp [place]
  exact
    { fits := fun other => ⟨rfl, more, by rw [Function.update_self]⟩
      waiting := (tally_eq_zero_iff.mpr fun _ => rfl).symm
      few := by
        show 0 < threads
        omega
      announced := fun other k => by
        have count := invariant.announced other k
        rw [announced] at count
        exact count
      through := fun other k told => by
        have count := invariant.through other k told
        rw [through] at count
        refine count.trans ?_
        -- Only the barriers before this one have been passed, and for them nothing has changed.
        by_cases before : k < j
        · rw [Function.update_of_ne (Nat.ne_of_lt before)]
          rfl
        · rw [if_neg (fun both => before both.1)]
          exact (if_neg (fun both => before both.1)).symm
      together := invariant.together
      created := fun other =>
        (iff_of_false nofun (running other).1).trans (invariant.created other)
      joined := fun threadNum joins other before =>
        absurd (invariant.joined threadNum joins other before) (running other).2
      ended := fun ended other => absurd (invariant.ended ended other) (running other).2
      valid := invariant.valid }

end Barrier

section Main

/-- `main` goes on, while the threads stay where they are. -/
theorem Invariant.main {mainPc : MainPc} (invariant : Invariant numBarriers round serial state)
    (created : ∀ thread, state.pcs thread = .notCreated ↔
      mainPc = .init ∨ ∃ threadNum ≤ thread.val, mainPc = .create threadNum)
    (joined : ∀ threadNum, mainPc = .join threadNum →
      ∀ thread, thread.val < threadNum → state.pcs thread = .returned)
    (ended : mainPc = .exited → ∀ thread, state.pcs thread = .returned)
    (valid : mainPc ≠ .failed) :
    Invariant numBarriers round serial { state with main := mainPc } where
  -- Only the place of main changes.
  fits := invariant.fits
  waiting := invariant.waiting
  few := invariant.few
  announced := invariant.announced
  through := invariant.through
  together := invariant.together
  created := created
  joined := joined
  ended := ended
  valid := valid

/-- A thread is created. -/
theorem Invariant.create {threadNum : Nat} (invariant : Invariant numBarriers round serial state)
    (here : state.main = .create threadNum) (there : threadNum < threads) :
    Invariant numBarriers round serial
      { state.goto ⟨threadNum, there⟩ .started with main := .create (threadNum + 1) } := by
  -- The thread did not exist before main created it.
  have place : state.pcs ⟨threadNum, there⟩ = .notCreated :=
    (invariant.created ⟨threadNum, there⟩).mpr (Or.inr ⟨threadNum, le_rfl, here⟩)
  have fits := invariant.fits ⟨threadNum, there⟩
  rw [place] at fits
  exact
    { fits := forall_goto fits fun other _ => invariant.fits other
      waiting := by
        have total := tally_update ThreadPc.waits state.pcs ⟨threadNum, there⟩ .started
        rw [place] at total
        exact invariant.waiting.trans total.symm
      few := invariant.few
      announced := by
        refine @forall_goto _ state _ _ (fun other pc => ∀ j,
          state.output.count (.aboutToWait other j) =
            if j < pc.announced numBarriers then 1 else 0) (fun j => ?_)
          fun other _ => invariant.announced other
        rw [invariant.announced, place]
        rfl
      through := by
        refine @forall_goto _ state _ _ (fun other pc => ∀ j told,
          state.output.count (.passed other j told) =
            if j < pc.through numBarriers ∧ told = decide (other = serial j) then 1 else 0)
          (fun j told => ?_) fun other _ => invariant.through other
        rw [invariant.through, place]
        rfl
      together := invariant.together
      created := by
        -- The threads not created are now those from the next number on.
        refine @forall_goto _ state _ _ (fun other pc => pc = .notCreated ↔
          MainPc.create (threadNum + 1) = .init ∨
            ∃ number ≤ other.val, MainPc.create (threadNum + 1) = .create number) ?_
          fun other different => (invariant.created other).trans ?_
        · simp
        · have apart : other.val ≠ threadNum := fun same => different (Fin.ext same)
          simp only [here, reduceCtorEq, MainPc.create.injEq, false_or, exists_eq_right']
          omega
      joined := nofun
      ended := nofun
      valid := nofun }

/-- Every step of `main` keeps the invariant. -/
theorem Invariant.main_step (invariant : Invariant numBarriers round serial state)
    (stepped : mainStep state = some next) : Invariant numBarriers round serial next := by
  -- The invariant itself says that there is a thread.
  have positive : threads ≠ 0 := by
    have few := invariant.few
    omega
  rw [mainStep] at stepped
  split at stepped
  case h_1 here =>
    -- pthread_barrier_init() fails only for a count of zero.
    rw [if_neg positive] at stepped
    obtain rfl := Option.some.inj stepped
    apply invariant.main
    · intro thread
      apply iff_of_true
      · exact (invariant.created thread).mpr (Or.inl here)
      · exact Or.inr ⟨0, Nat.zero_le _, rfl⟩
    · nofun
    · nofun
    · nofun
  case h_2 threadNum here =>
    split at stepped
    · obtain rfl := Option.some.inj stepped
      -- Another thread is created.
      exact invariant.create here ‹_›
    · obtain rfl := Option.some.inj stepped
      apply invariant.main
      · intro thread
        -- All threads have been created.
        have bound := thread.isLt
        rw [invariant.created thread]
        simp [here]
        omega
      · nofun
      · nofun
      · nofun
  case h_3 here =>
    obtain rfl := Option.some.inj stepped
    -- The newline after the creations is no line of a thread.
    have printed := @Invariant.print _ _ _ _ _ .newline invariant nofun nofun
    apply printed.main
    · intro thread
      show state.pcs thread = .notCreated ↔ _
      rw [invariant.created thread]
      simp [here]
    · intro threadNum same thread before
      obtain rfl := MainPc.join.inj same
      exact absurd before (Nat.not_lt_zero _)
    · nofun
    · nofun
  case h_4 threadNum here =>
    split at stepped
    case isTrue there =>
      split at stepped
      case isTrue returned =>
        obtain rfl := Option.some.inj stepped
        apply invariant.main
        · intro thread
          rw [invariant.created thread]
          simp [here]
        · intro number same thread before
          obtain rfl := MainPc.join.inj same
          -- The threads joined before, and the one that pthread_join() has just waited for.
          rcases Nat.lt_succ_iff_lt_or_eq.mp before with earlier | last
          · exact invariant.joined threadNum here thread earlier
          · rw [show thread = ⟨threadNum, there⟩ from Fin.ext last]
            exact returned
        · nofun
        · nofun
      case isFalse => cases stepped
    -- There is no thread left to be joined, so all have returned.
    case isFalse none_ =>
      obtain rfl := Option.some.inj stepped
      apply invariant.main
      · intro thread
        rw [invariant.created thread]
        simp [here]
      · nofun
      · intro _ thread
        apply invariant.joined threadNum here
        have bound := thread.isLt
        omega
      · nofun
  all_goals cases stepped

end Main

section Steps

/-- How many steps of its own a thread has left. -/
def ThreadPc.left (numBarriers : Nat) : ThreadPc → Nat
  | .notCreated | .started => 4 * numBarriers + 3
  | .test j => 4 * (numBarriers - j) + 2
  | .aboutToWait j => 4 * (numBarriers - j) + 1
  | .wait j | .passed j true => 4 * (numBarriers - j)
  | .asleep j | .passed j false | .newline j => 4 * (numBarriers - j) - 1
  | .terminating => 1
  | .returned => 0

/-- How many steps `main` has left. -/
def MainPc.left (threads : Nat) : MainPc → Nat
  | .init => 2 * threads + 4
  | .create threadNum => (threads - threadNum) + threads + 3
  | .newline => threads + 2
  | .join threadNum => (threads - threadNum) + 1
  | .exited | .failed => 0

/-- How many steps are left; for each barrier to come, one thread will print a newline. -/
def State.left (numBarriers round : Nat) (state : State threads) : Nat :=
  state.main.left threads + tally (ThreadPc.left numBarriers) state.pcs + (numBarriers - round)

/-- When a thread goes on, what is left changes by what it has left itself. -/
theorem left_goto (state : State threads) (thread : Fin threads) (pc : ThreadPc) :
    (state.goto thread pc).left numBarriers round + (state.pcs thread).left numBarriers =
      state.left numBarriers round + pc.left numBarriers := by
  -- Only the place of this thread is counted anew.
  have total := tally_update (ThreadPc.left numBarriers) state.pcs thread pc
  simp only [State.left, State.goto]
  omega

/-- Each step leads to a good state, and is one of those that were left. -/
def Good (numBarriers round : Nat) (state next : State threads) : Prop :=
  ∃ round_ serial_, Invariant numBarriers round_ serial_ next ∧
    next.left numBarriers round_ + 1 = state.left numBarriers round

/-- The line of a thread that is about to wait. -/
theorem speaks_aboutToWait {j : Nat} (here : state.pcs thread = .aboutToWait j) :
    Speaks numBarriers round serial state thread (.wait j) (.aboutToWait thread j) where
  -- The line that is added is the one of this barrier, which the thread had not announced before.
  mine k := by
    rw [here]
    simp only [List.count_singleton, ThreadPc.announced, beq_iff_eq, Line.aboutToWait.injEq,
      true_and]
    by_cases same : k = j
    · simp [same]
    · have split : k < j + 1 ↔ k < j := by omega
      simp [split, Ne.symm same]
      rfl
  passes k told := by
    rw [here]
    simp [ThreadPc.through]
    rfl
  -- Each line names the thread that prints it.
  others other different := by
    constructor
    · intro k same
      exact different (Line.aboutToWait.inj same).1.symm
    · nofun
  late := nofun

/-- The line of a thread that has passed the barrier. -/
theorem speaks_passed {j : Nat} {told : Bool} (here : state.pcs thread = .passed j told)
    (fits : (ThreadPc.passed j told).Fits numBarriers round serial thread) :
    Speaks numBarriers round serial state thread (if told then .newline j else .test (j + 1))
      (.passed thread j told) where
  mine k := by
    rw [here]
    cases told <;> simp [ThreadPc.announced]
  -- The line says what pthread_barrier_wait() has told this thread, once.
  passes k said := by
    rw [here]
    obtain ⟨_, _, chosen⟩ := fits
    have after : (if told then ThreadPc.newline j else .test (j + 1)).through numBarriers =
        j + 1 := by cases told <;> rfl
    rw [after]
    simp only [List.count_singleton, ThreadPc.through, beq_iff_eq, Line.passed.injEq, true_and]
    by_cases same : k = j
    · subst same
      rw [← chosen]
      by_cases agree : said = told
      · simp [agree]
      · simp [agree, Ne.symm agree]
    · have split : k < j + 1 ↔ k < j := by omega
      simp [split, Ne.symm same]
      rfl
  others other different := by
    constructor
    · nofun
    · intro k said same
      exact different (Line.passed.inj same).1.symm
  -- The barrier passed is one that has been opened.
  late k said same := by
    obtain ⟨_, rfl, _⟩ := Line.passed.inj same
    have next := fits.1
    omega

/-- A thread that stays awake goes on without a word. -/
theorem Invariant.goes (invariant : Invariant numBarriers round serial state)
    (runs : Runs state thread pc) (awake : (state.pcs thread).waits = 0 ∧ pc.waits = 0)
    (fits : pc.Fits numBarriers round serial thread)
    (announced : (state.pcs thread).announced numBarriers = pc.announced numBarriers)
    (through : (state.pcs thread).through numBarriers = pc.through numBarriers)
    (one : pc.left numBarriers + 1 = (state.pcs thread).left numBarriers) :
    Good numBarriers round state (state.goto thread pc) := by
  -- No thread falls asleep or wakes up, so the barrier counts as many as before.
  have moved : Invariant numBarriers round serial
      { state.goto thread pc with waiting := state.waiting } := by
    apply invariant.goto runs fits
    · rw [awake.1, awake.2]
    · exact invariant.few
    · exact announced
    · exact through
  -- One step less remains, that of this thread.
  have after := @left_goto _ numBarriers round state thread pc
  exact ⟨round, serial, moved, by omega⟩

/-- A thread prints a line about the barrier, and goes on. -/
theorem Invariant.spoke {line : Line threads}
    (invariant : Invariant numBarriers round serial state) (runs : Runs state thread pc)
    (awake : (state.pcs thread).waits = 0 ∧ pc.waits = 0)
    (fits : pc.Fits numBarriers round serial thread)
    (speaks : Speaks numBarriers round serial state thread pc line)
    (one : pc.left numBarriers + 1 = (state.pcs thread).left numBarriers) :
    Good numBarriers round state ((state.print line).goto thread pc) := by
  -- The line printed costs nothing of its own, so only the thread's step is counted.
  have after := @left_goto _ numBarriers round (state.print line) thread pc
  have same : (state.print line).left numBarriers round = state.left numBarriers round := rfl
  have place : (state.print line).pcs thread = state.pcs thread := rfl
  rw [same, place] at after
  exact ⟨round, serial, invariant.speak runs awake fits speaks, by omega⟩

/-- The last thread at the barrier wakes the others, and one of them will print a newline. -/
theorem Invariant.left_opened {j : Nat} (invariant : Invariant numBarriers round serial state)
    (here : state.pcs thread = .wait j) (last : state.waiting + 1 = threads) :
    (state.opened j chosen).left numBarriers (round + 1) + 1 = state.left numBarriers round := by
  have mine := invariant.fits thread
  rw [here] at mine
  obtain ⟨rfl, more⟩ := mine
  -- Before, all threads but this one sleep at the barrier.
  have before : tally (ThreadPc.left numBarriers) state.pcs =
      threads * (4 * (numBarriers - j) - 1) + 1 := by
    have all : Function.update state.pcs thread (.asleep j) = fun _ => .asleep j := by
      funext other
      by_cases same : other = thread
      · rw [same, Function.update_self]
      · rw [Function.update_of_ne same, invariant.all_asleep here last same]
    have total := tally_update (ThreadPc.left numBarriers) state.pcs thread (.asleep j)
    rw [all, here] at total
    simp only [tally, ThreadPc.left, Finset.sum_const, Finset.card_univ, Fintype.card_fin,
      smul_eq_mul] at total ⊢
    omega
  -- After, all threads have passed it, and the chosen one has a newline more to print.
  have after : tally (ThreadPc.left numBarriers) (state.opened j chosen).pcs =
      threads * (4 * (numBarriers - j) - 1) + 1 := by
    have each : ∀ other, ThreadPc.left numBarriers (.passed j (decide (other = chosen))) =
        (4 * (numBarriers - j) - 1) + if other = chosen then 1 else 0 := by
      intro other
      by_cases same : other = chosen
      · simp only [same, ThreadPc.left, decide_true, if_true]
        omega
      · simp [same, ThreadPc.left]
    simp only [tally, State.opened, each, Finset.sum_add_distrib, Finset.sum_const,
      Finset.card_univ, Fintype.card_fin, smul_eq_mul, Finset.sum_ite_eq', Finset.mem_univ, if_true]
  simp only [State.left, before, after]
  show state.main.left threads + _ + _ + 1 = _
  omega

/-- Every step of a thread keeps the invariant, after one more round if it opens the barrier. -/
theorem Invariant.thread_step (invariant : Invariant numBarriers round serial state)
    (stepped : threadStep numBarriers state thread chosen = some next) :
    Good numBarriers round state next := by
  have fits := invariant.fits thread
  rw [threadStep] at stepped
  -- One case for each place of a thread; the lines named below are those of threadFunc().
  split at stepped
  case h_1 here =>
    obtain rfl := Option.some.inj stepped
    rw [here] at fits
    have printed := @Invariant.print _ _ _ _ _ (.started thread) invariant nofun nofun
    apply printed.goes
    · exact ⟨by simp [State.print, here], by simp [State.print, here]⟩
    · simp [State.print, here, ThreadPc.waits]
    · exact ⟨fits.symm, Nat.zero_le _⟩
    · simp [State.print, here, ThreadPc.announced]
    · simp [State.print, here, ThreadPc.through]
    · simp [State.print, here, ThreadPc.left]
  case h_2 j here =>
    obtain rfl := Option.some.inj stepped
    rw [here] at fits
    obtain ⟨rfl, atMost⟩ := fits
    -- The loop is entered again, or it ends after numBarriers rounds.
    by_cases more : j < numBarriers
    · rw [if_pos more]
      apply invariant.goes
      · exact ⟨by simp [here], by simp [here]⟩
      · simp [here, ThreadPc.waits]
      · exact ⟨rfl, more⟩
      · simp [here, ThreadPc.announced]
      · simp [here, ThreadPc.through]
      · simp [here, ThreadPc.left]
    · have done : j = numBarriers := by omega
      rw [if_neg more]
      apply invariant.goes
      · exact ⟨by simp [here], by simp [here]⟩
      · simp [here, ThreadPc.waits]
      · exact done
      · simp [here, ThreadPc.announced, done]
      · simp [here, ThreadPc.through, done]
      · simp [here, ThreadPc.left, done]
  case h_3 j here =>
    obtain rfl := Option.some.inj stepped
    rw [here] at fits
    apply invariant.spoke _ _ _ (speaks_aboutToWait here)
    · simp [here, ThreadPc.left]
    · exact ⟨by simp [here], by simp [here]⟩
    · simp [here, ThreadPc.waits]
    · exact fits
  case h_4 j here =>
    obtain rfl := Option.some.inj stepped
    rw [here] at fits
    -- The last thread to arrive opens the barrier; any other one falls asleep.
    by_cases last : state.waiting + 1 = threads
    · rw [invariant.barrierWait here last]
      exact ⟨round + 1, _, invariant.opened here last, invariant.left_opened here last⟩
    · rw [State.barrierWait, if_neg last]
      refine ⟨round, serial, invariant.sleep here last, ?_⟩
      have after := @left_goto _ numBarriers round state thread (.asleep j)
      have same : State.left numBarriers round
          { state.goto thread (.asleep j) with waiting := state.waiting + 1 } =
        (state.goto thread (.asleep j)).left numBarriers round := rfl
      have more := fits.2
      rw [here] at after
      simp only [ThreadPc.left] at after
      omega
  case h_5 j told here =>
    obtain rfl := Option.some.inj stepped
    rw [here] at fits
    -- The chosen thread prints a newline before it goes on, and the others go on at once.
    have more := fits.2.1
    apply invariant.spoke _ _ _ (speaks_passed here fits)
    · cases told
      · simp only [here, ThreadPc.left, Bool.false_eq_true, if_false]
        omega
      · simp only [here, ThreadPc.left, if_true]
        omega
    · cases told <;> exact ⟨by simp [here], by simp [here]⟩
    · cases told <;> simp [here, ThreadPc.waits]
    · cases told
      · exact ⟨fits.1, more⟩
      · exact ⟨fits.1, more⟩
  case h_6 j here =>
    obtain rfl := Option.some.inj stepped
    rw [here] at fits
    have more := fits.2
    have printed := @Invariant.print _ _ _ _ _ .newline invariant nofun nofun
    apply printed.goes
    · exact ⟨by simp [State.print, here], by simp [State.print, here]⟩
    · simp [State.print, here, ThreadPc.waits]
    · exact ⟨fits.1, more⟩
    · simp [State.print, here, ThreadPc.announced]
    · simp [State.print, here, ThreadPc.through]
    · simp only [State.print, here, ThreadPc.left]
      omega
  case h_7 here =>
    obtain rfl := Option.some.inj stepped
    rw [here] at fits
    have printed := @Invariant.print _ _ _ _ _ (.terminating thread) invariant nofun nofun
    apply printed.goes
    · exact ⟨by simp [State.print, here], by simp [State.print, here]⟩
    · simp [State.print, here, ThreadPc.waits]
    · exact fits
    · simp [State.print, here, ThreadPc.announced]
    · simp [State.print, here, ThreadPc.through]
    · simp [State.print, here, ThreadPc.left]
  all_goals cases stepped

/-- Each step of `main` is one of those that were left. -/
theorem Invariant.left_mainStep (invariant : Invariant numBarriers round serial state)
    (stepped : mainStep state = some next) :
    next.left numBarriers round + 1 = state.left numBarriers round := by
  have positive : threads ≠ 0 := by
    have few := invariant.few
    omega
  -- What `main` has left goes down by one, and what the threads have left stays the same.
  rw [mainStep] at stepped
  split at stepped
  case h_1 here =>
    rw [if_neg positive] at stepped
    obtain rfl := Option.some.inj stepped
    simp only [State.left, here, MainPc.left]
    omega
  case h_2 threadNum here =>
    split at stepped
    case isTrue there =>
      -- A thread that has been created has all of its steps before it, as it had before.
      obtain rfl := Option.some.inj stepped
      have place : state.pcs ⟨threadNum, there⟩ = .notCreated :=
        (invariant.created ⟨threadNum, there⟩).mpr (Or.inr ⟨threadNum, le_rfl, here⟩)
      have same := tally_update (ThreadPc.left numBarriers) state.pcs ⟨threadNum, there⟩ .started
      rw [place] at same
      simp only [State.left, State.goto, here, MainPc.left, ThreadPc.left] at same ⊢
      omega
    case isFalse none_ =>
      obtain rfl := Option.some.inj stepped
      simp only [State.left, here, MainPc.left]
      omega
  case h_3 here =>
    obtain rfl := Option.some.inj stepped
    simp only [State.left, State.print, here, MainPc.left]
    omega
  case h_4 threadNum here =>
    split at stepped
    case isTrue there =>
      split at stepped
      case isTrue returned =>
        obtain rfl := Option.some.inj stepped
        simp only [State.left, here, MainPc.left]
        omega
      case isFalse => cases stepped
    case isFalse none_ =>
      obtain rfl := Option.some.inj stepped
      simp only [State.left, here, MainPc.left]
      omega
  all_goals cases stepped

end Steps

section Runs

/-- So many steps are taken in a whole run. -/
def total (threads numBarriers : Nat) : Nat :=
  threads * (4 * numBarriers + 3) + numBarriers + 2 * threads + 4

/-- The invariant holds, and the steps taken and those that are left make a whole run. -/
def Counted (numBarriers : Nat) (past : List (Action threads)) (state : State threads) : Prop :=
  ∃ round serial, Invariant numBarriers round serial state ∧
    state.left numBarriers round + past.length = total threads numBarriers

/-- At the beginning all steps are left. -/
theorem counted_initial (some_ : 0 < threads) : Counted numBarriers [] (initial threads) := by
  -- As much is left as the bound says, since nothing was done.
  refine ⟨0, fun _ => ⟨0, some_⟩, invariant_initial some_ _, ?_⟩
  simp only [State.left, initial, MainPc.left, tally, ThreadPc.left, Finset.sum_const,
    Finset.card_univ, Fintype.card_fin, smul_eq_mul, List.length_nil, total]
  omega

/-- Every step is counted, whoever takes it. -/
theorem Counted.step {past : List (Action threads)} {action : Action threads}
    (counted : Counted numBarriers past state)
    (stepped : (machine threads numBarriers).step state action = some next) :
    Counted numBarriers (past ++ [action]) next := by
  obtain ⟨round, serial, invariant, all⟩ := counted
  cases action with
  | main =>
    have one := invariant.left_mainStep stepped
    refine ⟨round, serial, invariant.main_step stepped, ?_⟩
    rw [List.length_append, List.length_singleton]
    omega
  | thread thread chosen =>
    -- A thread may open the barrier, so the round may be another one.
    obtain ⟨round_, serial_, kept, one⟩ := invariant.thread_step stepped
    refine ⟨round_, serial_, kept, ?_⟩
    rw [List.length_append, List.length_singleton]
    omega

/-- The invariant holds after every run. -/
theorem counted_of_run (some_ : 0 < threads) {actions : List (Action threads)}
    (ran : (machine threads numBarriers).run (initial threads) actions = some state) :
    Counted numBarriers actions state :=
  Machine.run_history (fun _ _ _ _ _ counted stepped => counted.step stepped)
    (counted_initial some_) ran

/-- Some thread that has been created is neither asleep nor at its end, unless all have returned. -/
theorem Invariant.exists_awake (invariant : Invariant numBarriers round serial state)
    (running : state.pcs thread ≠ .returned) :
    ∃ other, (state.pcs other).waits = 0 ∧ state.pcs other ≠ .returned := by
  by_contra none_
  -- Then all threads are asleep, since none can have returned while another one waits.
  have asleep : ∀ other, (state.pcs other).waits = 1 := by
    intro other
    by_contra awake
    have atMost : (state.pcs other).waits ≤ 1 := by
      cases state.pcs other <;> simp [ThreadPc.waits]
    have zero : (state.pcs other).waits = 0 := by omega
    have returned : state.pcs other = .returned := by
      by_contra different
      exact none_ ⟨other, zero, different⟩
    have round_ := invariant.fits other
    rw [returned] at round_
    have fits := invariant.fits thread
    cases place : state.pcs thread with
    | asleep j =>
      rw [place] at fits
      have early := fits.2
      have here := fits.1
      have all : round = numBarriers := round_
      omega
    | returned => exact running place
    | notCreated | started | test | aboutToWait | wait | passed | newline | terminating =>
      exact none_ ⟨thread, by rw [place]; rfl, running⟩
  have full := tally_eq_card asleep
  have waiting := invariant.waiting
  have few := invariant.few
  rw [Fintype.card_fin] at full
  omega

/-- Until the program has ended, it can go on. -/
theorem Invariant.progress (invariant : Invariant numBarriers round serial state) :
    state.main = .exited ∨
      ∃ action next, (machine threads numBarriers).step state action = some next := by
  cases here : state.main with
  | exited => exact Or.inl rfl
  | failed => exact absurd here invariant.valid
  | init =>
    exact Or.inr ⟨.main, Option.isSome_iff_exists.mp (by simp [machine, mainStep, here])⟩
  | create threadNum =>
    refine Or.inr ⟨.main, Option.isSome_iff_exists.mp ?_⟩
    simp only [machine, mainStep, here]
    split <;> rfl
  | newline =>
    exact Or.inr ⟨.main, Option.isSome_iff_exists.mp (by simp [machine, mainStep, here])⟩
  | join threadNum =>
    by_cases there : threadNum < threads
    · by_cases returned : state.pcs ⟨threadNum, there⟩ = .returned
      · refine Or.inr ⟨.main, Option.isSome_iff_exists.mp ?_⟩
        simp [machine, mainStep, here, there, returned]
      · -- `main` waits for this thread, and some thread that is awake goes on meanwhile.
        obtain ⟨other, awake, running⟩ := invariant.exists_awake returned
        have created : state.pcs other ≠ .notCreated := by
          intro absent
          have early := (invariant.created other).mp absent
          simp [here] at early
        refine Or.inr ⟨.thread other other, Option.isSome_iff_exists.mp ?_⟩
        show (threadStep numBarriers state other other).isSome = true
        rw [threadStep]
        cases place : state.pcs other with
        | notCreated => exact absurd place created
        | returned => exact absurd place running
        | asleep j =>
          rw [place] at awake
          cases awake
        | started | test | aboutToWait | wait | passed | newline | terminating => rfl
    · refine Or.inr ⟨.main, Option.isSome_iff_exists.mp ?_⟩
      simp [machine, mainStep, here, there]

/-- What is promised of the barrier, in a state reached by so many steps. -/
structure Synchronised (numBarriers : Nat) (state : State threads) (steps : Nat) : Prop where
  /-- Before one thread has passed a barrier, all of them have come to it. -/
  together : ∀ front back thread j told, state.output = front ++ .passed thread j told :: back →
    ∀ other, .aboutToWait other j ∈ front
  /-- Each thread passes a barrier once at most, and one of them is told to be the serial one. -/
  serial : ∃ serial : Nat → Fin threads, ∀ thread j told,
    state.output.count (.passed thread j told) ≤
      if j < numBarriers ∧ told = decide (thread = serial j) then 1 else 0
  /-- At the end each thread has passed each barrier. -/
  complete : state.main = .exited → ∃ serial : Nat → Fin threads, ∀ thread j told,
    state.output.count (.passed thread j told) =
      if j < numBarriers ∧ told = decide (thread = serial j) then 1 else 0
  /-- The program can go on until it has ended. -/
  progress : state.main = .exited ∨
    ∃ action next, (machine threads numBarriers).step state action = some next
  /-- It ends after the same number of steps, whatever their order is. -/
  length : steps ≤ total threads numBarriers ∧
    (state.main = .exited ↔ steps = total threads numBarriers)

/-- The threads pass every barrier together, and all of them get to the end. -/
theorem barrierDemo_synchronises (some_ : 0 < threads) {actions : List (Action threads)}
    (ran : (machine threads numBarriers).run (initial threads) actions = some state) :
    Synchronised numBarriers state actions.length := by
  obtain ⟨round, serial, invariant, counted⟩ := counted_of_run some_ ran
  refine
    { together := invariant.together
      serial := ⟨serial, fun thread j told => ?_⟩
      complete := fun exited => ⟨serial, fun thread j told => ?_⟩
      progress := invariant.progress
      length := ⟨by omega, ?_⟩ }
  · -- Nobody has passed more barriers than there are.
    have through := (invariant.fits thread).through
    have atMost := (invariant.fits thread).le
    rw [invariant.through]
    by_cases passed : j < (state.pcs thread).through numBarriers ∧ told = decide (thread = serial j)
    · rw [if_pos passed, if_pos ⟨by omega, passed.2⟩]
    · rw [if_neg passed]
      exact Nat.zero_le _
  · rw [invariant.through, invariant.ended exited thread]
    rfl
  · constructor
    · intro exited
      have returned := invariant.ended exited
      have none_ : tally (ThreadPc.left numBarriers) state.pcs = 0 :=
        tally_eq_zero_iff.mpr fun thread => by rw [returned thread]; rfl
      have last := invariant.fits ⟨0, some_⟩
      rw [returned] at last
      have all : round = numBarriers := last
      have nothing : state.left numBarriers round = 0 := by
        rw [State.left, exited, none_, all, Nat.sub_self]
        rfl
      omega
    · intro all
      have zero : state.main.left threads = 0 := by
        have nothing : state.left numBarriers round = 0 := by omega
        rw [State.left] at nothing
        omega
      cases here : state.main with
      | exited => rfl
      | failed => exact absurd here invariant.valid
      | init | create | newline | join =>
        rw [here] at zero
        simp only [MainPc.left] at zero
        omega

/-- Two threads, of which the second one comes to the only barrier first. -/
def twoThreads : List (Action 2) :=
  [.main, .main, .main, .main, .main, .thread 1 0, .thread 0 0, .thread 1 0, .thread 1 0,
    .thread 1 0, .thread 0 0, .thread 0 0, .thread 0 1, .thread 0 0, .thread 1 0]

/-- When the first one has come, too, both have passed it. -/
theorem barrierDemo_synchronises_two : ∃ state : State 2,
    (machine 2 1).run (initial 2) twoThreads = some state ∧
    state.output.drop 3 = [.aboutToWait 1 0, .aboutToWait 0 0, .passed 0 0 false,
      .passed 1 0 true] ∧ Synchronised 1 state 15 := by
  -- Thread 1 arrives first, and thread 0 opens the barrier for both.
  obtain ⟨state, ran, printed⟩ : ∃ state : State 2,
      (machine 2 1).run (initial 2) twoThreads = some state ∧
      state.output.drop 3 = [.aboutToWait 1 0, .aboutToWait 0 0, .passed 0 0 false,
        .passed 1 0 true] := ⟨_, rfl, rfl⟩
  exact ⟨state, ran, printed, barrierDemo_synchronises (by decide) ran⟩

end Runs

end SysProg.Threads.BarrierDemo
