import SysProg.Inotify.Accounting
import SysProg.Inotify.EventLoopLaws

/-! When the accounts of `processInotifyEvents` are right, and the reads stay inside the buffer. -/

namespace SysProg.Inotify

/-- What is promised of the accounts. -/
structure Accounted (state : CallState) : Prop where
  /-- No read has been asked for more bytes than are left in the buffer from its target on. -/
  requests : ∀ request ∈ state.requests, request.target + request.count ≤ inotifyReadBufLen
  /-- At the loop test, `numRead` is the number of valid bytes, which are in the buffer. -/
  numRead : state.stage = .loopTest → state.loop.numRead = state.valid.length
  holds : state.stage = .loopTest → state.loop.buf.Holds 0 state.valid
  inotifyReadCnt : intCount state.loop.program.inotifyReadCnt = state.dataReads

/-- The steps after which the accounts stay right. -/
def CallAdmitted (readBufferSize : Int) (state : CallState) : CallAction → Prop
  | .call _ result => readBufferSize ≤ inotifyReadBufLen ∧
      (result.hasData = true → state.dataReads + 1 < 2 ^ 31)
  | .secondaryRead result => result ≠ .eintr ∧
      (result.hasData = true → state.dataReads + 1 < 2 ^ 31)
  | _ => True

/-- A computation that satisfies a postcondition if the program does not exit. -/
def Leads {α : Type} (computation : Except Exit α) (post : α → Prop) : Prop :=
  ∀ result, computation = .ok result → post result

/-- One computation after the other. -/
theorem Leads.bind {α β : Type} {computation : Except Exit α} {next : α → Except Exit β}
    {middle : α → Prop} {post : β → Prop} (first : Leads computation middle)
    (second : ∀ result, middle result → Leads (next result) post) :
    Leads (computation >>= next) post := by
  -- After an exit nothing more is done.
  cases computation with
  | ok result => exact second result (first result rfl)
  | error exit => exact nofun

/-- What is safe satisfies its postcondition. -/
theorem Safe.leads {α : Type} {computation : Except Exit α} {strong weak : α → Prop}
    (safe : Safe computation strong) (weaker : ∀ result, strong result → weak result) :
    Leads computation weak := by
  -- What a safe computation returns is as promised.
  intro result done
  subst done
  exact weaker result safe

section Counter

variable {opts : Options} {world : World} {program : Program} {ev : InotifyEvent}
  {nextEv : Option InotifyEvent} {firstTry : Bool}

/-- The counter of the reads is left alone. -/
def SameCounter (program : Program) (outcome : Outcome) : Prop :=
  outcome.program.inotifyReadCnt = program.inotifyReadCnt

/-- The program does not go on without the pathname of a slot. -/
theorem leads_cachedPath_none {β : Type} (cache : Cache) (next : List UInt8 → Except Exit β)
    (post : β → Prop) : Leads (cachedPath cache none >>= next) post :=
  nofun

/-- Ending the handling of an event reads no more events. -/
theorem finish_sameCounter (handling : Handling) (evLen : Int) :
    Leads (finish opts world program handling evLen) (SameCounter program) := by
  -- The check counts nothing that is read.
  rw [finish]
  split
  · intro outcome done
    cases done
  · intro outcome done
    cases done
    rfl

/-- Building the cache anew reads no more events. -/
theorem reinitialize_sameCounter {next : Program → Except Exit Outcome}
    (rest : ∀ later : Program, Leads (next later) (SameCounter later)) :
    Leads (program.reinitialize world >>= next) (SameCounter program) := by
  -- Building the cache anew counts nothing, and neither does the rest.
  have again : Leads (program.reinitialize world) _ :=
    (reinitialize_safe program world).leads fun _ same => same
  exact again.bind fun later same outcome done => (rest later outcome done).trans same

/-- Discarding the remaining events reads no more events. -/
theorem rebuild_sameCounter (action : Action) :
    Leads (rebuild world program ev action) (SameCounter program) :=
  -- Building the cache anew is all that is done.
  reinitialize_sameCounter fun _ => by
    intro outcome done
    cases done
    rfl

/-- Handling an event whose slot was not looked up reads no more events. -/
theorem handleEvent_sameCounter_none :
    Leads (handleEvent opts world program ev none nextEv firstTry) (SameCounter program) := by
  -- Without a slot, the branches that need a pathname come to nothing.
  rw [handleEvent]
  split_ifs with create deleted moved overflow unmounted rootMoved
  · exact leads_cachedPath_none _ _ _
  · exact leads_cachedPath_none _ _ _
  · rw [handleMovedFrom.eq_def]
    split
    · split
      · refine ((findWatchChecked_safe opts program.cache _).leads fun _ inside => inside).bind ?_
        intro found _
        cases found with
        | none => exact rebuild_sameCounter _
        | some other => exact leads_cachedPath_none _ _ _
      · exact leads_cachedPath_none _ _ _
    · split
      -- The event hangs.
      · intro outcome done
        cases done
        rfl
      · exact leads_cachedPath_none _ _ _
  · exact reinitialize_sameCounter fun _ => finish_sameCounter _ _
  · exact leads_cachedPath_none _ _ _
  · exact leads_cachedPath_none _ _ _
  · exact finish_sameCounter _ _

/-- Handling any event reads no more events. -/
theorem processNextInotifyEvent_sameCounter (buf : Memory) (start : Nat) (bufSize : Int) :
    Leads (processNextInotifyEvent opts world program buf start bufSize firstTry)
      (SameCounter program) := by
  rw [processNextInotifyEvent, handleNextEvent]
  -- Handling an event reads nothing itself.
  split
  · refine ((findWatchChecked_safe opts program.cache _).leads fun _ inside => inside).bind ?_
    intro found inside
    cases found with
    | none => exact rebuild_sameCounter _
    | some slot =>
      exact (handleEvent_fits (inside slot rfl)).leads fun _ fits => fits.inotifyReadCnt
  · exact handleEvent_sameCounter_none

end Counter

/-- What is true of the program after steps that keep the accounts right. -/
structure CallInvariant (state : CallState) : Prop where
  requests : ∀ request ∈ state.requests, request.target + request.count ≤ inotifyReadBufLen
  numRead : state.stage = .loopTest ∨ state.stage = .secondaryRead →
    state.loop.numRead = state.valid.length
  inside : state.valid.length ≤ inotifyReadBufLen
  holds : state.stage = .loopTest ∨ state.stage = .secondaryRead →
    state.loop.buf.Holds 0 state.valid
  hanging : state.stage = .secondaryRead → state.loop.evp < state.loop.numRead
  counted : state.loop.program.inotifyReadCnt = state.dataReads
  few : state.dataReads < 2 ^ 31

/-- A number of increments that an `int` can hold. -/
theorem intCount_of_lt {count : Nat} (small : count < 2 ^ 31) : intCount count = count := by
  -- A count below 2 ^ 31 is read back by the int as it is.
  have low : -((2 ^ 32 : Nat) : Int) ≤ (count : Int) * 2 := by omega
  have high : (count : Int) * 2 < (2 ^ 32 : Nat) := by
    push_cast
    omega
  exact Int.bmod_eq_of_le_mul_two low high

/-- One increment too many makes an `int` negative. -/
theorem lt_of_intCount {count : Nat} (before : count ≤ 2 ^ 31) (same : intCount count = count) :
    count < 2 ^ 31 := by
  by_contra large
  obtain rfl : count = 2 ^ 31 := by omega
  exact absurd same (by decide)

/-- Nothing has been read before the first call. -/
theorem callStart_invariant (program : Program) (buf : Memory) :
    CallInvariant (callStart program buf) where
  -- No call has begun, so nothing was read.
  requests := nofun
  numRead := nofun
  inside := Nat.zero_le _
  holds := nofun
  hanging := nofun
  counted := rfl
  few := Nat.two_pow_pos 31

/-- The invariant is enough for the accounts. -/
theorem CallInvariant.accounted {state : CallState} (invariant : CallInvariant state) :
    Accounted state where
  -- At the test of the loop, the invariant says all that is asked.
  requests := invariant.requests
  numRead test := invariant.numRead (.inl test)
  holds test := invariant.holds (.inl test)
  inotifyReadCnt := by rw [invariant.counted, intCount_of_lt invariant.few]

/-- One more request that stays inside the buffer. -/
theorem CallInvariant.asks {state : CallState} (invariant : CallInvariant state) (target : Int)
    (count : Nat) (fits : target + count ≤ inotifyReadBufLen) :
    CallInvariant (state.asks target count) := by
  refine { invariant with requests := fun request mem => ?_ }
  -- The new request fits by assumption, and the others did before.
  rcases List.mem_append.mp mem with old | new
  · exact invariant.requests request old
  · obtain rfl := List.mem_singleton.mp new
    exact fits

/-- Nothing is promised of the buffer when the loop has ended. -/
theorem CallInvariant.ends {state : CallState} (invariant : CallInvariant state)
    {stage : CallStage} (ended : stage ≠ .loopTest ∧ stage ≠ .secondaryRead) :
    CallInvariant { state with stage := stage } where
  -- Outside the loop nothing is said of the buffer.
  requests := invariant.requests
  numRead within := (within.elim ended.1 ended.2).elim
  inside := invariant.inside
  holds within := (within.elim ended.1 ended.2).elim
  hanging within := (ended.2 within).elim
  counted := invariant.counted
  few := invariant.few

/-- The primary read asks for no more than the buffer holds, if the option does not. -/
theorem primaryCount_le {readBufferSize : Int} (small : readBufferSize ≤ inotifyReadBufLen) :
    primaryCount readBufferSize ≤ inotifyReadBufLen := by
  unfold primaryCount
  -- The option may make the buffer smaller, never larger.
  split
  · omega
  · exact le_rfl

/-- The secondary read asks for what the buffer holds behind the bytes that are left. -/
theorem secondaryCount (left : Int) (nonneg : 0 ≤ left) (inside : left ≤ inotifyReadBufLen) :
    (toSizeT (inotifyReadBufLen - left) : Int) = inotifyReadBufLen - left := by
  have small : (inotifyReadBufLen : Int) < 2 ^ 64 := by decide
  rw [toSizeT, Int.emod_eq_of_lt (by omega) (by omega), Int.toNat_of_nonneg (by omega)]

/-- The bytes that are left are moved to the start, and what is read is put behind them. -/
theorem holds_secondary {buf : Memory} {valid : List UInt8} {evp : Nat}
    (holds : buf.Holds 0 valid) (inside : evp ≤ valid.length) (bytes : List UInt8) :
    ((buf.moveDown evp (valid.length - evp)).store (valid.length - evp) bytes).Holds 0
      (valid.drop evp ++ bytes) := by
  -- What is left is behind what has been processed, until it is moved.
  have split_ := List.take_append_drop evp valid
  have left : buf.Holds evp (valid.drop evp) := by
    rw [← split_] at holds
    have second := (Memory.holds_append.mp holds).2
    rwa [List.length_take, Nat.min_eq_left inside, Nat.zero_add] at second
  have length : (valid.drop evp).length = valid.length - evp := List.length_drop
  have moved := Memory.holds_moveDown left (le_of_eq length)
  refine Memory.holds_append.mpr ⟨Memory.holds_store_before moved (by omega), ?_⟩
  rw [Nat.zero_add, length]
  exact Memory.holds_store _ _ _

section Steps

variable {opts : Options} {readBufferSize : Int} {state next : CallState}

/-- The primary read puts all valid bytes at the start of the buffer. -/
theorem CallInvariant.call (invariant : CallInvariant state) {buf : Memory} {result : ReadResult}
    (small : readBufferSize ≤ inotifyReadBufLen)
    (fewer : result.hasData = true → state.dataReads + 1 < 2 ^ 31)
    (stepped : callStep opts readBufferSize state (.call buf result) = some next) :
    CallInvariant next := by
  -- Without data the program exits, and nothing but the request is new.
  simp only [callStep] at stepped
  split at stepped
  next guard =>
    obtain ⟨_, _, fits⟩ := guard
    have count := primaryCount_le small
    have asked := invariant.asks 0 (primaryCount readBufferSize) (by omega)
    cases result with
    | events evs =>
      obtain rfl := Option.some.inj stepped
      constructor
      case requests => exact asked.requests
      case numRead => exact fun _ => rfl
      case inside => exact fits.trans count
      case holds => exact fun _ => Memory.holds_store buf 0 (encodeAll evs)
      case hanging => exact nofun
      case counted => exact congrArg (· + 1) invariant.counted
      case few => exact fewer rfl
    | eintr | failed | nothing =>
      obtain rfl := Option.some.inj stepped
      exact asked.ends ⟨nofun, nofun⟩
  next => cases stepped

/-- An iteration goes on to the next event, or leaves the event that hangs to the next read. -/
theorem CallInvariant.iterate (invariant : CallInvariant state) {world : World}
    (stepped : callStep opts readBufferSize state (.iterate world) = some next) :
    CallInvariant next := by
  simp only [callStep] at stepped
  split at stepped
  next test =>
    have numRead := invariant.numRead (.inl test)
    have holds := invariant.holds (.inl test)
    split at stepped
    next more =>
      split at stepped
      next exit _ =>
        obtain rfl := Option.some.inj stepped
        exact invariant.ends ⟨nofun, nofun⟩
      next outcome processed =>
        have same := processNextInotifyEvent_sameCounter _ _ _ outcome processed
        split at stepped
        -- The pointer moves on, but the bytes in the buffer stay as they are.
        · obtain rfl := Option.some.inj stepped
          exact { invariant with
            numRead := fun _ => numRead
            holds := fun _ => holds
            hanging := fun hangs => by cases test.symm.trans hangs
            counted := same.trans invariant.counted }
        · obtain rfl := Option.some.inj stepped
          exact { invariant with
            numRead := fun _ => numRead
            holds := fun _ => holds
            hanging := fun _ => more
            counted := same.trans invariant.counted }
    next =>
      obtain rfl := Option.some.inj stepped
      exact invariant.ends ⟨nofun, nofun⟩
  next => cases stepped

/-- The secondary read puts valid bytes behind those that are left. -/
theorem CallInvariant.secondaryRead (invariant : CallInvariant state) {result : ReadResult}
    (arrives : result ≠ .eintr) (fewer : result.hasData = true → state.dataReads + 1 < 2 ^ 31)
    (stepped : callStep opts readBufferSize state (.secondaryRead result) = some next) :
    CallInvariant next := by
  simp only [callStep] at stepped
  split at stepped
  next guard =>
    obtain ⟨hangs, _, fits⟩ := guard
    have numRead := invariant.numRead (.inr hangs)
    have hanging := invariant.hanging hangs
    have inside := invariant.inside
    -- The event that hangs is left, so the difference is the number of bytes behind the pointer.
    have nonempty : state.loop.evp < state.valid.length := by omega
    have left : state.loop.numRead - state.loop.evp =
        ((state.valid.length - state.loop.evp : Nat) : Int) := by omega
    have count := secondaryCount (state.loop.numRead - state.loop.evp) (by omega) (by omega)
    have asked := invariant.asks (state.loop.numRead - state.loop.evp)
      (toSizeT (inotifyReadBufLen - (state.loop.numRead - state.loop.evp))) (by omega)
    cases result with
    | events evs =>
      obtain rfl := Option.some.inj stepped
      have length : (state.valid.drop state.loop.evp).length =
          state.valid.length - state.loop.evp := List.length_drop
      have fits : (encodeAll evs).length ≤ _ := fits
      constructor
      case requests => exact asked.requests
      case numRead =>
        have total : state.loop.numRead - state.loop.evp + (encodeAll evs).length =
            ((state.valid.drop state.loop.evp ++ encodeAll evs).length : Int) := by
          rw [left, List.length_append, length]
          push_cast
          rfl
        exact fun _ => total
      case inside =>
        have total : (state.valid.drop state.loop.evp ++ encodeAll evs).length ≤
            inotifyReadBufLen := by
          rw [List.length_append, length]
          omega
        exact total
      case holds =>
        have moved := holds_secondary (invariant.holds (.inr hangs)) nonempty.le (encodeAll evs)
        rw [← Int.toNat_natCast (state.valid.length - state.loop.evp), ← left] at moved
        exact fun _ => moved
      case hanging => exact nofun
      case counted => exact congrArg (· + 1) invariant.counted
      case few => exact fewer rfl
    | eintr => exact (arrives rfl).elim
    | failed | nothing =>
      obtain rfl := Option.some.inj stepped
      exact asked.ends ⟨nofun, nofun⟩
  next => cases stepped

/-- Every admitted step keeps the invariant. -/
theorem CallInvariant.step {action : CallAction} (invariant : CallInvariant state)
    (admitted : CallAdmitted readBufferSize state action)
    (stepped : callStep opts readBufferSize state action = some next) : CallInvariant next := by
  -- One case for each action of a call.
  cases action with
  | between program =>
    simp only [callStep] at stepped
    split at stepped
    next guard =>
      obtain ⟨outside, same⟩ := guard
      obtain rfl := Option.some.inj stepped
      have ended : state.stage ≠ .loopTest ∧ state.stage ≠ .secondaryRead := by simp [outside]
      exact { invariant.ends ended with counted := same.trans invariant.counted }
    next => cases stepped
  | call buf result => exact invariant.call admitted.1 admitted.2 stepped
  | iterate world => exact invariant.iterate stepped
  | secondaryRead result => exact invariant.secondaryRead admitted.1 admitted.2 stepped

/-- If the counter is right after one more read, that is a number for an `int`. -/
theorem CallInvariant.fewer (invariant : CallInvariant state)
    (same : intCount (state.loop.program.inotifyReadCnt + 1) = (state.dataReads + 1 : Nat)) :
    state.dataReads + 1 < 2 ^ 31 := by
  rw [invariant.counted] at same
  exact lt_of_intCount (Nat.succ_le_of_lt invariant.few) same

/-- After a step that is not admitted, the accounts are wrong. -/
theorem CallInvariant.needed {action : CallAction} (invariant : CallInvariant state)
    (stepped : callStep opts readBufferSize state action = some next) (accounted : Accounted next) :
    CallAdmitted readBufferSize state action := by
  cases action with
  | between | iterate => trivial
  | call buf result =>
    simp only [callStep] at stepped
    split at stepped
    next =>
      have small : readBufferSize ≤ inotifyReadBufLen := by
        -- The request is among those that fit, whatever has come of it.
        have request : (⟨0, primaryCount readBufferSize⟩ : Request) ∈ next.requests := by
          cases result <;> obtain rfl := Option.some.inj stepped <;> simp [CallState.asks]
        have fits := accounted.requests _ request
        simp only [primaryCount] at fits
        split at fits <;> omega
      refine ⟨small, fun data => ?_⟩
      cases result with
      | events evs =>
        obtain rfl := Option.some.inj stepped
        exact invariant.fewer accounted.inotifyReadCnt
      | eintr | failed | nothing => cases data
    next => cases stepped
  | secondaryRead result =>
    simp only [callStep] at stepped
    split at stepped
    next guard =>
      cases result with
      | events evs =>
        obtain rfl := Option.some.inj stepped
        exact ⟨nofun, fun _ => invariant.fewer accounted.inotifyReadCnt⟩
      | eintr =>
        -- The result -1 makes the number of bytes one less than what is left.
        obtain rfl := Option.some.inj stepped
        have before := invariant.numRead (.inr guard.1)
        have hanging := invariant.hanging guard.1
        have after : state.loop.numRead - state.loop.evp + (-1) =
            ((state.valid.drop state.loop.evp ++ []).length : Int) := accounted.numRead rfl
        rw [List.append_nil, List.length_drop] at after
        omega
      | failed | nothing => exact ⟨nofun, nofun⟩
    next => cases stepped

end Steps

/--
The reads stay inside the buffer, and the accounts are right in every state of a run, just when no
step of it asks for too much, is interrupted in its secondary read, or is one read too many.
-/
theorem callMachine_accounted_iff (opts : Options) (readBufferSize : Int) (program : Program)
    (buf : Memory) {actions : List CallAction} {finish : CallState}
    (ran : (callMachine opts readBufferSize).run (callStart program buf) actions = some finish) :
    (callMachine opts readBufferSize).Throughout Accounted (callStart program buf) actions ↔
      (callMachine opts readBufferSize).Along (CallAdmitted readBufferSize)
        (callStart program buf) actions :=
  -- Each admitted step keeps the invariant, and each step that is not admitted breaks the count.
  Machine.throughout_iff_along (fun _ invariant => invariant.accounted)
    (fun _ _ _ invariant admitted stepped => invariant.step admitted stepped)
    (fun _ _ _ invariant stepped accounted => invariant.needed stepped accounted)
    (callStart_invariant program buf) ran

/-- Whether a step is admitted can be decided. -/
instance (readBufferSize : Int) (state : CallState) :
    ∀ action, Decidable (CallAdmitted readBufferSize state action)
  | .call _ _ => inferInstanceAs (Decidable (_ ∧ _))
  | .secondaryRead _ => inferInstanceAs (Decidable (_ ∧ _))
  | .between _ => isTrue trivial
  | .iterate _ => isTrue trivial

/-- A program that watches a directory under the watch descriptor 1. -/
def watchingProgram : Program where
  cache := [Slot.of ⟨1, Int.one_nonneg⟩ ⟨[97], by decide⟩]
  rootDirPaths := [some [97]]
  ignoreRootDirs := 0
  inotifyFd := 3
  inotifyReadCnt := 0
  eventCnt := 0

/-- A directory was moved, and no other event arrives. -/
def movedEvent : InotifyEvent :=
  ⟨1, 0x40000040, 7, [97, 0, 0, 0, 0, 0, 0, 0, 0, 0, 0, 0, 0, 0, 0, 0]⟩

/-- A system in which a directory is moved out of the tree. -/
def movedWorld : World where
  read number count := if number = 0 ∧ 32 ≤ count then .events [movedEvent] else .eintr
  visits _ _ := []
  rmWatch _ _ := true
  checkExits _ := false

/-- The new name of the directory arrives with the secondary read. -/
def renamedRun : List CallAction :=
  [.call (fun _ => 0) (.events [movedEvent]), .iterate movedWorld,
    .secondaryRead (.events [{ movedEvent with mask := 0x40000080 }]), .iterate movedWorld,
    .iterate movedWorld]

/-- The accounts are right when a directory is renamed. -/
theorem callMachine_accounted_renamed :
    (callMachine ⟨false, false, 0⟩ 0).Throughout Accounted
      (callStart watchingProgram fun _ => 0) renamedRun := by
  -- A directory is renamed in the run, and its two events come in one read.
  have runs : ((callMachine ⟨false, false, 0⟩ 0).run (callStart watchingProgram fun _ => 0)
      renamedRun).isSome := by decide +kernel
  obtain ⟨finish, ran⟩ := Option.isSome_iff_exists.mp runs
  exact (callMachine_accounted_iff ⟨false, false, 0⟩ 0 watchingProgram (fun _ => 0) ran).mpr
    (by decide +kernel)

/-- A signal interrupts the read that waits for the new name. -/
def interruptedRun : List CallAction :=
  [.call (fun _ => 0) (.events [movedEvent]), .iterate movedWorld, .secondaryRead .eintr]

/-- The accounts are wrong after the interrupted read, which takes a byte off the event. -/
theorem callMachine_not_accounted :
    ¬ ∀ (opts : Options) (readBufferSize : Int) (program : Program) (buf : Memory)
      (actions : List CallAction) (finish : CallState),
      (callMachine opts readBufferSize).run (callStart program buf) actions = some finish →
        (callMachine opts readBufferSize).Throughout Accounted (callStart program buf) actions := by
  intro all
  -- The event has 32 bytes, one of which is lost.
  have counts : ((callMachine ⟨false, false, 0⟩ 0).run (callStart watchingProgram fun _ => 0)
      interruptedRun).map (fun state => (state.stage, state.loop.numRead, state.valid.length)) =
        some (.loopTest, 31, 32) := by decide
  obtain ⟨finish, ran, same⟩ := Option.map_eq_some_iff.mp counts
  obtain ⟨test, numRead, length⟩ : finish.stage = .loopTest ∧ finish.loop.numRead = 31 ∧
      finish.valid.length = 32 := by simpa using same
  have accounted := (all _ _ _ _ _ _ ran).finish ran
  have equal := accounted.numRead test
  rw [numRead, length] at equal
  cases equal

section Calls

variable {opts : Options} {world : World}

/-- How a call of the step-by-step program ends. -/
def CallState.EndsAs (finish : CallState) : Ending → Prop
  | .returned program => finish.stage = .outside ∧ finish.loop.program = program
  | .exited exit => finish.stage = .exited exit
  | .outOfFuel => finish.stage = .loopTest

/-- A sound system gives only answers that a read can give. -/
theorem World.Sound.answers (sound : world.Sound) (number count : Nat) :
    (world.read number count).Answers count := by
  -- Only a read that brings events has to fit.
  cases read : world.read number count with
  | events evs =>
    refine ⟨fun same => ?_, sound.fits number count evs read⟩
    exact sound.nonempty number count evs read (ReadResult.events.inj same)
  | eintr | failed | nothing => exact ⟨nofun, Nat.zero_le _⟩

/-- The secondary read leaves no more bytes in the buffer than it holds. -/
theorem secondaryRead_le (sound : world.Sound) (loop : LoopState) {next : LoopState}
    (hanging : loop.evp < loop.numRead) (inside : loop.numRead ≤ inotifyReadBufLen)
    (read : (secondaryRead world loop).2 = .ok next) : next.numRead ≤ inotifyReadBufLen := by
  simp only [secondaryRead] at read
  split at read
  -- What arrives fits behind what is left; an interrupted read takes a byte off.
  next evs arrived =>
    obtain rfl := Except.ok.inj read
    have fits := sound.fits _ _ _ arrived
    dsimp only
    omega
  next =>
    obtain rfl := Except.ok.inj read
    dsimp only
    omega
  next => cases read
  next => cases read

/-- The secondary read is a step of the step-by-step program. -/
theorem secondaryRead_reaches (sound : world.Sound) (opts : Options) (readBufferSize : Int)
    (state : CallState) (hangs : state.stage = .secondaryRead)
    (hanging : state.loop.evp < state.loop.numRead)
    (inside : state.loop.numRead ≤ inotifyReadBufLen) :
    ∃ next, (callMachine opts readBufferSize).Reaches state next ∧
      match (secondaryRead world state.loop).2 with
      | .ok loop => next.stage = .loopTest ∧ next.loop = loop
      | .error exit => next.stage = .exited exit := by
  -- Something is left in the buffer, and not more than it holds, so the difference does not wrap.
  have left := Int.toNat_of_nonneg (show 0 ≤ state.loop.numRead - state.loop.evp by omega)
  have count : toSizeT (inotifyReadBufLen - (state.loop.numRead - state.loop.evp)) =
      inotifyReadBufLen - (state.loop.numRead - state.loop.evp).toNat := by
    have same := secondaryCount (state.loop.numRead - state.loop.evp) (by omega) (by omega)
    omega
  have answers : (secondaryRead world state.loop).1.Answers
      (toSizeT (inotifyReadBufLen - (state.loop.numRead - state.loop.evp))) := by
    rw [count]
    exact sound.answers _ _
  have stepped : (callMachine opts readBufferSize).step state
      (.secondaryRead (secondaryRead world state.loop).1) =
        match (secondaryRead world state.loop).2 with
        | .ok loop => some { state.asks (state.loop.numRead - state.loop.evp)
              (toSizeT (inotifyReadBufLen - (state.loop.numRead - state.loop.evp))) with
            stage := .loopTest
            loop := loop
            valid := state.valid.drop state.loop.evp ++ (secondaryRead world state.loop).1.bytes
            dataReads := state.dataReads + (secondaryRead world state.loop).1.hasData.toNat }
        | .error exit => some { state.asks (state.loop.numRead - state.loop.evp)
              (toSizeT (inotifyReadBufLen - (state.loop.numRead - state.loop.evp))) with
            stage := .exited exit } := by
    simp only [callMachine, callStep]
    rw [if_pos ⟨hangs, answers⟩]
    rfl
  cases read : (secondaryRead world state.loop).2 with
  | ok loop =>
    rw [read] at stepped
    exact ⟨_, .single stepped, rfl, rfl⟩
  | error exit =>
    rw [read] at stepped
    exact ⟨_, .single stepped, rfl⟩

section Iterations

variable (readBufferSize : Int) {state : CallState}

variable (world) in
/-- The loop ends behind the last byte. -/
theorem step_returned (test : state.stage = .loopTest)
    (behind : ¬ state.loop.evp < state.loop.numRead) :
    (callMachine opts readBufferSize).step state (.iterate world) =
      some { state with stage := .outside } := by
  simp only [callMachine, callStep, if_pos test, if_neg behind]

variable (test : state.stage = .loopTest) (more : state.loop.evp < state.loop.numRead)

include test more

/-- The program exits while it handles an event. -/
theorem step_exited {exit : Exit} (processed : processNextInotifyEvent opts world
      state.loop.program state.loop.buf state.loop.evp (state.loop.numRead - state.loop.evp)
      state.loop.firstTry = .error exit) :
    (callMachine opts readBufferSize).step state (.iterate world) =
      some { state with stage := .exited exit } := by
  -- The program exits while it handles the event.
  simp only [callMachine, callStep, if_pos test, if_pos more, processed]

variable {outcome : Outcome} (processed : processNextInotifyEvent opts world state.loop.program
  state.loop.buf state.loop.evp (state.loop.numRead - state.loop.evp) state.loop.firstTry =
    .ok outcome)

include processed

/-- The loop goes on behind the event. -/
theorem step_handled (positive : 0 < outcome.evLen) :
    (callMachine opts readBufferSize).step state (.iterate world) =
      some { state with loop := { state.loop with
        program := outcome.program
        evp := state.loop.evp + outcome.evLen.toNat
        firstTry := true } } := by
  -- The loop goes on behind the event.
  simp only [callMachine, callStep, if_pos test, if_pos more, processed, if_pos positive]

/-- The event hangs. -/
theorem step_hangs (none_ : ¬ 0 < outcome.evLen) :
    (callMachine opts readBufferSize).step state (.iterate world) = some { state with
      stage := .secondaryRead
      loop := { state.loop with program := outcome.program } } := by
  simp only [callMachine, callStep, if_pos test, if_pos more, processed, if_neg none_]

end Iterations

/-- The loop over the buffer is a run of the step-by-step program. -/
theorem processEvents_reaches (sound : world.Sound) (readBufferSize : Int) (fuel : Nat)
    (state : CallState) (test : state.stage = .loopTest)
    (inside : state.loop.numRead ≤ inotifyReadBufLen) :
    ∃ finish, (callMachine opts readBufferSize).Reaches state finish ∧
      finish.EndsAs (processEvents opts world fuel state.loop).2 := by
  -- The induction follows the loop, an iteration of which is one step, or two if the event hangs.
  induction fuel generalizing state with
  | zero => exact ⟨state, .refl state, test⟩
  | succ fuel ih =>
    rw [processEvents]
    by_cases more : state.loop.evp < state.loop.numRead
    · rw [if_pos more]
      cases processed : processNextInotifyEvent opts world state.loop.program state.loop.buf
          state.loop.evp (state.loop.numRead - state.loop.evp) state.loop.firstTry with
      | error exit => exact ⟨_, .single (step_exited readBufferSize test more processed), rfl⟩
      | ok outcome =>
        dsimp only
        by_cases positive : 0 < outcome.evLen
        · rw [if_pos positive]
          have handled := step_handled readBufferSize test more processed positive
          obtain ⟨finish, rest, ended⟩ := ih { state with loop := { state.loop with
            program := outcome.program
            evp := state.loop.evp + outcome.evLen.toNat
            firstTry := true } } test inside
          exact ⟨finish, (Machine.Reaches.single handled).trans rest, ended⟩
        · rw [if_neg positive]
          have hangs := step_hangs readBufferSize test more processed positive
          obtain ⟨next, second, after⟩ := secondaryRead_reaches sound opts readBufferSize
            { state with
              stage := .secondaryRead
              loop := { state.loop with program := outcome.program } } rfl more inside
          have reaches := (Machine.Reaches.single hangs).trans second
          cases read : secondaryRead world { state.loop with program := outcome.program } with
          | mk result afterRead =>
            rw [read] at after
            cases afterRead with
            | error exit => exact ⟨next, reaches, after⟩
            | ok loop =>
              -- Not more bytes than the buffer holds are valid at the next loop test, either.
              obtain ⟨nextTest, rfl⟩ := after
              have bound := secondaryRead_le sound { state.loop with program := outcome.program }
                more inside (congrArg Prod.snd read)
              obtain ⟨finish, rest, ended⟩ := ih next nextTest bound
              exact ⟨finish, reaches.trans rest, ended⟩
    · rw [if_neg more]
      exact ⟨_, .single (step_returned world readBufferSize test more), rfl, rfl⟩

/-- The option `-b` with a number that is not negative. -/
theorem primaryCount_natCast (readBufferSize : Nat) : primaryCount readBufferSize =
    if 0 < readBufferSize then readBufferSize else inotifyReadBufLen := by
  rw [primaryCount]
  split_ifs <;> omega

/-- A call is a run of the step-by-step program. -/
theorem processInotifyEvents_reaches (sound : world.Sound)
    (size : opts.readBufferSize ≤ inotifyReadBufLen) (fuel : Nat) (state : CallState)
    (outside : state.stage = .outside) (buf : Memory) :
    ∃ finish, (callMachine opts opts.readBufferSize).Reaches state finish ∧
      finish.EndsAs (processInotifyEvents opts world fuel state.loop.program buf).2 := by
  have small : primaryCount opts.readBufferSize ≤ inotifyReadBufLen :=
    primaryCount_le (Int.ofNat_le.mpr size)
  have answers := sound.answers state.loop.program.inotifyReadCnt
    (primaryCount opts.readBufferSize)
  have stepped : ∀ result, result.Answers (primaryCount opts.readBufferSize) →
      (callMachine opts opts.readBufferSize).step state (.call buf result) = _ :=
    fun result answers => if_pos ⟨outside, answers⟩
  rw [processInotifyEvents, ← primaryCount_natCast]
  cases read : world.read state.loop.program.inotifyReadCnt
      (primaryCount opts.readBufferSize) with
  | events evs =>
    rw [read] at answers
    -- The first read fills the buffer from its start, as the call's step does.
    obtain ⟨next, called, test, same⟩ : ∃ next, (callMachine opts opts.readBufferSize).step state
        (.call buf (.events evs)) = some next ∧ next.stage = .loopTest ∧ next.loop =
          { program := { state.loop.program with
              inotifyReadCnt := state.loop.program.inotifyReadCnt + 1 }
            buf := buf.store 0 (encodeAll evs)
            evp := 0
            numRead := (encodeAll evs).length
            firstTry := true } := ⟨_, stepped _ answers, rfl, rfl⟩
    have inside : next.loop.numRead ≤ inotifyReadBufLen := by
      rw [same]
      exact Int.ofNat_le.mpr (answers.2.trans small)
    obtain ⟨finish, reaches, ended⟩ :=
      processEvents_reaches sound opts.readBufferSize fuel next test inside
    rw [same] at ended
    exact ⟨finish, (Machine.Reaches.single called).trans reaches, ended⟩
  | eintr | failed | nothing =>
    rw [read] at answers
    exact ⟨_, .single (stepped _ answers), rfl⟩

end Calls

end SysProg.Inotify
