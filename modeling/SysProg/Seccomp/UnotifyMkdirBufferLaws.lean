import SysProg.Seccomp.UnotifyMkdirLaws

/-! How the buffer of `seccomp_unotify_mkdir` matters, which is shared by all notifications. -/

namespace SysProg.Seccomp

variable {opts : CmdLineOpts} {supervisor next : MkdirSupervisor}

/-- The same supervisor with other bytes in its buffer. -/
def MkdirSupervisor.withBuffer (supervisor : MkdirSupervisor) (buffer : List UInt8) :
    MkdirSupervisor :=
  { supervisor with session := { supervisor.session with path := buffer } }

/-- At these places the supervisor fetches or acts on the pathname of the present notification. -/
def MkdirPc.acting : MkdirPc → Bool
  | .fetch | .mkdir | .send _ | .checkBye => true
  | _ => false

/-- The function has returned something else than 0. -/
def FetchPc.failed : FetchPc → Bool
  | .returned .success => false
  | .returned _ => true
  | _ => false

/-- How many bytes of the buffer the fetch for the present notification has read, and not failed. -/
def MkdirSupervisor.present (supervisor : MkdirSupervisor) : Nat :=
  if supervisor.pc.acting ∧ ¬ supervisor.session.fetch.pc.failed then
    supervisor.session.fetch.copied.length
  else 0

/-- A buffer that differs in bytes only that a failed or earlier fetch has left. -/
structure MkdirSupervisor.Alike (supervisor : MkdirSupervisor) (buffer : List UInt8) : Prop where
  length : buffer.length = supervisor.session.path.length
  present : buffer.take supervisor.present = supervisor.session.path.take supervisor.present

/-- A fetch that has failed has not left `"/bye"` where the supervisor looks for it. -/
def NoStrayBye (supervisor : MkdirSupervisor) : MkdirAction → Prop
  | .checkBye => supervisor.session.fetched = none → supervisor.session.string ≠ slashBye
  | _ => True

/-- What the supervisor does depends on nothing but validated pathnames. -/
structure MkdirSupervisor.ActsOnValidated (opts : CmdLineOpts) (supervisor : MkdirSupervisor) :
    Prop where
  /-- It leaves its loop right after `"/bye"` has been fetched with success. -/
  leaves : supervisor.pc = .terminating →
    ∃ before answer, supervisor.sent = before ++ [answer] ∧ answer.fetched = some slashBye
  /-- With other left over bytes, it goes on in the same way. -/
  unmoved : ∀ buffer actions finish, supervisor.Alike buffer →
    (mkdirSupervisor opts).Along NoStrayBye supervisor actions →
    (mkdirSupervisor opts).Along NoStrayBye (supervisor.withBuffer buffer) actions →
    (mkdirSupervisor opts).run supervisor actions = some finish →
    ∃ last, (mkdirSupervisor opts).run (supervisor.withBuffer buffer) actions =
      some (finish.withBuffer last)

/-- A string that ends within the first bytes of a buffer is determined by them. -/
theorem takeWhile_of_take {buffer other : List UInt8} {size : Nat}
    (terminated : 0 ∈ buffer.take size) (same : other.take size = buffer.take size) :
    other.takeWhile (· ≠ 0) = buffer.takeWhile (· ≠ 0) := by
  -- The string ends before the other bytes start.
  have within : ∀ bytes : List UInt8, 0 ∈ bytes.take size →
      bytes.takeWhile (· ≠ 0) = (bytes.take size).takeWhile (· ≠ 0) := by
    intro bytes ends
    conv_lhs => rw [← List.take_append_drop size bytes]
    rw [List.takeWhile_append, if_neg]
    intro whole
    have all : (bytes.take size).takeWhile (· ≠ 0) = bytes.take size :=
      (List.takeWhile_prefix _).eq_of_length whole
    have nonzero : ((bytes.take size).takeWhile (· ≠ 0)).all (· ≠ 0) = true := List.all_takeWhile
    rw [all, List.all_eq_true] at nonzero
    exact absurd (nonzero 0 ends) (by decide)
  rw [within other (same ▸ terminated), within buffer terminated, same]

/-- The function does the same whatever there is in the rest of the buffer. -/
theorem fetchStep_alike {argNum : Fin 6} {session after : Session} {goesAlong : Bool}
    {buffer : List UInt8} (length : buffer.length = session.path.length)
    (same : buffer.take session.fetch.copied.length =
      session.path.take session.fetch.copied.length)
    (stepped : fetchStep argNum session goesAlong = some after) :
    ∃ last, fetchStep argNum { session with path := buffer } goesAlong =
        some { after with path := last } ∧ last.length = after.path.length ∧
      last.take after.fetch.copied.length = after.path.take after.fetch.copied.length := by
  -- The next byte comes from the other process, not from the buffer.
  have sameByte : Session.nextByte { session with path := buffer } argNum =
      session.nextByte argNum := by
    simp only [Session.nextByte, length]
  unfold fetchStep at stepped ⊢
  dsimp only at stepped ⊢
  rw [same, sameByte]
  split at stepped
  case h_3 =>
    split at stepped
    next entry read =>
      split at stepped <;> obtain rfl := Option.some.inj stepped
      · have room := (Session.nextByte_eq_some read).1
        refine ⟨buffer.set session.fetch.copied.length entry.byte, ?_, by simp [length], ?_⟩
        · simp_all
        · -- What has been read so far is the same, and now one more byte is.
          have grown : ∀ bytes : List UInt8, bytes.length = session.path.length →
              (bytes.set session.fetch.copied.length entry.byte).take
                (session.fetch.copied.length + 1) =
              bytes.take session.fetch.copied.length ++ [entry.byte] := by
            intro bytes size
            rw [List.take_add_one, List.take_set_of_le (le_refl _),
              List.getElem?_set_self (size ▸ room)]
            rfl
          simp only [List.length_append, List.length_singleton]
          rw [grown buffer length, grown session.path rfl, same]
      · exact ⟨buffer, by simp_all [Session.fetchAt], length, same⟩
    next read =>
      obtain rfl := Option.some.inj stepped
      exact ⟨buffer, by simp_all [Session.fetchAt], length, same⟩
  all_goals
    (try split at stepped) <;> (try split at stepped) <;> cases stepped <;>
      exact ⟨buffer, by simp_all [Session.fetchAt], length, same⟩

/-- What holds in every state that the supervisor reaches where nothing stray is left. -/
structure MkdirSupervisor.Validated (supervisor : MkdirSupervisor) : Prop where
  terminated : supervisor.session.fetch.pc = .returned .success →
    0 ∈ supervisor.session.path.take supervisor.session.fetch.copied.length
  succeeded : supervisor.pc = .mkdir → supervisor.session.fetch.pc = .returned .success
  /-- The last answer was for the fetch that is still to be looked at. -/
  last : supervisor.pc = .checkBye → ∃ before answer,
    supervisor.sent = before ++ [answer] ∧ answer.fetched = supervisor.session.fetched
  leaves : supervisor.pc = .terminating →
    ∃ before answer, supervisor.sent = before ++ [answer] ∧ answer.fetched = some slashBye

/-- What is known of the fetch goes on holding at any place that asks for nothing more. -/
theorem MkdirSupervisor.Validated.at (terminated : next.session.fetch.pc = .returned .success →
    0 ∈ next.session.path.take next.session.fetch.copied.length)
    (elsewhere : next.pc ≠ .mkdir ∧ next.pc ≠ .checkBye ∧ next.pc ≠ .terminating) :
    next.Validated :=
  -- At no other place anything is done with the buffer.
  ⟨terminated, fun at_ => absurd at_ elsewhere.1, fun at_ => absurd at_ elsewhere.2.1,
    fun at_ => absurd at_ elsewhere.2.2⟩

/-- Every step keeps the pathname validated, where nothing stray is left. -/
theorem MkdirSupervisor.Validated.step {action : MkdirAction} (validated : supervisor.Validated)
    (noStray : NoStrayBye supervisor action)
    (stepped : mkdirStep opts supervisor action = some next) : next.Validated := by
  obtain ⟨terminated, succeeded, last, leaves⟩ := validated
  -- One case for each step of the loop, in the order of the source.
  unfold mkdirStep at stepped
  dsimp only at stepped
  split at stepped
  next happening _ =>
    obtain ⟨session, happens, rfl⟩ := Option.map_eq_some_iff.mp stepped
    obtain ⟨world, happened, rfl⟩ := Session.happen_eq_some happens
    exact ⟨terminated, succeeded, last, leaves⟩
  next id at_ =>
    obtain ⟨session, received, rfl⟩ := Option.map_eq_some_iff.mp stepped
    obtain ⟨call, world, -, -, -, -, rfl⟩ := Session.receive_eq_some received
    exact .at terminated (by simp)
  next errno at_ =>
    split at stepped <;> obtain rfl := Option.some.inj stepped
    · exact ⟨terminated, succeeded, last, leaves⟩
    · exact .at terminated (by simp)
  -- What a fetch has left is not looked at before the next fetch.
  next at_ =>
    split at stepped
    · obtain rfl := Option.some.inj stepped
      exact .at terminated (by simp)
    split at stepped <;> obtain rfl := Option.some.inj stepped
    · exact .at terminated (by simp)
    · exact .at (fun returned => nomatch returned) (by simp)
  next at_ =>
    split at stepped <;> obtain rfl := Option.some.inj stepped
    · exact .at terminated (by simp)
    · exact .at terminated (by simp)
  next at_ =>
    split at stepped <;> obtain rfl := Option.some.inj stepped
    · exact .at (fun returned => nomatch returned) (by simp)
    · exact .at terminated (by simp)
  -- The function answers 0 only after it has seen a null byte.
  next goesAlong at_ =>
    obtain ⟨session, fetched, rfl⟩ := Option.map_eq_some_iff.mp stepped
    exact .at (fetchStep_terminated fetched) (by simp [at_])
  next at_ =>
    split at stepped
    next returned =>
      obtain rfl := Option.some.inj stepped
      unfold MkdirSupervisor.decide
      split
      · exact ⟨terminated, fun _ => returned, (fun at_ => nomatch at_), fun at_ => nomatch at_⟩
      split
      · exact .at terminated (by simp)
      · exact .at terminated (by simp)
    next =>
      obtain rfl := Option.some.inj stepped
      exact .at terminated (by simp)
    next => exact nomatch stepped
  next at_ =>
    obtain rfl := Option.some.inj stepped
    exact .at terminated (by simp)
  next errno at_ =>
    split at stepped
    next positive =>
      obtain rfl := Option.some.inj stepped
      exact .at terminated (by simp)
    next => exact nomatch stepped
  -- The answer is put on record with what has been fetched for it.
  next made at_ =>
    obtain rfl := Option.some.inj stepped
    exact ⟨terminated, (fun at_ => nomatch at_), fun _ => ⟨_, _, rfl, rfl⟩,
      fun at_ => nomatch at_⟩
  next at_ =>
    split at stepped <;> obtain rfl := Option.some.inj stepped
    next isBye =>
      -- The string is "/bye", so the fetch has not failed, and its pathname is the string.
      refine ⟨terminated, (fun at_ => nomatch at_), (fun at_ => nomatch at_), fun _ => ?_⟩
      obtain ⟨before, answer, sent, same⟩ := last at_
      refine ⟨before, answer, sent, same.trans ?_⟩
      cases fetched : supervisor.session.fetched with
      | none => exact absurd isBye (noStray fetched)
      | some pathname =>
        unfold Session.fetched at fetched
        split at fetched
        · rw [← fetched, isBye]
        · exact nomatch fetched
    next => exact .at terminated (by simp)
  next => exact nomatch stepped

/-- Away from these places no byte of the buffer counts. -/
theorem MkdirSupervisor.present_idle (idle : supervisor.pc.acting = false) :
    supervisor.present = 0 := by
  simp [MkdirSupervisor.present, idle]

/-- As long as the fetch has not failed, all that it has read counts. -/
theorem MkdirSupervisor.present_acting (acting : supervisor.pc.acting = true)
    (success : supervisor.session.fetch.pc = .returned .success) :
    supervisor.present = supervisor.session.fetch.copied.length := by
  simp [MkdirSupervisor.present, acting, success, FetchPc.failed]

/-- Alike buffers hold the same string, where the fetch has succeeded and is being acted on. -/
theorem MkdirSupervisor.Alike.string {buffer : List UInt8} (alike : supervisor.Alike buffer)
    (validated : supervisor.Validated) (acting : supervisor.pc.acting = true)
    (success : supervisor.session.fetch.pc = .returned .success) :
    -- The bytes that count hold the whole string.
    (supervisor.withBuffer buffer).session.string = supervisor.session.string := by
  have same := alike.present
  rw [MkdirSupervisor.present_acting acting success] at same
  exact takeWhile_of_take (validated.terminated success) same

/-- With an alike buffer, the same pathname has been fetched. -/
theorem MkdirSupervisor.Alike.fetched {buffer : List UInt8} (alike : supervisor.Alike buffer)
    (validated : supervisor.Validated) (acting : supervisor.pc.acting = true) :
    (supervisor.withBuffer buffer).session.fetched = supervisor.session.fetched := by
  unfold Session.fetched
  -- The string is read only after a fetch that succeeded.
  by_cases success : supervisor.session.fetch.pc = .returned .success
  · rw [if_pos success, alike.string validated acting success]
    exact if_pos success
  · rw [if_neg success]
    exact if_neg success

/-- A function that goes on has not failed. -/
theorem fetchStep_running {argNum : Fin 6} {session after : Session} {goesAlong : Bool}
    (stepped : fetchStep argNum session goesAlong = some after) :
    session.fetch.pc.failed = false := by
  -- A function that has returned takes no steps.
  cases at_ : session.fetch.pc with
  | returned status =>
    simp only [fetchStep, at_] at stepped
    exact nomatch stepped
  | _ => rfl

/-- What is decided depends on the string only. -/
theorem decide_withBuffer (supervisor : MkdirSupervisor) {session : Session} {buffer : List UInt8}
    (same : Session.string { session with path := buffer } = session.string) :
    (supervisor.withBuffer buffer).decide { session with path := buffer } =
      (supervisor.decide session).withBuffer buffer := by
  unfold MkdirSupervisor.decide
  rw [same]
  -- The branches of the decision depend on the string, and not on what lies behind it.
  split
  · rfl
  · split <;> rfl

/-- A buffer stays alike, as long as no more bytes of it count. -/
theorem MkdirSupervisor.Alike.of_fewer {buffer : List UInt8} (alike : supervisor.Alike buffer)
    (samePath : next.session.path = supervisor.session.path)
    (fewer : next.present = supervisor.present ∨ next.present = 0) : next.Alike buffer := by
  refine ⟨samePath.symm ▸ alike.length, ?_⟩
  -- The bytes that count are those that counted before, or none.
  obtain same | none := fewer
  · rw [same, samePath]
    exact alike.present
  · rw [none, List.take_zero, List.take_zero]

/-- The decision leaves the buffer as it is. -/
theorem path_decide (supervisor : MkdirSupervisor) (session : Session) :
    (supervisor.decide session).session.path = session.path := by
  -- Each branch sets fields of the response, if anything.
  unfold MkdirSupervisor.decide
  split
  · rfl
  · split <;> rfl

/-- Whatever is decided, all that has been fetched goes on to count. -/
theorem present_decide {session : Session} (success : session.fetch.pc = .returned .success) :
    (supervisor.decide session).present = session.fetch.copied.length := by
  -- Each branch leads to a place where the pathname is acted on.
  unfold MkdirSupervisor.decide
  split
  · simp [MkdirSupervisor.present, MkdirPc.acting, FetchPc.failed, success]
  · split <;> simp [MkdirSupervisor.present, MkdirPc.acting, FetchPc.failed, Session.respond,
      success]

/-- Alike buffers agree on whether `"/bye"` has been fetched, where nothing stray is left. -/
theorem MkdirSupervisor.Alike.bye {buffer : List UInt8} (alike : supervisor.Alike buffer)
    (validated : supervisor.Validated) (noStray : NoStrayBye supervisor .checkBye)
    (noStrayEither : NoStrayBye (supervisor.withBuffer buffer) .checkBye)
    (at_ : supervisor.pc = .checkBye) :
    (supervisor.withBuffer buffer).session.string = slashBye ↔
      supervisor.session.string = slashBye := by
  have acting : supervisor.pc.acting = true := by rw [at_, MkdirPc.acting]
  -- Either the string has been validated, or it is not "/bye" in any of the buffers.
  by_cases success : supervisor.session.fetch.pc = .returned .success
  · rw [alike.string validated acting success]
  · have none : supervisor.session.fetched = none := if_neg success
    exact iff_of_false (noStrayEither ((alike.fetched validated acting).trans none))
      (noStray none)

/-- A supervisor with an alike buffer takes the same step. -/
theorem MkdirSupervisor.Alike.step {action : MkdirAction} {buffer : List UInt8}
    (alike : supervisor.Alike buffer) (validated : supervisor.Validated)
    (noStray : NoStrayBye supervisor action)
    (noStrayEither : NoStrayBye (supervisor.withBuffer buffer) action)
    (stepped : mkdirStep opts supervisor action = some next) :
    ∃ last, mkdirStep opts (supervisor.withBuffer buffer) action = some (next.withBuffer last) ∧
      next.Alike last := by
  -- Both supervisors take the same branch, case by case.
  unfold mkdirStep at stepped
  dsimp only at stepped
  split at stepped
  next happening _ =>
    obtain ⟨session, happens, rfl⟩ := Option.map_eq_some_iff.mp stepped
    obtain ⟨world, happened, rfl⟩ := Session.happen_eq_some happens
    refine ⟨buffer, ?_, alike.of_fewer rfl (.inl rfl)⟩
    simp [mkdirStep, MkdirSupervisor.withBuffer, Session.happen, happened]
  next id at_ =>
    obtain ⟨session, received, rfl⟩ := Option.map_eq_some_iff.mp stepped
    obtain ⟨call, world, -, -, -, receives, rfl⟩ := Session.receive_eq_some received
    refine ⟨buffer, ?_, alike.of_fewer rfl (.inr (MkdirSupervisor.present_idle rfl))⟩
    simp [mkdirStep, MkdirSupervisor.withBuffer, Session.receive, receives, at_]
  next errno at_ =>
    refine ⟨buffer, ?_, ?_⟩ <;> split at stepped <;> obtain rfl := Option.some.inj stepped
    · simp [mkdirStep, MkdirSupervisor.withBuffer, *]
    · simp [mkdirStep, MkdirSupervisor.withBuffer, *]
    · exact alike.of_fewer rfl (.inl rfl)
    · exact alike.of_fewer rfl (.inr (MkdirSupervisor.present_idle rfl))
  next at_ =>
    split at stepped
    -- Before the fetch no byte of the buffer counts.
    next unexpected =>
      obtain rfl := Option.some.inj stepped
      refine ⟨buffer, ?_, alike.of_fewer rfl (.inr (MkdirSupervisor.present_idle rfl))⟩
      simp [mkdirStep, MkdirSupervisor.withBuffer, at_, unexpected]
    next expected =>
      split at stepped <;> obtain rfl := Option.some.inj stepped
      next delays =>
        refine ⟨buffer, ?_, alike.of_fewer rfl (.inr (MkdirSupervisor.present_idle rfl))⟩
        simp [mkdirStep, MkdirSupervisor.withBuffer, at_, not_not.mp expected, delays]
      next hurries =>
        refine ⟨buffer, ?_, alike.of_fewer rfl (.inr rfl)⟩
        simp [mkdirStep, MkdirSupervisor.withBuffer, at_, not_not.mp expected, hurries,
          Session.callFetch]
  next at_ =>
    refine ⟨buffer, ?_, ?_⟩ <;> split at stepped <;> obtain rfl := Option.some.inj stepped
    · simp [mkdirStep, MkdirSupervisor.withBuffer, *]
    · simp [mkdirStep, MkdirSupervisor.withBuffer, *]
    · exact alike.of_fewer rfl (.inr (MkdirSupervisor.present_idle rfl))
    · exact alike.of_fewer rfl (.inr (MkdirSupervisor.present_idle rfl))
  next at_ =>
    refine ⟨buffer, ?_, ?_⟩ <;> split at stepped <;> obtain rfl := Option.some.inj stepped
    · simp [mkdirStep, MkdirSupervisor.withBuffer, Session.callFetch, *]
    · simp [mkdirStep, MkdirSupervisor.withBuffer, *]
    · exact alike.of_fewer rfl (.inr rfl)
    · exact alike.of_fewer rfl (.inr (MkdirSupervisor.present_idle rfl))
  -- The function does the same with both buffers, and reads the same bytes into them.
  next goesAlong at_ =>
    obtain ⟨session, fetched, rfl⟩ := Option.map_eq_some_iff.mp stepped
    have running : supervisor.session.fetch.pc.failed = false := fetchStep_running fetched
    have same := alike.present
    rw [MkdirSupervisor.present, if_pos (by simp [at_, running, MkdirPc.acting])] at same
    obtain ⟨last, took, length, present⟩ := fetchStep_alike alike.length same fetched
    refine ⟨last, ?_, length, ?_⟩
    · simp [mkdirStep, MkdirSupervisor.withBuffer, at_, took]
    · unfold MkdirSupervisor.present
      split
      · exact present
      · rfl
  next at_ =>
    split at stepped
    -- The decision is about the string, which is the same.
    next returned =>
      obtain rfl := Option.some.inj stepped
      have acting : supervisor.pc.acting = true := by rw [at_, MkdirPc.acting]
      have string := alike.string validated acting returned
      refine ⟨buffer, ?_, alike.of_fewer (path_decide _ _) (.inl ?_)⟩
      · have decided := decide_withBuffer supervisor
          (show Session.string { supervisor.session.prepopulate with path := buffer } =
            supervisor.session.prepopulate.string from string)
        rw [← decided]
        simp [mkdirStep, MkdirSupervisor.withBuffer, at_, returned, Session.prepopulate]
      · have prepopulated : supervisor.session.prepopulate.fetch.pc = .returned .success :=
          returned
        rw [MkdirSupervisor.present_acting acting returned, present_decide prepopulated]
        rfl
    -- After a failed fetch no byte of the buffer counts any more.
    next status other returned =>
      obtain rfl := Option.some.inj stepped
      have failed : supervisor.session.fetch.pc.failed = true := by
        rw [returned]
        cases status with
        | success => exact absurd rfl other
        | _ => rfl
      refine ⟨buffer, ?_, alike.of_fewer rfl (.inr ?_)⟩
      · simp [mkdirStep, MkdirSupervisor.withBuffer, at_, returned, Session.prepopulate,
          Session.respond]
      · simp [MkdirSupervisor.present, Session.prepopulate, Session.respond, failed]
    next => cases stepped
  -- The directory that is made has the name that has been fetched, in both runs.
  next at_ =>
    obtain rfl := Option.some.inj stepped
    have success := validated.succeeded at_
    have acting : supervisor.pc.acting = true := by rw [at_, MkdirPc.acting]
    have string := alike.string validated acting success
    refine ⟨buffer, ?_, alike.of_fewer rfl (.inl ?_)⟩
    · simp only [mkdirStep, MkdirSupervisor.withBuffer, at_] at string ⊢
      rw [string]
      rfl
    · rw [MkdirSupervisor.present_acting acting success]
      simp [MkdirSupervisor.present, MkdirPc.acting, FetchPc.failed, Session.respond, success]
  next errno at_ =>
    split at stepped
    next positive =>
      obtain rfl := Option.some.inj stepped
      refine ⟨buffer, ?_, alike.of_fewer rfl (.inl ?_)⟩
      · simp [mkdirStep, MkdirSupervisor.withBuffer, at_, positive, Session.respond]
      · simp [MkdirSupervisor.present, MkdirPc.acting, at_, Session.respond]
    next => cases stepped
  -- Both record the same answer.
  next made at_ =>
    obtain rfl := Option.some.inj stepped
    have acting : supervisor.pc.acting = true := by rw [at_, MkdirPc.acting]
    have sameFetched := alike.fetched validated acting
    refine ⟨buffer, ?_, alike.of_fewer rfl (.inl ?_)⟩
    · simp only [mkdirStep, MkdirSupervisor.withBuffer, at_] at sameFetched ⊢
      rw [sameFetched]
      rfl
    · simp [MkdirSupervisor.present, MkdirPc.acting, at_, Session.send]
  next at_ =>
    have agree := alike.bye validated noStray noStrayEither at_
    refine ⟨buffer, ?_, alike.of_fewer ?_ (.inr ?_)⟩
    · simp only [mkdirStep, at_, MkdirSupervisor.withBuffer] at agree ⊢
      simp only [agree]
      split at stepped <;> obtain rfl := Option.some.inj stepped
      · simp [*]
      · simp [*]
    · split at stepped <;> obtain rfl := Option.some.inj stepped <;> rfl
    · split at stepped <;> obtain rfl := Option.some.inj stepped <;>
        exact MkdirSupervisor.present_idle rfl
  next => cases stepped

/-- A supervisor with an alike buffer takes all the same steps. -/
theorem MkdirSupervisor.Alike.run {actions : List MkdirAction} {finish : MkdirSupervisor}
    {buffer : List UInt8} (alike : supervisor.Alike buffer) (validated : supervisor.Validated)
    (along : (mkdirSupervisor opts).Along NoStrayBye supervisor actions)
    (alongEither : (mkdirSupervisor opts).Along NoStrayBye (supervisor.withBuffer buffer) actions)
    (ran : (mkdirSupervisor opts).run supervisor actions = some finish) :
    ∃ last, (mkdirSupervisor opts).run (supervisor.withBuffer buffer) actions =
      some (finish.withBuffer last) := by
  -- The induction follows both runs, and the buffers stay alike from step to step.
  induction actions generalizing supervisor buffer with
  | nil =>
    obtain rfl := Option.some.inj ran
    exact ⟨buffer, rfl⟩
  | cons action rest ih =>
    obtain ⟨middle, stepped, remaining⟩ := Machine.run_cons_eq_some _ |>.mp ran
    obtain ⟨other, steppedEither, alike⟩ :=
      alike.step validated along.1 alongEither.1 stepped
    obtain ⟨last, ranEither⟩ := ih alike (validated.step along.1 stepped)
      (along.2 middle stepped) (alongEither.2 _ steppedEither) remaining
    exact ⟨last, (Machine.run_cons_eq_some _).mpr ⟨_, steppedEither, ranEither⟩⟩

/-- What a failed fetch has left has the supervisor leave its loop. -/
theorem MkdirSupervisor.Validated.not_acts {action : MkdirAction}
    (validated : supervisor.Validated) (stray : ¬ NoStrayBye supervisor action)
    (stepped : mkdirStep opts supervisor action = some next) : ¬ next.ActsOnValidated opts := by
  -- Only the check for `"/bye"` looks at a buffer that a failed fetch has left.
  unfold mkdirStep at stepped
  dsimp only at stepped
  split at stepped
  case h_12 at_ =>
    obtain ⟨failed, isBye⟩ := Classical.not_imp.mp stray
    rw [if_pos (not_not.mp isBye), Option.some.injEq] at stepped
    obtain ⟨before, answer, sent, same⟩ := validated.last at_
    intro acts
    obtain ⟨earlier, validatedAnswer, ends, fetched⟩ := acts.leaves (by rw [← stepped])
    -- The last answer is one and the same, and its fetch has failed.
    rw [← stepped] at ends
    obtain ⟨-, one⟩ := List.append_inj' (sent.symm.trans ends) rfl
    obtain rfl := (List.cons.inj one).1
    exact nomatch (fetched.symm.trans same).trans failed
  case h_13 => exact nomatch stepped
  all_goals exact absurd trivial stray

/--
Where no failed fetch leaves `"/bye"`, the supervisor acts on validated pathnames only.

The first that does ends this.
-/
theorem mkdirSupervisor_actsOnValidated {path : List UInt8} {actions : List MkdirAction}
    {supervisor : MkdirSupervisor}
    (along : (mkdirSupervisor opts).Along NoStrayBye (MkdirSupervisor.initial path) actions)
    (ran : (mkdirSupervisor opts).run (MkdirSupervisor.initial path) actions = some supervisor) :
    supervisor.ActsOnValidated opts ∧ ∀ action next, ¬ NoStrayBye supervisor action →
      (mkdirSupervisor opts).step supervisor action = some next → ¬ next.ActsOnValidated opts := by
  have preserved : ∀ state action next, MkdirSupervisor.Validated state →
      NoStrayBye state action → (mkdirSupervisor opts).step state action = some next →
      next.Validated := fun _ _ _ validated noStray stepped => validated.step noStray stepped
  have initial : (MkdirSupervisor.initial path).Validated :=
    .at (fun returned => nomatch returned) (by simp [MkdirSupervisor.initial])
  -- The pathname stays validated along the run, and alike buffers stay alike.
  have validated := Machine.run_invariant_along preserved initial along ran
  refine ⟨⟨validated.leaves, fun _ _ _ alike alongNext alongEither ranNext => ?_⟩,
    fun _ _ stray stepped => validated.not_acts stray stepped⟩
  exact alike.run validated alongNext alongEither ranNext

/-- Whether something stray is looked at can be found out. -/
instance (supervisor : MkdirSupervisor) : ∀ action, Decidable (NoStrayBye supervisor action)
  | .checkBye => inferInstanceAs (Decidable (_ = none → _ ≠ _))
  | .happens _ | .recv _ | .recvFails _ | .checkNr | .checkId | .fetch _ | .decide | .made
  | .mkdirFails _ | .send => isTrue trivial

/-- `mkdir("/bye")` has the supervisor leave its loop. -/
theorem mkdirSupervisor_actsOnValidated_bye : ∃ supervisor,
    (mkdirSupervisor ⟨0⟩).run MkdirSupervisor.blank
      (fetchesMkdir slashBye ++ [.decide, .send, .checkBye]) = some supervisor ∧
    supervisor.pc = .terminating ∧ supervisor.ActsOnValidated ⟨0⟩ := by
  -- The pathname "/bye" is fetched and validated, and the supervisor ends.
  obtain ⟨supervisor, ran, left⟩ : ∃ supervisor,
      (mkdirSupervisor ⟨0⟩).run MkdirSupervisor.blank
        (fetchesMkdir slashBye ++ [.decide, .send, .checkBye]) = some supervisor ∧
      supervisor.pc = .terminating := ⟨_, rfl, rfl⟩
  exact ⟨supervisor, ran, left, (mkdirSupervisor_actsOnValidated (by decide +kernel) ran).1⟩

/-- The call is interrupted after its pathname has been read and before its ID is checked. -/
def interruptedBye : List MkdirAction :=
  callsMkdir slashBye ++ [.recv 0, .checkNr] ++ List.replicate 9 (.fetch true) ++
    [.happens (.interrupt 0), .fetch true, .decide, .send, .checkBye]

/-- The fetch has failed, and the supervisor leaves its loop all the same. -/
theorem mkdirSupervisor_leaves_unvalidated : ¬ ∀ opts path actions supervisor,
    (mkdirSupervisor opts).run (MkdirSupervisor.initial path) actions = some supervisor →
    supervisor.ActsOnValidated opts := by
  intro acts
  -- The second check of the cookie fails, and the supervisor ends all the same.
  obtain ⟨supervisor, ran, left, sent⟩ : ∃ supervisor,
      (mkdirSupervisor ⟨0⟩).run MkdirSupervisor.blank interruptedBye = some supervisor ∧
      supervisor.pc = .terminating ∧ supervisor.sent = [⟨none, false, ⟨0, 0, -22, 0⟩⟩] :=
    ⟨_, rfl, rfl, rfl⟩
  obtain ⟨before, answer, ends, fetched⟩ := (acts _ _ _ _ ran).leaves left
  have only : answer = ⟨none, false, ⟨0, 0, -22, 0⟩⟩ := by
    have mem : answer ∈ supervisor.sent := ends ▸ List.mem_append_right before List.mem_cons_self
    rw [sent] at mem
    exact List.mem_singleton.mp mem
  rw [only] at fetched
  exact nomatch fetched

end SysProg.Seccomp
