import SysProg.Seccomp.FunctionsLaws
import SysProg.Seccomp.UnotifyOpenat

/-! The supervisor of `seccomp_unotify_openat` answers everything, unless a descriptor fails it. -/

namespace SysProg.Seccomp

variable {supervisor next : OpenatSupervisor}

/-- What the supervisor has promised, in every state it can be in. -/
structure OpenatSupervisor.Serves (supervisor : OpenatSupervisor) : Prop where
  /-- Neither a call that is interrupted nor a descriptor that cannot be added terminates it. -/
  survives : ∀ message, supervisor.pc ≠ .exited message
  /-- No notification is received twice. -/
  distinct : supervisor.received.Nodup
  /-- All notifications but the last have been answered once, in order, each with its own ID. -/
  answered : ∃ outstanding, supervisor.received = supervisor.sent.map (·.id) ++ outstanding ∧
    outstanding.length ≤ 1
  /-- Where the next one is received, the last has been answered too, and nothing is left open. -/
  done : supervisor.pc = .recv → supervisor.received = supervisor.sent.map (·.id) ∧
    supervisor.fds = [] ∧ supervisor.session.fetch.procMemFd = none

/-- A step of the supervisor's own, between receiving a notification and waiting for the next. -/
def OpenatAction.own : OpenatAction → Bool
  | .happens _ | .recv _ | .recvFails _ | .sigchld => false
  | _ => true

/-- From here the supervisor is soon done with its notification, whatever else happens. -/
structure OpenatSupervisor.GoesOn (supervisor : OpenatSupervisor) : Prop where
  /-- It is never stuck on the way. -/
  enabled : supervisor.pc ≠ .recv → supervisor.pc ≠ .terminated →
    ∃ action next, action.own = true ∧ openatSupervisor.step supervisor action = some next
  /-- It takes a bounded number of steps until it has to receive something. -/
  bounded : ∀ actions finish, openatSupervisor.run supervisor actions = some finish →
    (∀ action ∈ actions, ∀ id, action ≠ .recv id) →
    actions.countP OpenatAction.own ≤ supervisor.session.path.length + 12

/-- The kernel fails the supervisor only where it is prepared for it. -/
def PreparedFor (supervisor : OpenatSupervisor) : OpenatAction → Prop
  | .recvFails errno => errno = eintr
  | .addfd goesAlong =>
    goesAlong = true ∧ supervisor.session.world.cookieIsValid supervisor.session.req.id = true
  | _ => True

/-- Which notifications are answered, and what is open, by the place of the supervisor. -/
def OpenatSupervisor.Placed (supervisor : OpenatSupervisor) : Prop :=
  let answered := supervisor.sent.map (·.id)
  let session := supervisor.session
  match supervisor.pc with
  | .recv => supervisor.received = answered ∧ supervisor.fds = [] ∧ session.fetch.procMemFd = none
  | .checkNr => supervisor.received = answered ++ [session.req.id] ∧ supervisor.fds = [] ∧
    session.req.data.nr = nrOpenat
  | .fetch => supervisor.received = answered ++ [session.req.id] ∧ supervisor.fds = [] ∧
    session.fetch.Tidy
  | .openat => supervisor.received = answered ++ [session.resp.id] ∧ supervisor.fds = [] ∧
    session.fetch.procMemFd = none
  | .addfd fd | .closeFd fd _ => supervisor.received = answered ++ [session.resp.id] ∧
    supervisor.fds = [fd] ∧ session.fetch.procMemFd = none
  | .send => supervisor.received = answered ++ [session.resp.id] ∧ supervisor.fds = [] ∧
    session.fetch.procMemFd = none
  | .exited _ => False
  | .terminated => ∃ outstanding, supervisor.received = answered ++ outstanding ∧
    outstanding.length ≤ 1

/-- What holds in every state that the supervisor reaches where it is prepared for everything. -/
structure OpenatSupervisor.Good (supervisor : OpenatSupervisor) : Prop where
  sound : supervisor.session.world.Sound openatNotifyFilter
  /-- What has been received is not received again. -/
  seen : ∀ id ∈ supervisor.received, id < supervisor.session.world.notified ∧
    ∀ call, supervisor.session.world.blocked id = some call → call.received = true
  distinct : supervisor.received.Nodup
  placed : supervisor.Placed

/-- A good supervisor serves. -/
theorem OpenatSupervisor.Good.serves (good : supervisor.Good) : supervisor.Serves := by
  have placed := good.placed
  unfold OpenatSupervisor.Placed at placed
  refine ⟨?_, good.distinct, ?_, ?_⟩
  -- A good supervisor has not exited, and its place says which notification is outstanding.
  · intro message exited
    rw [exited] at placed
    exact placed
  · split at placed
    · exact ⟨[], by rw [placed.1, List.append_nil], Nat.zero_le _⟩
    all_goals first
      | exact ⟨[_], placed.1, le_refl _⟩
      | exact placed.elim
      | exact placed
  · intro atRecv
    rw [atRecv] at placed
    exact placed

/-- What has been received is known to have been received in later worlds too. -/
theorem seen_later {world later : World} {received : List Nat} (follows : world.Later later)
    (seen : ∀ id ∈ received, id < world.notified ∧
      ∀ call, world.blocked id = some call → call.received = true) :
    ∀ id ∈ received, id < later.notified ∧
      ∀ call, later.blocked id = some call → call.received = true := by
  -- A call that is blocked later was blocked before, and was received by then.
  intro id mem
  obtain ⟨known, before⟩ := seen id mem
  refine ⟨known.trans_le follows.notified, fun call blocked => ?_⟩
  obtain ⟨old, was, -, -, received⟩ := follows.blocked id call known blocked
  exact received (before old was)

/-- What is received is on record from then on. -/
theorem seen_receive {filter : List ClassicBpf.SockFilter} {world later : World}
    {received : List Nat} {id : Nat} {process : Process} {req : SeccompNotif}
    (sound : world.Sound filter)
    (seen : ∀ id ∈ received, id < world.notified ∧
      ∀ call, world.blocked id = some call → call.received = true)
    (receives : world.recv id = some (later, process, req)) :
    ∀ other ∈ received ++ [id], other < later.notified ∧
      ∀ call, later.blocked other = some call → call.received = true := by
  obtain ⟨call, blocked, -, changed, -, -⟩ := World.recv_eq_some receives
  have follows := (sound.recv receives).1
  intro other mem
  obtain old | new := List.mem_append.mp mem
  · exact seen_later follows seen other old
  -- The world has just marked the call of this ID as received.
  · obtain rfl := List.mem_singleton.mp new
    refine ⟨(sound.known other call blocked).trans_le follows.notified, fun after found => ?_⟩
    rw [changed] at found
    obtain ⟨-, same⟩ | ⟨different, -⟩ := blocked_update found
    · exact Option.some.inj same ▸ rfl
    · exact absurd rfl different

/-- Every step that the supervisor is prepared for keeps it good. -/
theorem OpenatSupervisor.Good.step {action : OpenatAction} (good : supervisor.Good)
    (prepared : PreparedFor supervisor action)
    (stepped : openatStep supervisor action = some next) : next.Good := by
  obtain ⟨sound, seen, distinct, placed⟩ := good
  unfold OpenatSupervisor.Placed at placed
  unfold openatStep at stepped
  dsimp only at stepped
  -- One case for each step of the loop, in the order of the source.
  split at stepped
  next happening _ =>
    obtain ⟨session, happens, rfl⟩ := Option.map_eq_some_iff.mp stepped
    obtain ⟨world, happened, rfl⟩ := Session.happen_eq_some happens
    exact ⟨sound.happen happened, seen_later (World.later_of_happen happened) seen, distinct,
      placed⟩
  next id at_ =>
    -- The call has not been received before, so its ID is not on record.
    rw [at_] at placed
    obtain ⟨session, received, rfl⟩ := Option.map_eq_some_iff.mp stepped
    obtain ⟨-, stays, picked⟩ := Session.Notified.of_receive sound received
    obtain ⟨call, world, blocked, fresh, -, receives, rfl⟩ := Session.receive_eq_some received
    have new : id ∉ supervisor.received := fun mem =>
      nomatch fresh.symm.trans ((seen id mem).2 call blocked)
    refine ⟨stays, ?_, ?_, ?_, placed.2.1, nr_of_userNotif picked⟩
    · exact seen_receive sound seen receives
    · exact List.nodup_append.mpr ⟨distinct, List.nodup_singleton id, fun a mem b last =>
        (List.mem_singleton.mp last) ▸ (ne_of_mem_of_not_mem mem new)⟩
    · show supervisor.received ++ [id] = _
      rw [placed.1]
  -- The interrupted call is the one error that the loop goes on after.
  next errno at_ =>
    rw [show errno = eintr from prepared, if_pos rfl, Option.some.injEq] at stepped
    subst stepped
    exact ⟨sound, seen, distinct, by rwa [OpenatSupervisor.Placed]⟩
  -- The filter notifies of nothing but `openat`, so the check passes.
  next at_ =>
    rw [at_] at placed
    rw [if_pos placed.2.2, Option.some.injEq] at stepped
    subst stepped
    exact ⟨sound, seen, distinct, placed.1, placed.2.1, rfl⟩
  next goesAlong at_ =>
    rw [at_] at placed
    obtain ⟨session, fetched, rfl⟩ := Option.map_eq_some_iff.mp stepped
    -- The function changes neither the world nor the notification.
    have sameWorld : session.world = supervisor.session.world := by rw [(fetchStep_frame fetched).1]
    have sameReq : session.req = supervisor.session.req := by rw [(fetchStep_frame fetched).1]
    have moved : OpenatSupervisor.Placed { supervisor with session } := by
      simp only [OpenatSupervisor.Placed, at_, sameReq]
      exact ⟨placed.1, placed.2.1, fetchStep_tidy fetched⟩
    exact ⟨sameWorld.symm ▸ sound, sameWorld.symm ▸ seen, distinct, moved⟩
  next at_ =>
    rw [at_] at placed
    obtain ⟨answered, closed, tidy⟩ := placed
    -- With or without a pathname, a response has been prepared, and the function has closed its
    -- file.
    split at stepped
    next returned =>
      obtain rfl := Option.some.inj stepped
      unfold Fetch.Tidy at tidy
      rw [returned] at tidy
      exact ⟨sound, seen, distinct, answered, closed, tidy⟩
    next returned =>
      obtain rfl := Option.some.inj stepped
      unfold Fetch.Tidy at tidy
      rw [returned] at tidy
      exact ⟨sound, seen, distinct, answered, closed, tidy⟩
    next => exact nomatch stepped
  next fd at_ =>
    rw [at_] at placed
    obtain ⟨answered, closed, tidy⟩ := placed
    split at stepped
    · exact nomatch stepped
    obtain rfl := Option.some.inj stepped
    exact ⟨sound, seen, distinct, answered, by rw [closed], tidy⟩
  next errno at_ =>
    rw [at_] at placed
    obtain rfl := Option.some.inj stepped
    exact ⟨sound, seen, distinct, placed⟩
  -- The supervisor is prepared, so the descriptor is added.
  next goesAlong fd at_ =>
    rw [at_] at placed
    rw [if_pos (show _ ∧ _ from prepared), Option.some.injEq] at stepped
    subst stepped
    exact ⟨sound, seen, distinct, placed⟩
  next fd remoteFd at_ =>
    rw [at_] at placed
    obtain ⟨answered, opened, tidy⟩ := placed
    obtain rfl := Option.some.inj stepped
    exact ⟨sound, seen, distinct, answered, by simp [opened], tidy⟩
  next at_ =>
    rw [at_] at placed
    obtain ⟨answered, closed, tidy⟩ := placed
    obtain rfl := Option.some.inj stepped
    -- The answer is on record, so nothing is outstanding any more.
    obtain ⟨later, stays⟩ := sound.send supervisor.session.resp.id
    refine ⟨stays, seen_later later seen, distinct, ?_, closed, tidy⟩
    simpa using answered
  next => exact nomatch stepped
  -- `SIGCHLD` ends the loop wherever it stands.
  next =>
    obtain rfl := Option.some.inj stepped
    have serves := OpenatSupervisor.Good.serves ⟨sound, seen, distinct, placed⟩
    exact ⟨sound, seen, distinct, serves.answered⟩
  next => exact nomatch stepped

/-- How many steps the supervisor can take at most before it has to receive something. -/
def OpenatSupervisor.remaining (supervisor : OpenatSupervisor) : Nat :=
  match supervisor.pc with
  | .recv | .exited _ | .terminated => 0
  | .checkNr => supervisor.session.path.length + 12
  | .fetch => supervisor.session.fetchSteps + 5
  | .openat => 4
  | .addfd _ => 3
  | .closeFd _ _ => 2
  | .send => 1

/-- Each step of the supervisor's own brings it closer to its next notification. -/
theorem remaining_lowered {action : OpenatAction} (other : ∀ id, action ≠ .recv id)
    (stepped : openatStep supervisor action = some next) :
    next.remaining + (if action.own then 1 else 0) ≤ supervisor.remaining := by
  -- Each place counts one less than the one before it, and the function counts for itself.
  unfold openatStep at stepped
  dsimp only at stepped
  split at stepped
  next happening _ =>
    obtain ⟨session, happens, rfl⟩ := Option.map_eq_some_iff.mp stepped
    obtain ⟨world, happened, rfl⟩ := Session.happen_eq_some happens
    exact le_refl _
  next id at_ => exact absurd rfl (other id)
  next errno at_ =>
    split at stepped <;> obtain rfl := Option.some.inj stepped
    · exact le_refl _
    · exact Nat.zero_le _
  next at_ =>
    split at stepped <;> obtain rfl := Option.some.inj stepped <;>
      simp [OpenatSupervisor.remaining, at_, OpenatAction.own, Session.callFetch, Fetch.start,
        Session.fetchSteps]
  next goesAlong at_ =>
    obtain ⟨session, fetched, rfl⟩ := Option.map_eq_some_iff.mp stepped
    have fewer := fetchSteps_lt fetched
    simp only [OpenatSupervisor.remaining, at_, OpenatAction.own, if_pos]
    omega
  next at_ =>
    split at stepped <;> cases stepped <;>
      simp [OpenatSupervisor.remaining, at_, OpenatAction.own]
  next fd at_ =>
    split at stepped <;> cases stepped
    simp [OpenatSupervisor.remaining, at_, OpenatAction.own]
  next errno at_ =>
    obtain rfl := Option.some.inj stepped
    simp [OpenatSupervisor.remaining, at_, OpenatAction.own]
  next goesAlong fd at_ =>
    split at stepped <;> obtain rfl := Option.some.inj stepped <;>
      simp [OpenatSupervisor.remaining, at_, OpenatAction.own]
  all_goals
    cases stepped
    try simp [OpenatSupervisor.remaining, OpenatAction.own, *]

/-- The steps that are left are bounded by the size of the buffer. -/
theorem remaining_le (supervisor : OpenatSupervisor) :
    supervisor.remaining ≤ supervisor.session.path.length + 12 := by
  -- Fetching takes as many steps as the buffer has bytes, and a few more.
  have fetching : supervisor.session.fetchSteps ≤ supervisor.session.path.length + 6 := by
    unfold Session.fetchSteps
    split <;> omega
  unfold OpenatSupervisor.remaining
  split <;> omega

/-- A good supervisor goes on until it has to receive something. -/
theorem OpenatSupervisor.Good.goesOn (good : supervisor.Good) : supervisor.GoesOn := by
  refine ⟨fun notRecv notTerminated => ?_, fun actions finish ran others => ?_⟩
  · have placed := good.placed
    unfold OpenatSupervisor.Placed at placed
    show ∃ action next, _ ∧ openatStep supervisor action = some next
    -- One step that is possible for each place, whatever the kernel answers.
    cases at_ : supervisor.pc with
    | recv => exact absurd at_ notRecv
    | checkNr =>
      rw [at_] at placed
      refine ⟨.checkNr, ?_⟩
      simp only [openatStep, at_, if_pos placed.2.2]
      exact ⟨_, rfl, rfl⟩
    | fetch =>
      by_cases returned : ∃ status, supervisor.session.fetch.pc = .returned status
      · obtain ⟨status, returned⟩ := returned
        refine ⟨.prepopulate, ?_⟩
        cases status <;> simp only [openatStep, at_, returned] <;> exact ⟨_, rfl, rfl⟩
      · obtain ⟨next, fetched⟩ := fetchStep_enabled 1 (not_exists.mp returned)
        refine ⟨.fetch true, ?_⟩
        simp only [openatStep, at_, fetched]
        exact ⟨_, rfl, rfl⟩
    | openat =>
      refine ⟨.openFails 0, ?_⟩
      simp only [openatStep, at_]
      exact ⟨_, rfl, rfl⟩
    | addfd fd =>
      refine ⟨.addfd true, ?_⟩
      simp only [openatStep, at_]
      split <;> exact ⟨_, rfl, rfl⟩
    | closeFd fd remoteFd =>
      refine ⟨.closeFd, ?_⟩
      simp only [openatStep, at_]
      exact ⟨_, rfl, rfl⟩
    | send =>
      refine ⟨.send, ?_⟩
      simp only [openatStep, at_]
      exact ⟨_, rfl, rfl⟩
    | exited message =>
      rw [at_] at placed
      exact placed.elim
    | terminated => exact absurd at_ notTerminated
  -- The number of steps that are left is lowered by each of them.
  · have along : openatSupervisor.Along (fun _ action => ∀ id, action ≠ .recv id) supervisor
        actions := Machine.along_of_mem (fun action mem _ => others action mem) supervisor
    have lowered : ∀ state action next, True → (∀ id, action ≠ OpenatAction.recv id) →
        openatSupervisor.step state action = some next →
        next.remaining + (if action.own then 1 else 0) ≤ state.remaining :=
      fun _ _ _ _ other stepped => remaining_lowered other stepped
    have paid := Machine.run_progress_le_along (fun _ _ _ _ _ => trivial) lowered trivial along ran
    exact (Nat.le_add_right _ _).trans (paid.trans (remaining_le supervisor))

/-- The supervisor starts good. -/
theorem OpenatSupervisor.initial_good (path : List UInt8) : (initial path).Good where
  -- No notification has been received.
  sound := World.initial_sound
  seen _ mem := absurd mem List.not_mem_nil
  distinct := List.nodup_nil
  placed := ⟨rfl, rfl, rfl⟩

/-- What the supervisor is not prepared for always ends it, be it a call or a descriptor. -/
theorem not_serves_of_not_prepared {action : OpenatAction}
    (unprepared : ¬ PreparedFor supervisor action)
    (stepped : openatStep supervisor action = some next) : ¬ next.Serves := by
  suffices exited : ∃ message, next.pc = .exited message by
    intro serves
    obtain ⟨message, exited⟩ := exited
    exact serves.survives message exited
  -- Only two steps need preparation, and either of them exits where it is missing.
  unfold openatStep at stepped
  dsimp only at stepped
  split at stepped
  case h_3 errno at_ =>
    rw [if_neg (show ¬ errno = eintr from unprepared), Option.some.injEq] at stepped
    exact ⟨.notifRecv, by rw [← stepped]⟩
  case h_9 goesAlong fd at_ =>
    rw [if_neg (show ¬ (_ ∧ _) from unprepared), Option.some.injEq] at stepped
    exact ⟨.notifAddfd, by rw [← stepped]⟩
  case h_12 | h_14 => exact nomatch stepped
  all_goals exact absurd trivial unprepared

/-- Whether the supervisor is prepared for an action can be found out. -/
instance (supervisor : OpenatSupervisor) :
    ∀ action, Decidable (PreparedFor supervisor action)
  | .recvFails errno => inferInstanceAs (Decidable (errno = eintr))
  | .addfd _ => inferInstanceAs (Decidable (_ ∧ _))
  | .happens _ | .recv _ | .checkNr | .fetch _ | .prepopulate | .opened _ | .openFails _
  | .closeFd | .send | .sigchld => isTrue trivial

/-- A process calls `openat`, and the supervisor opens the file. -/
def opensForTarget : List OpenatAction :=
  callsOpenat.map .happens ++ [.recv 0, .checkNr] ++ List.replicate 8 (.fetch true) ++
    [.prepopulate, .opened 3]

end SysProg.Seccomp
