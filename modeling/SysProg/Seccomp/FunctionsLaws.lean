import SysProg.Seccomp.Functions
import SysProg.Seccomp.WorldLaws

/-! A pathname that is fetched with success has been read from the process blocked in the call. -/

namespace SysProg.Seccomp

variable {filter : List ClassicBpf.SockFilter} {argNum : Fin 6} {session next : Session}

/-- The call that the supervisor has been notified of. -/
def Session.theCall (session : Session) : Call :=
  ⟨session.notifier, session.req.data, true⟩

/-- The process that made the call is still blocked in it. -/
def Session.StillBlocked (session : Session) : Prop :=
  session.world.blocked session.req.id = some session.theCall

/-- The notification ID can stand for nothing but the call. -/
structure Session.Notified (session : Session) : Prop where
  known : session.req.id < session.world.notified
  samePid : session.notifier.pid = session.req.pid
  only : ∀ call, session.world.blocked session.req.id = some call → call = session.theCall

/-- The ID is valid exactly while the process is blocked in the call. -/
theorem Session.Notified.cookieIsValid_iff (notified : session.Notified) :
    session.world.cookieIsValid session.req.id = true ↔ session.StillBlocked := by
  -- A valid ID stands for a call, and by what is known for this one.
  unfold World.cookieIsValid
  cases blocked : session.world.blocked session.req.id with
  | none => simp [Session.StillBlocked, blocked]
  | some call =>
    obtain rfl := notified.only call blocked
    exact ⟨fun _ => blocked, fun _ => rfl⟩

/-- In a later world the ID still stands for nothing else. -/
theorem Session.Notified.later (notified : session.Notified) {world : World}
    (later : session.world.Later world) : Session.Notified { session with world } := by
  refine ⟨notified.known.trans_le later.notified, notified.samePid, fun call blocked => ?_⟩
  obtain ⟨before, was, process, data, received⟩ := later.blocked _ call notified.known blocked
  obtain rfl := notified.only before was
  -- The call was received before, so it is received now, and nothing else of it can change.
  obtain ⟨_, _, _⟩ := call
  obtain rfl := process
  obtain rfl := data
  obtain rfl := received rfl
  rfl

/-- A process that is blocked in the call in a later world was blocked in it before. -/
theorem Session.Notified.stillBlocked_of_later (notified : session.Notified) {world : World}
    (later : session.world.Later world)
    (still : Session.StillBlocked { session with world }) : session.StillBlocked := by
  -- The later world has no call at the ID that was not there before.
  obtain ⟨before, was, -⟩ := later.blocked _ _ notified.known still
  obtain rfl := notified.only before was
  exact was

/-- What a supervisor is notified of. -/
theorem Session.receive_eq_some {id : Nat} (received : session.receive id = some next) :
    ∃ call world, session.world.blocked id = some call ∧ call.received = false ∧
      world.blocked = Function.update session.world.blocked id
        (some { call with received := true }) ∧
      session.world.recv id = some (world, call.process, ⟨id, call.process.pid, call.data⟩) ∧
      next = { session with
        world, notifier := call.process, req := ⟨id, call.process.pid, call.data⟩ } := by
  simp only [Session.receive, Option.map_eq_some_iff] at received
  obtain ⟨⟨world, notifier, req⟩, received, rfl⟩ := received
  -- A notification is received of a call that is blocked and was not received before.
  obtain ⟨call, blocked, fresh, rfl, rfl, rfl⟩ := World.recv_eq_some received
  exact ⟨call, _, blocked, fresh, rfl, received, rfl⟩

/-- A supervisor that has just been notified of a call. -/
theorem Session.Notified.of_receive (sound : session.world.Sound filter) {id : Nat}
    (received : session.receive id = some next) :
    next.Notified ∧ next.world.Sound filter ∧ verdict filter next.req.data = some .userNotif := by
  -- The ID was taken from the world, where it now stands for the received call.
  obtain ⟨call, world, blocked, -, blocks, receives, rfl⟩ := Session.receive_eq_some received
  obtain ⟨later, nextSound⟩ := sound.recv receives
  refine ⟨⟨(sound.known id call blocked).trans_le later.notified, rfl, fun other found => ?_⟩,
    nextSound, sound.picked id call blocked⟩
  have found : Function.update session.world.blocked id (some { call with received := true }) id =
      some other := blocks ▸ found
  rw [Function.update_self] at found
  exact (Option.some.inj found).symm

/-- After these places the second check of the ID has succeeded. -/
def FetchPc.Verified (pc : FetchPc) : Prop :=
  pc = .strnlen ∨ pc = .returned .success

/-- What there is to say about `getTargetPathname` at any place. -/
structure Session.Fetching (argNum : Fin 6) (session : Session) : Prop where
  notified : session.Notified
  /-- The PID cannot have been recycled before `open` if the process is still blocked. -/
  opened : session.StillBlocked → ∀ process, session.fetch.procMemFd = some process →
    process = session.notifier
  fits : session.fetch.copied.length ≤ session.path.length
  /-- The bytes are read in order, and none is written over. -/
  kept : ∀ index entry, session.fetch.copied[index]? = some entry →
    entry.address = (session.req.data.args argNum).toNat + index ∧
      session.path[index]? = some entry.byte
  genuine : session.StillBlocked ∨ session.fetch.pc.Verified →
    ∀ entry ∈ session.fetch.copied, entry.process = session.notifier ∧
      entry.call = some session.theCall
  terminated : session.fetch.pc = .returned .success →
    0 ∈ session.path.take session.fetch.copied.length

/-- The function starts with nothing copied. -/
theorem Session.Notified.fetching (notified : session.Notified) :
    session.callFetch.Fetching argNum where
  -- Nothing was copied yet, so nothing is said of the buffer.
  notified := ⟨notified.known, notified.samePid, notified.only⟩
  opened _ _ opened := nomatch opened
  fits := Nat.zero_le _
  kept _ _ found := nomatch found
  genuine _ _ mem := nomatch mem
  terminated returned := nomatch returned

/-- What happens to the other processes can only end the call. -/
theorem Session.Fetching.later (fetching : session.Fetching argNum) {world : World}
    (later : session.world.Later world) : Session.Fetching argNum { session with world } where
  -- A later world may unblock the call, but the session's own variables are the same.
  notified := fetching.notified.later later
  opened still := fetching.opened (fetching.notified.stillBlocked_of_later later still)
  fits := fetching.fits
  kept := fetching.kept
  genuine verified :=
    fetching.genuine (verified.imp_left (fetching.notified.stillBlocked_of_later later))
  terminated := fetching.terminated

/-- Going on at another place keeps what is known, if the place and the descriptor do. -/
theorem Session.Fetching.fetchAt (fetching : session.Fetching argNum) {pc : FetchPc}
    {procMemFd : Option Process}
    (opened : session.StillBlocked → ∀ process, procMemFd = some process →
      process = session.notifier)
    (verified : pc.Verified → session.StillBlocked ∨ session.fetch.pc.Verified)
    (terminated : pc = .returned .success → 0 ∈ session.path.take session.fetch.copied.length) :
    (session.fetchAt pc procMemFd).Fetching argNum where
  -- Only the place and the descriptor change, and they fit by assumption.
  notified := ⟨fetching.notified.known, fetching.notified.samePid, fetching.notified.only⟩
  opened := opened
  fits := fetching.fits
  kept := fetching.kept
  genuine known := fetching.genuine (known.elim .inl verified)
  terminated := terminated

/-- The descriptor is given up, or has been. -/
theorem no_process {P : Process → Prop} :
    ∀ process, (none : Option Process) = some process → P process :=
  fun _ found => nomatch found

/-- As long as the process is blocked, its PID stands for it. -/
theorem Session.Notified.openMem (notified : session.Notified)
    (sound : session.world.Sound filter) (still : session.StillBlocked) {process : Process}
    (opened : session.world.openMem session.req.pid = some process) :
    process = session.notifier := by
  -- The world keeps a process that is blocked alive, so its PID is not recycled.
  have alive : session.world.holder session.notifier.pid = some session.notifier.birth :=
    sound.alive _ _ still
  rw [World.openMem, ← notified.samePid, alive] at opened
  exact (Option.some.inj opened).symm

/-- What is known of the next byte that is copied. -/
theorem Session.nextByte_eq_some {entry : Copied} (read : session.nextByte argNum = some entry) :
    session.fetch.copied.length < session.path.length ∧
      session.fetch.procMemFd = some entry.process ∧
      entry.address = (session.req.data.args argNum).toNat + session.fetch.copied.length ∧
      session.world.readMem entry.process entry.address = some entry.byte ∧
      entry.call = session.world.blocked session.req.id := by
  simp only [Session.nextByte, Option.ite_none_right_eq_some, Option.bind_eq_some_iff,
    Option.map_eq_some_iff] at read
  -- There is room in the buffer, the memory is open, and the byte is mapped.
  obtain ⟨room, process, opened, byte, mapped, rfl⟩ := read
  exact ⟨room, opened, rfl, mapped, rfl⟩

/-- The session after one more byte has been copied. -/
def Session.copy (session : Session) (entry : Copied) : Session :=
  { session with
    path := session.path.set session.fetch.copied.length entry.byte
    fetch := { session.fetch with copied := session.fetch.copied ++ [entry] } }

/-- Copying a byte keeps what is known. -/
theorem Session.Fetching.copy (fetching : session.Fetching argNum)
    (reading : session.fetch.pc = .pread) {entry : Copied}
    (read : session.nextByte argNum = some entry) : (session.copy entry).Fetching argNum := by
  obtain ⟨room, opened, address, -, call⟩ := Session.nextByte_eq_some read
  constructor
  case notified =>
    exact ⟨fetching.notified.known, fetching.notified.samePid, fetching.notified.only⟩
  case opened => exact fetching.opened
  case fits =>
    show (session.fetch.copied ++ [entry]).length ≤ (session.path.set _ _).length
    rw [List.length_append, List.length_set]
    exact room
  case kept =>
    intro index other found
    show _ ∧ (session.path.set session.fetch.copied.length entry.byte)[index]? = _
    -- An entry is either the new one, or one that stands before it.
    by_cases before : index < session.fetch.copied.length
    · have found : session.fetch.copied[index]? = some other :=
        (List.getElem?_append_left before).symm.trans found
      obtain ⟨address, byte⟩ := fetching.kept index other found
      rw [List.getElem?_set_ne (Nat.ne_of_gt before)]
      exact ⟨address, byte⟩
    · have found : [entry][index - session.fetch.copied.length]? = some other :=
        (List.getElem?_append_right (Nat.not_lt.mp before)).symm.trans found
      obtain ⟨last, rfl⟩ := List.getElem?_eq_some_iff.mp found
      obtain rfl : index = session.fetch.copied.length := by
        rw [List.length_singleton] at last
        omega
      simp only [Nat.sub_self, List.getElem_cons_zero]
      exact ⟨address, List.getElem?_set_self room⟩
  case genuine =>
    intro known other mem
    -- While bytes are being copied, only the call itself can vouch for them.
    have still : session.StillBlocked := by
      obtain still | verified := known
      · exact still
      · obtain later | later := show session.fetch.pc.Verified from verified <;>
          exact nomatch reading.symm.trans later
    -- The old bytes are genuine already, and the new one is read through the descriptor of the
    -- process.
    obtain mem | mem := List.mem_append.mp mem
    · exact fetching.genuine (.inl still) other mem
    · obtain rfl := List.mem_singleton.mp mem
      exact ⟨fetching.opened still _ opened, call.trans still⟩
  case terminated =>
    intro returned
    exact nomatch reading.symm.trans returned

/-- A step copies the next byte, or goes on at another place. -/
theorem fetchStep_cases {goesAlong : Bool}
    (stepped : fetchStep argNum session goesAlong = some next) :
    (∃ entry, next = session.copy entry ∧ session.fetch.pc = .pread ∧
      session.nextByte argNum = some entry ∧ goesAlong = true) ∨
      ∃ pc procMemFd, next = session.fetchAt pc procMemFd := by
  -- Only `pread` copies anything, and every other branch goes on at another place.
  unfold fetchStep at stepped
  split at stepped <;> dsimp only at stepped <;> (try split at stepped) <;>
    (try split at stepped) <;> cases stepped <;>
    first
    | exact .inr ⟨_, _, rfl⟩
    | exact .inl ⟨_, rfl, by assumption, by assumption, by assumption⟩

/-- A byte that has been copied by a step is the next byte, and no other step copies any. -/
theorem fetchStep_copied {goesAlong : Bool}
    (stepped : fetchStep argNum session goesAlong = some next) :
    ∀ entry ∈ next.fetch.copied, entry ∈ session.fetch.copied ∨
      goesAlong = true ∧ session.fetch.pc = .pread ∧ session.nextByte argNum = some entry := by
  intro entry mem
  -- A step copies a byte, or leaves what was copied.
  obtain ⟨added, rfl, at_, read, goes⟩ | ⟨_, _, rfl⟩ := fetchStep_cases stepped
  · obtain mem | mem := List.mem_append.mp mem
    · exact .inl mem
    · obtain rfl := List.mem_singleton.mp mem
      exact .inr ⟨goes, at_, read⟩
  · exact .inl mem

/-- The function changes nothing but its own state and the buffer. -/
theorem fetchStep_frame {goesAlong : Bool}
    (stepped : fetchStep argNum session goesAlong = some next) :
    next = { session with fetch := next.fetch, path := next.path } ∧
      next.path.length = session.path.length := by
  obtain ⟨entry, rfl, -⟩ | ⟨pc, procMemFd, rfl⟩ := fetchStep_cases stepped
  · exact ⟨rfl, List.length_set⟩
  · exact ⟨rfl, rfl⟩

/-- Every step of the function keeps what is known. -/
theorem Session.Fetching.step (fetching : session.Fetching argNum)
    (sound : session.world.Sound filter) {goesAlong : Bool}
    (stepped : fetchStep argNum session goesAlong = some next) :
    next.Fetching argNum := by
  -- Before the second check nothing is promised but what the descriptor refers to.
  have anywhere : ∀ {pc procMemFd}, ¬ pc.Verified → (session.StillBlocked →
      ∀ process, procMemFd = some process → process = session.notifier) →
      (session.fetchAt pc procMemFd).Fetching argNum := by
    intro pc procMemFd unverified opened
    exact fetching.fetchAt opened (fun verified => absurd verified unverified)
      fun returned => absurd (.inr returned) unverified
  unfold fetchStep at stepped
  split at stepped
  next at_ =>
    -- Whoever has the PID now is the process that made the call, if it is still blocked.
    split at stepped
    next process found =>
      split at stepped <;> obtain rfl := Option.some.inj stepped
      · refine anywhere (by simp [FetchPc.Verified]) fun still other same => ?_
        obtain rfl := Option.some.inj same
        exact fetching.notified.openMem sound still found
      · exact anywhere (by simp [FetchPc.Verified]) fun _ => no_process
    next =>
      obtain rfl := Option.some.inj stepped
      exact anywhere (by simp [FetchPc.Verified]) fun _ => no_process
  -- The descriptor is there, or `open` has failed.
  next at_ =>
    dsimp only at stepped
    split at stepped <;> obtain rfl := Option.some.inj stepped
    · exact anywhere (by simp [FetchPc.Verified]) fetching.opened
    · exact anywhere (by simp [FetchPc.Verified]) fun _ => no_process
  -- A byte is copied, or `pread` has come to its end.
  next at_ =>
    split at stepped
    next entry read =>
      split at stepped <;> obtain rfl := Option.some.inj stepped
      · exact fetching.copy at_ read
      · exact anywhere (by simp [FetchPc.Verified]) fetching.opened
    next =>
      obtain rfl := Option.some.inj stepped
      exact anywhere (by simp [FetchPc.Verified]) fetching.opened
  next at_ =>
    dsimp only at stepped
    split at stepped <;> obtain rfl := Option.some.inj stepped <;>
      exact anywhere (by simp [FetchPc.Verified]) fun _ => no_process
  next at_ =>
    -- The second check is what makes the bytes genuine from here on.
    dsimp only at stepped
    split at stepped <;> obtain rfl := Option.some.inj stepped
    next valid =>
      have still := fetching.notified.cookieIsValid_iff.mp valid
      exact fetching.fetchAt (fun _ => no_process) (fun _ => .inl still) (by simp)
    next => exact anywhere (by simp [FetchPc.Verified]) fun _ => no_process
  -- The function returns 0 only after it has seen a null byte.
  next at_ =>
    dsimp only at stepped
    split at stepped <;> obtain rfl := Option.some.inj stepped
    next terminated =>
      exact fetching.fetchAt (fun _ => no_process) (fun _ => .inr (.inl at_)) fun _ => terminated
    next => exact anywhere (by simp [FetchPc.Verified]) fun _ => no_process
  next => exact nomatch stepped

/-- Outside the stretch from `open` to `close` there is no descriptor. -/
def Fetch.Tidy (fetch : Fetch) : Prop :=
  match fetch.pc with
  | .checkOpened | .pread | .closeMem => True
  | _ => fetch.procMemFd = none

/-- The descriptor is closed on every way out of the function. -/
theorem fetchStep_tidy {goesAlong : Bool}
    (stepped : fetchStep argNum session goesAlong = some next) : next.fetch.Tidy := by
  -- Each branch that leaves the stretch gives up the descriptor.
  unfold fetchStep at stepped
  split at stepped <;> dsimp only at stepped <;> (try split at stepped) <;>
    (try split at stepped) <;> cases stepped <;>
    first
    | exact rfl
    | exact trivial
    | simp [Fetch.Tidy, *]

/-- Where the function returns 0, there is a null byte among those it has read. -/
theorem fetchStep_terminated {goesAlong : Bool}
    (stepped : fetchStep argNum session goesAlong = some next)
    (success : next.fetch.pc = .returned .success) :
    0 ∈ next.path.take next.fetch.copied.length := by
  -- The branch that returns 0 has made the check.
  unfold fetchStep at stepped
  split at stepped <;> dsimp only at stepped <;> (try split at stepped) <;>
    (try split at stepped) <;> cases stepped <;>
    simp_all [Session.fetchAt]

/-- A bound on the steps that are left before the function has returned. -/
def Session.fetchSteps (session : Session) : Nat :=
  match session.fetch.pc with
  | .openMem => session.path.length + 6
  | .checkOpened => session.path.length + 5
  | .pread => session.path.length - session.fetch.copied.length + 4
  | .closeMem => 3
  | .checkRead => 2
  | .strnlen => 1
  | .returned _ => 0

/-- Every step of the function brings it closer to its return. -/
theorem fetchSteps_lt {goesAlong : Bool}
    (stepped : fetchStep argNum session goesAlong = some next) :
    next.fetchSteps < session.fetchSteps := by
  -- The places come one after the other, and `pread` stays while there is room.
  unfold fetchStep at stepped
  split at stepped <;> dsimp only at stepped <;> (try split at stepped) <;>
    (try split at stepped) <;> cases stepped <;>
    simp [Session.fetchSteps, Session.fetchAt, *]
  next read _ =>
    -- A byte is copied only where there is room for it.
    have room := (Session.nextByte_eq_some read).1
    omega

/-- As long as the function has not returned, it can go on. -/
theorem fetchStep_enabled (argNum : Fin 6)
    (running : ∀ status, session.fetch.pc ≠ .returned status) :
    ∃ next, fetchStep argNum session true = some next := by
  unfold fetchStep
  split
  -- The function has returned only in the last of its places.
  case h_7 status returned => exact absurd returned (running status)
  all_goals
    dsimp only
    (try split) <;> (try split) <;> exact ⟨_, rfl⟩

/-- Something happens to the other processes in a session. -/
theorem Session.happen_eq_some {happening : Happening}
    (happens : session.happen filter happening = some next) :
    ∃ world, session.world.happen filter happening = some world ∧
      next = { session with world } := by
  obtain ⟨world, happened, rfl⟩ := Option.map_eq_some_iff.mp happens
  exact ⟨world, happened, rfl⟩

/-- What holds of a program that calls `getTargetPathname`, wherever it stands. -/
structure Caller.Good (filter : List ClassicBpf.SockFilter) (argNum : Fin 6) (caller : Caller) :
    Prop where
  sound : caller.session.world.Sound filter
  fetching : caller.calling = true → caller.session.Fetching argNum
  uncalled : caller.calling = false → caller.session.fetch.pc = .returned .badRead

/-- Every step of the program, and of all other processes, keeps it good. -/
theorem Caller.Good.step {caller next : Caller} {action : CallerAction}
    (good : caller.Good filter argNum)
    (stepped : (getTargetPathname filter argNum).step caller action = some next) :
    next.Good filter argNum := by
  -- The other processes cannot harm what is known, a notification starts anew, and the function
  -- goes on.
  cases action with
  | happens happening =>
    obtain ⟨session, happens, rfl⟩ := Option.map_eq_some_iff.mp stepped
    obtain ⟨world, happened, rfl⟩ := Session.happen_eq_some happens
    exact ⟨good.sound.happen happened,
      fun calling => (good.fetching calling).later (World.later_of_happen happened),
      good.uncalled⟩
  | receives id =>
    simp only [getTargetPathname, Option.ite_none_left_eq_some] at stepped
    obtain ⟨session, received, rfl⟩ := Option.map_eq_some_iff.mp stepped.2
    obtain ⟨notified, sound, -⟩ := Session.Notified.of_receive good.sound received
    exact ⟨sound, fun _ => notified.fetching, fun idle => nomatch idle⟩
  | goesOn goesAlong =>
    simp only [getTargetPathname, Option.ite_none_right_eq_some] at stepped
    obtain ⟨calling, goes⟩ := stepped
    obtain ⟨session, fetched, rfl⟩ := Option.map_eq_some_iff.mp goes
    refine ⟨?_, fun _ => (good.fetching calling).step good.sound fetched,
      fun idle => nomatch calling.symm.trans idle⟩
    show session.world.Sound filter
    rw [(fetchStep_frame fetched).1]
    exact good.sound

/-- A byte of the pathname is read at a moment at which the process is blocked in the call. -/
structure Session.ReadsAt (argNum : Fin 6) (session : Session) (index : Nat) (byte : UInt8)
    (moment : Session) : Prop where
  reading : moment.fetch.pc = .pread
  blocked : moment.world.blocked session.req.id = some session.theCall
  mapped : moment.world.readMem session.notifier
    ((session.req.data.args argNum).toNat + index) = some byte

/-- Every byte that has been copied was the next byte at some moment of the run. -/
def Caller.Recorded (filter : List ClassicBpf.SockFilter) (argNum : Fin 6) (start : Caller)
    (actions : List CallerAction) (caller : Caller) : Prop :=
  caller.calling = true → ∀ entry ∈ caller.session.fetch.copied,
    (getTargetPathname filter argNum).Took start actions fun moment action =>
      action = .goesOn true ∧ moment.session.fetch.pc = .pread ∧
        moment.session.req = caller.session.req ∧ moment.session.nextByte argNum = some entry

/-- A step records what it copies, and forgets nothing. -/
theorem Caller.Recorded.step {start caller next : Caller} {past : List CallerAction}
    {action : CallerAction}
    (before : (getTargetPathname filter argNum).run start past = some caller)
    (recorded : Caller.Recorded filter argNum start past caller)
    (stepped : (getTargetPathname filter argNum).step caller action = some next) :
    Caller.Recorded filter argNum start (past ++ [action]) next := by
  -- A step leaves the recorded bytes as they are, forgets them all, or adds the one it records.
  intro calling entry mem
  cases action with
  | happens happening =>
    obtain ⟨session, happens, rfl⟩ := Option.map_eq_some_iff.mp stepped
    obtain ⟨world, happened, rfl⟩ := Session.happen_eq_some happens
    exact (recorded calling entry mem).mono fun _ _ known => known
  | receives id =>
    -- The function has just been called, and has copied nothing.
    simp only [getTargetPathname, Option.ite_none_left_eq_some] at stepped
    obtain ⟨session, received, rfl⟩ := Option.map_eq_some_iff.mp stepped.2
    exact absurd mem List.not_mem_nil
  | goesOn goesAlong =>
    simp only [getTargetPathname, Option.ite_none_right_eq_some] at stepped
    obtain ⟨calling, goes⟩ := stepped
    obtain ⟨session, fetched, rfl⟩ := Option.map_eq_some_iff.mp goes
    have sameReq : session.req = caller.session.req := by rw [(fetchStep_frame fetched).1]
    obtain old | ⟨rfl, reading, read⟩ := fetchStep_copied fetched entry mem
    · refine (recorded calling entry old).mono fun moment action known => ?_
      exact ⟨known.1, known.2.1, known.2.2.1.trans sameReq.symm, known.2.2.2⟩
    · exact .last before ⟨rfl, reading, sameReq.symm, read⟩

/-- Where `getTargetPathname` returns 0, the pathname has been read from the process in the call. -/
theorem getTargetPathname_success {path : List UInt8} {actions : List CallerAction}
    {caller : Caller}
    (ran : (getTargetPathname filter argNum).run (Caller.initial path) actions = some caller)
    (success : caller.session.fetch.pc = .returned .success) :
    caller.session.fetch.copied.length ≤ caller.session.path.length ∧
      0 ∈ caller.session.path.take caller.session.fetch.copied.length ∧
      ∀ index < caller.session.fetch.copied.length,
        ∃ byte, caller.session.path[index]? = some byte ∧
          (getTargetPathname filter argNum).Took (Caller.initial path) actions fun moment _ =>
            caller.session.ReadsAt argNum index byte moment.session := by
  -- The invariant and the records are carried along the run.
  have good : caller.Good filter argNum := by
    have initial : (Caller.initial path).Good filter argNum :=
      ⟨World.initial_sound, (fun calling => nomatch calling), fun _ => rfl⟩
    exact Machine.run_invariant (fun _ _ _ good stepped => good.step stepped) initial ran
  have recorded : Caller.Recorded filter argNum (Caller.initial path) actions caller := by
    have preserved : ∀ past state action next,
        (getTargetPathname filter argNum).run (Caller.initial path) past = some state →
        Caller.Recorded filter argNum (Caller.initial path) past state →
        (getTargetPathname filter argNum).step state action = some next →
        Caller.Recorded filter argNum (Caller.initial path) (past ++ [action]) next :=
      fun _ _ _ _ before recorded stepped => recorded.step before stepped
    exact Machine.run_history preserved (fun calling => nomatch calling) ran
  -- The function has been called, for it would not have returned 0 otherwise.
  have calling : caller.calling = true := by
    by_contra idle
    have returned := good.uncalled (Bool.eq_false_of_not_eq_true idle)
    exact nomatch success.symm.trans returned
  have fetching := good.fetching calling
  refine ⟨fetching.fits, fetching.terminated success, fun index read => ?_⟩
  -- The entry says where the byte is from, and its record says when it was read.
  have found := List.getElem?_eq_getElem read
  obtain ⟨address, byte⟩ := fetching.kept index _ found
  obtain ⟨process, call⟩ := fetching.genuine (.inr (.inr success)) _ (List.getElem_mem read)
  refine ⟨_, byte, ?_⟩
  have took := recorded calling _ (List.getElem_mem read)
  rw [← List.append_nil actions]
  refine took.mono fun moment _ known => ?_
  obtain ⟨-, reading, sameReq, next⟩ := known
  obtain ⟨-, -, -, mapped, blocked⟩ := Session.nextByte_eq_some next
  rw [address, process] at mapped
  rw [call, sameReq] at blocked
  exact ⟨reading, blocked.symm, mapped⟩

/-- A process that calls `openat` with a pathname at address 4096. -/
def callsOpenat : List Happening := [
  .spawn 7,
  .rewrite ⟨7, 0⟩ fun address =>
    if address = 4096 then some 97 else if address = 4097 then some 0 else none,
  .call ⟨7, 0⟩ ⟨nrOpenat, auditArchX8664, 0, fun _ => 4096⟩]

/-- The supervisor is notified of the call, and fetches the pathname. -/
def fetchesOpenat : List CallerAction :=
  callsOpenat.map .happens ++ [.receives 0] ++ List.replicate 8 (.goesOn true)

/-- Its pathname is fetched as the process has it in its memory. -/
theorem getTargetPathname_success_openat : ∃ caller,
    (getTargetPathname openatNotifyFilter 1).run (Caller.initial [1, 1, 1]) fetchesOpenat =
      some caller ∧
    caller.session.path = [97, 0, 1] ∧
    ∀ index < caller.session.fetch.copied.length,
      ∃ byte, caller.session.path[index]? = some byte ∧
        (getTargetPathname openatNotifyFilter 1).Took (Caller.initial [1, 1, 1]) fetchesOpenat
          fun moment _ => caller.session.ReadsAt 1 index byte moment.session := by
  -- The run is evaluated, and the theorem says when each byte was read.
  obtain ⟨caller, ran, success, bytes⟩ : ∃ caller,
      (getTargetPathname openatNotifyFilter 1).run (Caller.initial [1, 1, 1]) fetchesOpenat =
        some caller ∧ caller.session.fetch.pc = .returned .success ∧
        caller.session.path = [97, 0, 1] := ⟨_, rfl, rfl, rfl⟩
  exact ⟨caller, ran, bytes, (getTargetPathname_success ran success).2.2⟩

end SysProg.Seccomp
