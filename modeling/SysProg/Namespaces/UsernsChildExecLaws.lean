import SysProg.Namespaces.UsernsChildExec

/-! The child execs after the maps are written, as long as no write of the parent fails. -/

namespace SysProg.Namespaces.UsernsChildExec

/-- A map that was requested has been written completely, to its own file. -/
def Setup.Written (setup : Setup) (attempts : List Attempt) (map : IdMap) : Prop :=
  ∀ mapping, setup.mapping map = some mapping →
    ⟨procPath setup map.fileName, commasToNewlines mapping, true⟩ ∈ attempts

/-- The child performs its repeatable options, or executes the command. -/
def ChildPc.Acts : ChildPc → Prop
  | .perform _ | .execvp | .command => True
  | _ => False

/-- The child acts only after every requested map is written, and never after a failed write. -/
def MapsFirst (setup : Setup) (state : State) : Prop :=
  state.child.Acts →
    (∀ map, setup.Written state.attempts map) ∧ ∀ attempt ∈ state.attempts, attempt.succeeded

/-- The kernel answers that a `write` has written something, whatever its length. -/
def Answer.wrote : Answer → Bool
  | .written _ => true
  | _ => false

/-- The call that the parent makes in this step on a file of the child does not fail. -/
def State.writeSucceeds (setup : Setup) (state : State) : Process × Answer → Bool
  | (.parent, answer) =>
    match state.parent with
    | .openMap _ => answer = .ok
    | .writeMap map =>
      answer = .written (commasToNewlines ((setup.mapping map).getD [])).length
    | .openSetgroups => answer = .ok ∨ answer = .enoent
    | .writeSetgroups => answer.wrote
    | _ => true
  | (.child, _) => true

/-- The condition on a step under which the parent never exits early. -/
abbrev WriteSucceeds (setup : Setup) (state : State) (action : Process × Answer) : Prop :=
  state.writeSucceeds setup action = true

/-- A parent at this place has this map still before it, if it was requested. -/
def ParentPc.Ahead : ParentPc → IdMap → Prop
  | .openMap .uid, _ | .writeMap .uid, _ => True
  | .openSetgroups, map | .writeSetgroups, map | .openMap .gid, map | .writeMap .gid, map =>
    map ≠ .uid
  | .openMap .projid, map | .writeMap .projid, map => map = .projid
  | _, _ => False

/-- A parent at this place is about to write this map, or to prepare for it. -/
def ParentPc.Deals : ParentPc → IdMap → Prop
  | .openMap here, map | .writeMap here, map => here = map
  | .openSetgroups, map | .writeSetgroups, map => map = .gid
  | _, _ => False

/-- A parent at this place has not come to the end of `update_child_maps`. -/
def ParentPc.Updating : ParentPc → Prop
  | .openMap _ | .writeMap _ | .openSetgroups | .writeSetgroups => True
  | _ => False

/-- What the pipe promises in every run: nobody sees its end before the parent has closed it. -/
structure Synchronized (state : State) : Prop where
  /-- The parent has its end of the pipe open while it updates the maps. -/
  opened : state.parentWrites = false → ¬ state.parent.Updating ∧ state.parent ≠ .closePipe
  /-- The child is behind its `read` only once the parent has closed its end. -/
  waits : state.parentWrites = true →
    state.child = .closeWrite ∨ state.child = .read ∨ state.child = .exited
  closed : state.child = .read → state.childWrites = false

/-- A map that is not requested counts as written. -/
theorem written_of_isNone {setup : Setup} {map : IdMap} (absent : ¬ (setup.mapping map).isSome)
    (attempts : List Attempt) : setup.Written attempts map := by
  intro mapping requested
  rw [requested] at absent
  exact absurd rfl absent

/-- What has been written stays on record. -/
theorem Setup.Written.append {setup : Setup} {attempts : List Attempt} {map : IdMap}
    (written : setup.Written attempts map) (more : List Attempt) :
    setup.Written (attempts ++ more) map :=
  fun mapping requested => List.mem_append_left more (written mapping requested)

/-- Behind the group map lies at most the project ID map. -/
theorem ahead_afterGid (setup : Setup) (attempts : List Attempt) :
    (afterGid setup).Ahead .projid ∨ setup.Written attempts .projid := by
  unfold afterGid
  -- The project map comes next, or it was not asked for.
  split
  · exact .inl rfl
  · rename_i absent
    exact .inr (written_of_isNone absent attempts)

/-- Behind the user map lie the group map and the project ID map, as far as they are requested. -/
theorem ahead_afterUid (setup : Setup) (attempts : List Attempt) {map : IdMap}
    (other : map ≠ .uid) : (afterUid setup).Ahead map ∨ setup.Written attempts map := by
  unfold afterUid
  by_cases requested : (setup.mapping .gid).isSome
  · -- Whether or not `setgroups` comes first, both maps are still to be written.
    rw [if_pos requested]
    split <;> exact .inl other
  · rw [if_neg requested]
    cases map with
    | uid => exact absurd rfl other
    | gid => exact .inr (written_of_isNone requested attempts)
    | projid => exact ahead_afterGid setup attempts

/-- What holds as long as no write of the parent fails. -/
structure OnTrack (setup : Setup) (state : State) : Prop where
  /-- Every map lies ahead of the parent or is written. -/
  maps : ∀ map, state.parent.Ahead map ∨ setup.Written state.attempts map
  succeeded : ∀ attempt ∈ state.attempts, attempt.succeeded
  /-- The parent deals only with maps that were requested. -/
  requested : ∀ map, state.parent.Deals map → (setup.mapping map).isSome

/-- Where the parent goes after the group map, it has a map to write. -/
theorem requested_afterGid {setup : Setup} {map : IdMap} (here : (afterGid setup).Deals map) :
    (setup.mapping map).isSome := by
  unfold afterGid at here
  -- The parent goes on to the project map only if it was asked for.
  split at here
  · rename_i requested
    exact here ▸ requested
  · exact here.elim

/-- Where the parent goes after the user map, it has a map to write. -/
theorem requested_afterUid {setup : Setup} {map : IdMap} (here : (afterUid setup).Deals map) :
    (setup.mapping map).isSome := by
  unfold afterUid at here
  split at here
  · rename_i requested
    -- Denying `setgroups` is done for the sake of the group map.
    split at here
    · rw [show map = .gid from here]
      exact requested
    · exact here ▸ requested
  · exact requested_afterGid here

/-- Right after `clone` both processes are on track. -/
theorem onTrack_initial (setup : Setup) : OnTrack setup (initial setup) := by
  -- The parent starts with the first map that was requested.
  by_cases requested : (setup.mapping .uid).isSome
  · refine ⟨fun map => .inl ?_, nofun, fun map here => ?_⟩
    · simp [initial, requested, ParentPc.Ahead]
    · simp only [initial, requested, if_true] at here
      exact here ▸ requested
  · refine ⟨fun map => ?_, nofun, fun map here => ?_⟩
    · simp only [initial, requested]
      by_cases first : map = .uid
      · exact .inr (first ▸ written_of_isNone requested [])
      · exact ahead_afterUid setup [] first
    · simp only [initial, requested] at here
      exact requested_afterUid here

/-- A map that has just been written completely is written. -/
theorem written_self (setup : Setup) (map : IdMap) (attempts : List Attempt) :
    setup.Written (attempts ++ [⟨procPath setup map.fileName,
      commasToNewlines ((setup.mapping map).getD []), true⟩]) map := by
  intro mapping known
  simp [known]

/-- Writing a map completely leaves the following maps ahead. -/
theorem OnTrack.wroteMap {setup : Setup} {state : State} {map : IdMap}
    (track : OnTrack setup state) (here : state.parent = .writeMap map) :
    OnTrack setup (state.attempted (procPath setup map.fileName)
      (commasToNewlines ((setup.mapping map).getD [])) true (afterMap setup map)) := by
  refine ⟨fun other => ?_, ?_, fun other place => ?_⟩
  · -- The maps before this one were written earlier, and those behind it still lie ahead.
    have before := track.maps other
    rw [here] at before
    cases map with
    | uid =>
      by_cases same : other = .uid
      · exact .inr (same ▸ written_self setup .uid state.attempts)
      · exact ahead_afterUid setup _ same
    | gid =>
      cases other with
      | uid => exact .inr ((before.resolve_left (by simp [ParentPc.Ahead])).append _)
      | gid => exact .inr (written_self setup .gid state.attempts)
      | projid => exact ahead_afterGid setup _
    | projid =>
      cases other with
      | projid => exact .inr (written_self setup .projid state.attempts)
      | _ => exact .inr ((before.resolve_left (by simp [ParentPc.Ahead])).append _)
  -- The new attempt has succeeded, like all before it.
  · intro attempt mem
    rcases List.mem_append.mp mem with earlier | last
    · exact track.succeeded attempt earlier
    · rw [List.mem_singleton.mp last]
  -- The parent goes on only to a map that was requested.
  · cases map with
    | uid => exact requested_afterUid place
    | gid => exact requested_afterGid place
    | projid => exact place.elim

/-- Moving on without an attempt stays on track when no map is skipped by it. -/
theorem OnTrack.move {setup : Setup} {state : State} (track : OnTrack setup state)
    {parent : ParentPc} (skips : ∀ map, state.parent.Ahead map → parent.Ahead map)
    (deals : ∀ map, parent.Deals map → state.parent.Deals map) (child : ChildPc)
    (parentWrites childWrites : Bool) :
    OnTrack setup { state with parent, child, parentWrites, childWrites } where
  -- No write is made, so what was written stays.
  maps map := (track.maps map).imp_left (skips map)
  succeeded := track.succeeded
  requested map here := track.requested map (deals map here)

/-- Denying `setgroups` leaves the group map ahead. -/
theorem OnTrack.denied {setup : Setup} {state : State} (track : OnTrack setup state)
    (here : state.parent = .writeSetgroups) :
    OnTrack setup (state.attempted (procPath setup "setgroups") deny true (.openMap .gid)) := by
  refine ⟨fun map => ?_, ?_, fun map place => track.requested map ?_⟩
  -- The write to setgroups comes between those of the two maps.
  · have before := track.maps map
    rw [here] at before
    exact before.imp id fun written => written.append _
  · intro attempt mem
    -- It has succeeded, as have the writes before it.
    rcases List.mem_append.mp mem with earlier | last
    · exact track.succeeded attempt earlier
    · rw [List.mem_singleton.mp last]
  · rw [here]
    exact place.symm

/-- Where nothing fails, a step of the parent stays on track. -/
theorem OnTrack.parentStep {setup : Setup} {state next : State} {answer : Answer}
    (track : OnTrack setup state) (succeeds : WriteSucceeds setup state (.parent, answer))
    (stepped : parentStep setup state answer = some next) : OnTrack setup next := by
  unfold UsernsChildExec.parentStep at stepped
  unfold WriteSucceeds State.writeSucceeds at succeeds
  -- One case for each place of the parent, where the answer of the kernel is a success.
  cases here : state.parent with simp only [here, decide_eq_true_eq] at stepped succeeds
  | openMap map =>
    rw [if_pos succeeds, Option.some.injEq] at stepped
    subst stepped
    refine track.move ?_ ?_ _ _ _ <;> rw [here] <;> cases map <;> exact fun _ => id
  | writeMap map =>
    rw [if_pos succeeds, Option.some.injEq] at stepped
    exact stepped ▸ track.wroteMap here
  | openSetgroups =>
    -- With or without the file, the group map is next, and it was requested.
    rcases succeeds with rfl | rfl <;> obtain rfl := Option.some.inj stepped
    · refine track.move ?_ ?_ _ _ _ <;> rw [here] <;> exact fun _ => id
    · refine track.move ?_ ?_ _ _ _ <;> rw [here]
      · exact fun _ => id
      · exact fun _ => Eq.symm
  | writeSetgroups =>
    cases answer with
    | written count =>
      obtain rfl := Option.some.inj stepped
      exact track.denied here
    | _ => cases succeeds
  | closePipe | exit =>
    obtain rfl := Option.some.inj stepped
    refine track.move ?_ ?_ _ _ _ <;> rw [here] <;> exact fun _ => id
  -- The parent waits for the child, or has been told that it ended, and has no map left.
  | waitpid =>
    split at stepped
    · obtain rfl := Option.some.inj stepped
      refine track.move ?_ ?_ _ _ _ <;> rw [here] <;> exact fun _ => id
    · simp only [Option.ite_none_right_eq_some, Option.some.injEq] at stepped
      obtain ⟨_, rfl⟩ := stepped
      refine track.move ?_ ?_ _ _ _ <;> rw [here] <;> exact fun _ => id
  | exited => cases stepped

/-- A step of the child changes nothing but the child and its end of the pipe. -/
theorem childStep_frame {setup : Setup} {state next : State} {answer : Answer}
    (stepped : childStep setup state answer = some next) :
    next = { state with child := next.child, childWrites := next.childWrites } := by
  unfold childStep at stepped
  -- The branches differ only in where the child goes and in its end of the pipe.
  split at stepped
  case h_2 =>
    split at stepped
    · exact Option.some.inj stepped ▸ rfl
    · split at stepped
      · cases stepped
      · exact Option.some.inj stepped ▸ rfl
  case h_4 =>
    split at stepped
    · split at stepped <;> exact Option.some.inj stepped ▸ rfl
    · exact Option.some.inj stepped ▸ rfl
  case h_7 => cases stepped
  all_goals exact Option.some.inj stepped ▸ rfl

/-- Where nothing fails, every step stays on track. -/
theorem OnTrack.step {setup : Setup} {state next : State} {action : Process × Answer}
    (track : OnTrack setup state) (succeeds : WriteSucceeds setup state action)
    (stepped : (usernsChildExec setup).step state action = some next) : OnTrack setup next := by
  obtain ⟨process, answer⟩ := action
  -- The child writes no map, so only the parent's steps matter.
  cases process with
  | parent => exact track.parentStep succeeds stepped
  | child =>
    rw [childStep_frame stepped]
    exact track.move (fun _ => id) (fun _ => id) _ _ _

/-- The pipe is open on both sides when the child is made. -/
theorem synchronized_initial (setup : Setup) : Synchronized (initial setup) :=
  ⟨nofun, fun _ => .inl rfl, nofun⟩

/-- A step of the parent closes its end of the pipe once the maps are done, or when it exits. -/
theorem Synchronized.parentStep {setup : Setup} {state next : State} {answer : Answer}
    (synchronized : Synchronized state)
    (stepped : parentStep setup state answer = some next) : Synchronized next := by
  obtain ⟨opened, waits, closed⟩ := synchronized
  unfold UsernsChildExec.parentStep at stepped
  -- While the parent updates its maps, its end of the pipe stays open.
  cases here : state.parent with
    simp only [here, ParentPc.Updating, not_true, false_and, imp_false] at stepped opened
  | openMap map | writeMap map =>
    split at stepped <;> obtain rfl := Option.some.inj stepped <;>
      exact ⟨fun shut => absurd shut opened, waits, closed⟩
  | openSetgroups | writeSetgroups =>
    split at stepped <;> obtain rfl := Option.some.inj stepped <;>
      exact ⟨fun shut => absurd shut opened, waits, closed⟩
  -- From here on the parent has closed its end of the pipe.
  | closePipe | exit =>
    obtain rfl := Option.some.inj stepped
    exact ⟨fun _ => ⟨id, nofun⟩, nofun, closed⟩
  | waitpid =>
    split at stepped
    · obtain rfl := Option.some.inj stepped
      exact ⟨fun _ => ⟨id, nofun⟩, waits, closed⟩
    · simp only [Option.ite_none_right_eq_some, Option.some.injEq] at stepped
      obtain ⟨_, rfl⟩ := stepped
      exact ⟨fun _ => ⟨id, nofun⟩, waits, closed⟩
  | exited => cases stepped

/-- A step of the child goes past its `read` only at the end of the pipe. -/
theorem Synchronized.childStep {setup : Setup} {state next : State} {answer : Answer}
    (synchronized : Synchronized state)
    (stepped : childStep setup state answer = some next) : Synchronized next := by
  obtain ⟨opened, waits, closed⟩ := synchronized
  unfold UsernsChildExec.childStep at stepped
  -- Before the end of the pipe the child only closes its own end, reads, or exits.
  cases here : state.child with simp only [here] at stepped waits closed
  | closeWrite =>
    obtain rfl := Option.some.inj stepped
    exact ⟨opened, fun _ => .inr (.inl rfl), fun _ => rfl⟩
  | read =>
    split at stepped
    · obtain rfl := Option.some.inj stepped
      exact ⟨opened, fun _ => .inr (.inr rfl), nofun⟩
    · split at stepped
      · cases stepped
      · -- The child sees the end of the pipe, which the parent has closed by then.
        rename_i ended
        obtain rfl := Option.some.inj stepped
        exact ⟨opened, fun stillOpen => absurd (.inl stillOpen) ended, nofun⟩
  -- A child that performs its options has seen the end of the pipe.
  | perform option =>
    split at stepped
    · split at stepped <;> obtain rfl := Option.some.inj stepped
      · exact ⟨opened, fun stillOpen => by simpa using waits stillOpen, nofun⟩
      · exact ⟨opened, fun _ => .inr (.inr rfl), nofun⟩
    · obtain rfl := Option.some.inj stepped
      exact ⟨opened, fun stillOpen => by simpa using waits stillOpen, nofun⟩
  | execvp =>
    obtain rfl := Option.some.inj stepped
    refine ⟨opened, fun stillOpen => by simpa using waits stillOpen, fun reads => ?_⟩
    dsimp only at reads
    split at reads <;> cases reads
  | closeRead | command =>
    obtain rfl := Option.some.inj stepped
    exact ⟨opened, fun stillOpen => absurd (waits stillOpen) (by simp), nofun⟩
  | exited => cases stepped

/-- The pipe keeps its promise in every state of every run. -/
theorem synchronized_of_run {setup : Setup} {state : State} {actions : List (Process × Answer)}
    (ran : (usernsChildExec setup).run (initial setup) actions = some state) :
    Synchronized state := by
  -- No step of either process lets the child go on before the pipe is closed.
  refine Machine.run_invariant (fun _ action _ synchronized stepped => ?_)
    (synchronized_initial setup) ran
  obtain ⟨process, answer⟩ := action
  cases process with
  | parent => exact synchronized.parentStep stepped
  | child => exact synchronized.childStep stepped

/-- A child that acts has a parent that is on track and past its maps. -/
theorem mapsFirst_of_onTrack {setup : Setup} {state : State} (synchronized : Synchronized state)
    (track : OnTrack setup state) : MapsFirst setup state := by
  intro acts
  refine ⟨fun map => (track.maps map).resolve_left fun ahead => ?_, track.succeeded⟩
  -- The parent cannot have a map before it, for it has closed its end of the pipe.
  have shut : state.parentWrites = false := by
    by_contra stillOpen
    rcases synchronized.waits (by simpa using stillOpen) with here | here | here <;>
      simp [here, ChildPc.Acts] at acts
  have past := (synchronized.opened shut).1
  cases here : state.parent <;> simp [here, ParentPc.Ahead, ParentPc.Updating] at ahead past

/-- A step of the parent that fails goes on record and makes the parent exit. -/
theorem parentStep_fails {setup : Setup} {state next : State} {answer : Answer}
    (fails : ¬ WriteSucceeds setup state (.parent, answer))
    (stepped : parentStep setup state answer = some next) :
    state.parent.Updating ∧ ∃ path contents message,
      next = state.attempted path contents false (.exit (some message)) := by
  unfold WriteSucceeds State.writeSucceeds at fails
  unfold UsernsChildExec.parentStep at stepped
  -- Each call that can fail takes its error branch, and ends in an exit with a message.
  cases here : state.parent with
    simp only [here, not_true, not_or, decide_eq_true_eq] at fails stepped
  | openMap | writeMap =>
    rw [if_neg fails] at stepped
    exact ⟨trivial, _, _, _, (Option.some.inj stepped).symm⟩
  | openSetgroups =>
    cases answer with
    | ok => exact absurd rfl fails.1
    | enoent => exact absurd rfl fails.2
    | _ => exact ⟨trivial, _, _, _, (Option.some.inj stepped).symm⟩
  | writeSetgroups =>
    cases answer with
    | written count => exact absurd rfl fails
    | _ => exact ⟨trivial, _, _, _, (Option.some.inj stepped).symm⟩

/-- The end of the pipe that an exiting parent leaves behind lets a waiting child act. -/
theorem reaches_perform (setup : Setup) (state : State) {message : Option String}
    (exits : state.parent = .exit message)
    (waits : state.child = .closeWrite ∨ state.child = .read ∧ state.childWrites = false) :
    ∃ finish, (usernsChildExec setup).Reaches state finish ∧
      finish.child = .perform 0 ∧ finish.attempts = state.attempts := by
  obtain ⟨parent, child, parentWrites, childWrites, attempts⟩ := state
  dsimp only at exits waits
  subst exits
  -- The parent exits, and the child closes its own descriptor if it has not done so before.
  rcases waits with rfl | ⟨rfl, rfl⟩
  · exact ⟨⟨.exited, .perform 0, false, false, attempts⟩,
      ⟨[(.parent, .ok), (.child, .ok), (.child, .ok), (.child, .ok)], rfl⟩, rfl, rfl⟩
  · exact ⟨⟨.exited, .perform 0, false, false, attempts⟩,
      ⟨[(.parent, .ok), (.child, .ok), (.child, .ok)], rfl⟩, rfl, rfl⟩

/-- After a failed write of the parent, a child that has not exited can still act. -/
theorem acts_after_failure {setup : Setup} {state next : State} {answer : Answer}
    (synchronized : Synchronized state) (alive : state.child ≠ .exited)
    (fails : ¬ WriteSucceeds setup state (.parent, answer))
    (stepped : parentStep setup state answer = some next) :
    ∃ finish, (usernsChildExec setup).Reaches next finish ∧ ¬ MapsFirst setup finish := by
  obtain ⟨updating, path, contents, message, rfl⟩ := parentStep_fails fails stepped
  -- The parent has not closed its end yet, so the child is still in front of its `read`.
  have stillOpen : state.parentWrites = true := by
    by_contra shut
    exact (synchronized.opened (by simpa using shut)).1 updating
  have waits : state.child = .closeWrite ∨ state.child = .read ∧ state.childWrites = false := by
    rcases synchronized.waits stillOpen with here | here | here
    · exact .inl here
    · exact .inr ⟨here, synchronized.closed here⟩
    · exact absurd here alive
  obtain ⟨finish, reaches, performs, attempts⟩ := reaches_perform setup
    (state.attempted path contents false (.exit (some message))) rfl waits
  -- The child acts in the end, and the failed attempt is still on record.
  refine ⟨finish, reaches, fun first => ?_⟩
  have acts : finish.child.Acts := by
    rw [performs]
    trivial
  have allSucceeded := (first acts).2
  rw [attempts] at allSucceeded
  exact absurd (allSucceeded ⟨path, contents, false⟩ (by simp [State.attempted])) nofun

/--
In every run in which no write of the parent fails, the child acts after its maps are written.

The pipe is closed by an exit of the parent as well as by `close`. So wherever a write of the parent
does fail while the child lives, the child can go on to perform its options and to exec.
-/
theorem mapsFirst_of_writes (setup : Setup) :
    (∀ (actions : List (Process × Answer)) (state : State),
      (usernsChildExec setup).Along (WriteSucceeds setup) (initial setup) actions →
      (usernsChildExec setup).run (initial setup) actions = some state →
      MapsFirst setup state) ∧
    ∀ (actions : List (Process × Answer)) (state next : State) (answer : Answer),
      (usernsChildExec setup).run (initial setup) actions = some state →
      state.child ≠ .exited → ¬ WriteSucceeds setup state (.parent, answer) →
      (usernsChildExec setup).step state (.parent, answer) = some next →
      ∃ finish, (usernsChildExec setup).Reaches next finish ∧ ¬ MapsFirst setup finish := by
  constructor
  -- The run keeps the parent on track, and the pipe holds the child back until then.
  · intro actions state along ran
    have track : OnTrack setup state :=
      Machine.run_invariant_along (fun _ _ _ track succeeds stepped => track.step succeeds stepped)
        (onTrack_initial setup) along ran
    exact mapsFirst_of_onTrack (synchronized_of_run ran) track
  · intro actions state next answer ran alive fails stepped
    exact acts_after_failure (synchronized_of_run ran) alive fails stepped

/-- A child with PID 7 whose user and group are mapped to root, as `-U -r` asks for. -/
def rootChild : Setup where
  opts := ⟨true, true, none, none, none, 0⟩
  childPid := 7
  uid := 1000
  gid := 100

/-- Both maps are written, and then the child execs. -/
def mappedRun : List (Process × Answer) :=
  [(.parent, .ok), (.child, .ok), (.parent, .written 8), (.parent, .ok), (.parent, .written 4),
    (.parent, .ok), (.parent, .written 7), (.parent, .ok), (.child, .ok), (.child, .ok),
    (.child, .ok), (.child, .ok)]

/-- Nothing fails in this run, so the command runs with both maps written. -/
theorem mapsFirst_of_writes_rootChild : ∃ state,
    (usernsChildExec rootChild).run (initial rootChild) mappedRun = some state ∧
    state.child = .command ∧ ∀ map, rootChild.Written state.attempts map := by
  -- The run is evaluated, and all its writes succeed.
  obtain ⟨state, ran, runs⟩ : ∃ state,
      (usernsChildExec rootChild).run (initial rootChild) mappedRun = some state ∧
      state.child = .command := ⟨_, by rfl, by rfl⟩
  have along : (usernsChildExec rootChild).Along (WriteSucceeds rootChild) (initial rootChild)
      mappedRun := by decide
  have first := (mapsFirst_of_writes rootChild).1 mappedRun state along ran
  have acts : state.child.Acts := by
    rw [runs]
    trivial
  exact ⟨state, ran, runs, (first acts).1⟩

/-- The user map cannot be written, and the parent exits, which lets the child exec. -/
def refusedRun : List (Process × Answer) :=
  [(.parent, .ok), (.child, .ok), (.parent, .error), (.parent, .ok), (.child, .ok), (.child, .ok),
    (.child, .ok), (.child, .ok)]

/-- Where the write of a map fails, the command runs without any map. -/
theorem not_mapsFirst_of_refused : ¬ ∀ (setup : Setup) (actions : List (Process × Answer))
    (state : State), (usernsChildExec setup).run (initial setup) actions = some state →
    MapsFirst setup state := by
  intro always
  -- The write of the map is refused, and the child runs its command all the same.
  obtain ⟨state, ran, runs, attempts⟩ : ∃ state,
      (usernsChildExec rootChild).run (initial rootChild) refusedRun = some state ∧
      state.child = .command ∧
      state.attempts = [⟨procPath rootChild "uid_map", rootMapping 1000, false⟩] :=
    ⟨_, by rfl, by rfl, by rfl⟩
  have acts : state.child.Acts := by
    rw [runs]
    trivial
  have succeeded := (always rootChild refusedRun state ran acts).2
  rw [attempts] at succeeded
  exact absurd (succeeded _ (List.mem_singleton_self _)) nofun

end SysProg.Namespaces.UsernsChildExec
