import SysProg.Filelock.CreatePidFile

/-! One program runs at a time, unless a file is locked that has lost its name. -/

namespace SysProg.Filelock.CreatePidFile

/-- The buffer is large enough for every PID. -/
theorem buf_eq (pid : Pid) : buf pid = pidText pid := by
  have small : pid.val < 10 ^ 10 := by
    have bound := pid.2.2
    omega
  have digits := Decimal.length_natText_le pid.val 10 (by decide) small
  -- Ten digits and the newline are fewer than the bytes of the buffer.
  have fits : (pidText pid).length ≤ bufSize - 1 := by
    unfold pidText bufSize
    simp only [List.length_append, List.length_singleton]
    omega
  exact List.take_of_length_le fits

/-- A process at such a place has locked its file, and not deleted it. -/
def Pc.Locked : Pc → Prop
  | .ftruncate | .write | .runs => True
  | _ => False

/-- A process at such a place may have a lock. -/
def Pc.Holds : Pc → Prop
  | .ftruncate | .write | .runs | .deleted => True
  | _ => False

/-- What a process finds in its file where it stands. -/
def Pc.Finds (pid : Pid) (content : List UInt8) : Pc → Prop
  | .write => content = []
  | .runs => content = pidText pid
  | _ => True

/-- A process that has not locked its file has nothing to find in it. -/
theorem Pc.finds_of_not_locked {pc : Pc} (unlocked : ¬ pc.Locked) (pid : Pid)
    (content : List UInt8) : pc.Finds pid content := by
  cases pc with
  | write | runs => exact absurd trivial unlocked
  | _ => trivial

variable {ι : Type*} {flags : ι → Nat} {pid : ι → Pid} {state next : State ι}

/-- The file that a process has opened. -/
def State.file (state : State ι) (process : ι) : File ι :=
  state.files (state.process process).inode

/-- The pathname leads to the file that a process has opened. -/
def State.Named (state : State ι) (process : ι) : Prop :=
  state.name = some (state.process process).inode

/-- Whoever finds the file unlocked has opened the file that the pathname leads to. -/
def LocksNamed (state : State ι) (action : Action ι) : Prop :=
  ∀ process, action = .goesOn process → (state.process process).pc = .lockRegion →
    (state.file process).lock = none → state.Named process

instance (state : State ι) (action : Action ι) : Decidable (LocksNamed state action) :=
  match action with
  | .goesOn process =>
    have : Decidable ((state.file process).lock = none) := decidable_of_iff
      ((state.file process).lock.isNone = true) Option.isNone_iff_eq_none
    have : Decidable (state.Named process) :=
      inferInstanceAs (Decidable (state.name = some (state.process process).inode))
    decidable_of_iff ((state.process process).pc = .lockRegion →
      (state.file process).lock = none → state.Named process) (by simp [LocksNamed])
  | .writesPart _ _ | .terminates _ => isTrue nofun

/-- What holds as long as only files with the name are locked. -/
structure Invariant (pid : ι → Pid) (state : State ι) : Prop where
  -- Who has locked its file has its lock, and the pathname still leads to it.
  owns : ∀ process, (state.process process).pc.Locked →
    (state.file process).lock = some process ∧ state.Named process
  -- A lock does not outlive the process that took it.
  held : ∀ inode process, (state.files inode).lock = some process →
    (state.process process).pc.Holds
  -- From `ftruncate` on, nobody else writes to the file.
  finds : ∀ process, (state.process process).pc.Finds (pid process) (state.file process).content

/-- Nobody has locked anything at the start. -/
theorem invariant_initial {left : Option (List UInt8)} : Invariant pid (initial ι left) where
  owns := fun _ => False.elim
  held := nofun
  finds := fun _ => trivial

/-- Only one process has locked its file. -/
theorem Invariant.alone (invariant : Invariant pid state) {one two : ι}
    (first : (state.process one).pc.Locked) (second : (state.process two).pc.Locked) :
    one = two := by
  obtain ⟨left, leftNamed⟩ := invariant.owns one first
  obtain ⟨right, rightNamed⟩ := invariant.owns two second
  -- Both have opened the file that the pathname leads to, and it has a single lock.
  have same : (state.process one).inode = (state.process two).inode :=
    Option.some.inj (leftNamed.symm.trans rightNamed)
  unfold State.file at left right
  rw [same] at left
  exact Option.some.inj (left.symm.trans right)

/-- A process that has locked a file holds a lock. -/
theorem Pc.Locked.holds {pc : Pc} (locked : pc.Locked) : pc.Holds := by
  cases pc with
  | ftruncate | write | runs => trivial
  | _ => exact locked.elim

variable [DecidableEq ι]

/-- One process moves, and what becomes of the files leaves alone what the others have locked. -/
theorem Invariant.moves (invariant : Invariant pid state) {process : ι} {now : Process}
    {files : Nat → File ι} {name : Option Nat} {inodes : Nat}
    (owns : now.pc.Locked → (files now.inode).lock = some process ∧ name = some now.inode)
    (holds : ∀ inode, (files inode).lock = some process → now.pc.Holds)
    (finds : now.pc.Finds (pid process) (files now.inode).content)
    (locks : ∀ inode other, other ≠ process → (files inode).lock = some other →
      (state.files inode).lock = some other)
    (others : ∀ other, other ≠ process → (state.process other).pc.Locked →
      (files (state.process other).inode).lock = some other ∧
        name = some (state.process other).inode ∧
          (files (state.process other).inode).content = (state.file other).content) :
    Invariant pid { state.processAt process now with files, name, inodes } where
  owns := by
    intro other locked
    by_cases mine : other = process
    · subst mine
      simp only [State.file, State.Named, State.processAt, Function.update_self] at locked ⊢
      exact owns locked
    · simp only [State.file, State.Named, State.processAt,
        Function.update_of_ne mine] at locked ⊢
      obtain ⟨lock, named, _⟩ := others other mine locked
      exact ⟨lock, named⟩
  held := by
    intro inode other lock
    by_cases mine : other = process
    · subst mine
      simp only [State.processAt, Function.update_self]
      exact holds inode lock
    · simp only [State.processAt, Function.update_of_ne mine]
      exact invariant.held inode other (locks inode other mine lock)
  finds := by
    intro other
    by_cases mine : other = process
    · subst mine
      simp only [State.file, State.processAt, Function.update_self]
      exact finds
    · simp only [State.file, State.processAt, Function.update_of_ne mine]
      by_cases locked : (state.process other).pc.Locked
      · rw [(others other mine locked).2.2]
        exact invariant.finds other
      · -- Only those that have locked their file know what is in it.
        exact Pc.finds_of_not_locked locked ..

/-- A process that goes on without touching a file keeps the invariant. -/
theorem Invariant.processAt (invariant : Invariant pid state) {process : ι} {now : Process}
    (unlocked : ¬ now.pc.Locked) (before : ¬ (state.process process).pc.Holds) :
    Invariant pid (state.processAt process now) := by
  refine invariant.moves (fun locked => absurd locked unlocked) (fun inode lock => ?_)
    (Pc.finds_of_not_locked unlocked ..) (fun _ _ _ => id) fun other _ locked => ?_
  · -- The process has no lock, so whoever holds one is another.
    exact absurd (invariant.held inode process lock) before
  · obtain ⟨lock, named⟩ := invariant.owns other locked
    exact ⟨lock, named, rfl⟩

/-- A process that opens the file keeps the invariant. -/
theorem Invariant.opens (invariant : Invariant pid state) {process : ι} {pc : Pc}
    (unlocked : ¬ pc.Locked) (before : ¬ (state.process process).pc.Holds) :
    Invariant pid (state.opens process pc) := by
  unfold State.opens
  split
  · -- The file is there already, and is left as it is.
    exact invariant.processAt unlocked before
  next nameless =>
    -- The new file is not locked, and the others are what they were.
    have old : ∀ inode other,
        (Function.update state.files state.inodes ⟨[], none⟩ inode).lock = some other →
          (state.files inode).lock = some other := by
      intro inode other lock
      by_cases new : inode = state.inodes
      · rw [new, Function.update_self] at lock
        exact nomatch lock
      · rw [Function.update_of_ne new] at lock
        exact lock
    refine invariant.moves (fun locked => absurd locked unlocked) (fun inode lock => ?_)
      (Pc.finds_of_not_locked unlocked ..) (fun inode other _ => old inode other)
      fun other _ locked => ?_
    · exact absurd (invariant.held inode process (old inode process lock)) before
    · -- Without a name there is nobody who has locked its file.
      have named := (invariant.owns other locked).2
      rw [State.Named, nameless] at named
      exact nomatch named

/-- A process that is alone with its file does something to it. -/
theorem Invariant.fileBecomes (invariant : Invariant pid state) {process : ι} {pc : Pc}
    {file : File ι} (named : state.Named process) (locked : pc.Locked)
    (alone : ∀ other, (state.process other).pc.Locked → other = process)
    (lock : file.lock = some process) (finds : pc.Finds (pid process) file.content) :
    Invariant pid ((state.processAt process { state.process process with pc := pc }).fileBecomes
      (state.process process).inode file) := by
  refine invariant.moves (fun _ => ⟨?_, named⟩) (fun _ _ => locked.holds) ?_
    (fun inode other mine held => ?_) fun other mine holds => absurd (alone other holds) mine
  · simp only [Function.update_self]
    exact lock
  · simp only [Function.update_self]
    exact finds
  · -- A lock of somebody else is on another file.
    have different : inode ≠ (state.process process).inode := by
      rintro rfl
      simp only [State.processAt, Function.update_self, lock] at held
      exact mine (Option.some.inj held).symm
    rwa [Function.update_of_ne different] at held

/-- A lock that is left after the end of a process is a lock of another one. -/
theorem release_lock_eq_some {file : File ι} {process other : ι} :
    (file.release process).lock = some other ↔ file.lock = some other ∧ other ≠ process := by
  unfold File.release
  split
  -- Its own lock goes away with the process.
  next own =>
    rw [own]
    refine ⟨nofun, fun ⟨same, different⟩ => ?_⟩
    exact absurd (Option.some.inj same).symm different
  -- The lock of somebody else stays.
  next foreign =>
    refine ⟨fun lock => ⟨lock, ?_⟩, And.left⟩
    rintro rfl
    exact foreign lock

/-- The end of a process leaves alone what a file has in it. -/
theorem release_content (file : File ι) (process : ι) :
    (file.release process).content = file.content := by
  unfold File.release
  split <;> rfl

/-- A process that terminates keeps the invariant. -/
theorem Invariant.terminates (invariant : Invariant pid state) (process : ι) :
    Invariant pid (state.terminates process) := by
  refine invariant.moves False.elim (fun inode lock => ?_) trivial (fun inode other _ lock => ?_)
    fun other mine locked => ?_
  · -- The process has released its locks.
    exact absurd rfl (release_lock_eq_some.mp lock).2
  · exact (release_lock_eq_some.mp lock).1
  · obtain ⟨lock, named⟩ := invariant.owns other locked
    exact ⟨release_lock_eq_some.mpr ⟨lock, mine⟩, named, release_content ..⟩

/-- Deleting the file keeps the invariant. -/
theorem Invariant.deletes (invariant : Invariant pid state) {process : ι}
    (at_ : (state.process process).pc = .runs) :
    Invariant pid { state.processAt process { state.process process with pc := .deleted } with
      name := none } := by
  refine invariant.moves False.elim (fun _ _ => trivial) trivial (fun _ _ _ => id)
    fun other mine locked => ?_
  -- The name is taken away from everybody, but nobody else has locked the file.
  have same := invariant.alone locked (by rw [at_]; trivial : (state.process process).pc.Locked)
  exact absurd same mine

/-- The next step of a process keeps the invariant, if it locks only a file that has the name. -/
theorem Invariant.goesOn (invariant : Invariant pid state) {process : ι}
    (locksNamed : LocksNamed state (.goesOn process))
    (stepped : CreatePidFile.goesOn flags pid state process = some next) :
    Invariant pid next := by
  -- Whoever has locked its file is alone with it.
  have alone : (state.process process).pc.Locked →
      ∀ other, (state.process other).pc.Locked → other = process :=
    fun mine _ locked => invariant.alone locked mine
  unfold CreatePidFile.goesOn at stepped
  simp only at stepped
  cases at_ : (state.process process).pc with
  -- Neither opening the file nor setting its flag locks anything.
  | open_ =>
    simp only [at_] at stepped
    obtain rfl := Option.some.inj stepped
    refine invariant.opens ?_ (by rw [at_]; exact id)
    split <;> exact id
  | getFd =>
    simp only [at_] at stepped
    obtain rfl := Option.some.inj stepped
    exact invariant.processAt id (by rw [at_]; exact id)
  | setFd flags_ =>
    simp only [at_] at stepped
    obtain rfl := Option.some.inj stepped
    exact invariant.processAt id (by rw [at_]; exact id)
  | lockRegion =>
    simp only [at_] at stepped
    split at stepped
    -- The lock is granted: the file was unlocked, since the process itself has no lock.
    next locked result =>
      obtain rfl := Option.some.inj stepped
      unfold Filelock.lockRegion at result
      split at result
      next free =>
        obtain rfl := Option.some.inj result
        have unlocked : (state.file process).lock = none := by
          refine free.resolve_right fun own => ?_
          have holds := invariant.held _ process own
          rw [at_] at holds
          exact holds
        have named := locksNamed process rfl at_ unlocked
        refine invariant.fileBecomes named trivial (fun other owner => ?_) rfl trivial
        -- Whoever else has locked its file has locked this one, which is unlocked.
        obtain ⟨lock, theirs⟩ := invariant.owns other owner
        have same : (state.process other).inode = (state.process process).inode :=
          Option.some.inj (theirs.symm.trans named)
        unfold State.file at lock unlocked
        rw [same, unlocked] at lock
        exact nomatch lock
      · exact nomatch result
    -- The lock is refused, and the process ends with a message.
    · obtain rfl := Option.some.inj stepped
      exact invariant.terminates process
  -- From here on the process is alone with its file.
  | ftruncate =>
    have locked : (state.process process).pc.Locked := by rw [at_]; trivial
    obtain ⟨lock, named⟩ := invariant.owns process locked
    simp only [at_] at stepped
    obtain rfl := Option.some.inj stepped
    exact invariant.fileBecomes named trivial (alone locked) lock rfl
  | write =>
    have locked : (state.process process).pc.Locked := by rw [at_]; trivial
    obtain ⟨lock, named⟩ := invariant.owns process locked
    have empty := invariant.finds process
    rw [at_] at empty
    simp only [at_] at stepped
    obtain rfl := Option.some.inj stepped
    refine invariant.fileBecomes named trivial (alone locked) lock ?_
    -- The file has been truncated, so nothing is left of it behind what is written.
    have rest : (state.file process).content = [] := empty
    show buf (pid process) ++ (state.file process).content.drop _ = pidText (pid process)
    rw [rest, List.drop_nil, List.append_nil, buf_eq]
  | runs =>
    simp only [at_] at stepped
    obtain rfl := Option.some.inj stepped
    exact invariant.deletes at_
  -- The lock ends with the process.
  | deleted =>
    simp only [at_] at stepped
    obtain rfl := Option.some.inj stepped
    exact invariant.terminates process
  | terminated => simp only [at_, reduceCtorEq] at stepped

/-- Every step keeps the invariant, if only a file that has the name is locked. -/
theorem Invariant.step (invariant : Invariant pid state) {action : Action ι}
    (locksNamed : LocksNamed state action)
    (stepped : (createPidFile flags pid).step state action = some next) : Invariant pid next := by
  cases action with
  | goesOn process => exact invariant.goesOn locksNamed stepped
  -- The write comes back short, and the process ends with a message.
  | writesPart process count =>
    simp only [createPidFile, CreatePidFile.step] at stepped
    split at stepped
    next writing =>
      obtain rfl := Option.some.inj stepped
      have locked : (state.process process).pc.Locked := by rw [writing.1]; trivial
      obtain ⟨lock, named⟩ := invariant.owns process locked
      -- A process that has just locked its file may find anything in it.
      have written : Invariant pid
          ((state.processAt process { state.process process with pc := .ftruncate }).fileBecomes
            (state.process process).inode ((state.files (state.process process).inode).write
              ((buf (pid process)).take count))) :=
        invariant.fileBecomes named trivial (fun _ other => invariant.alone other locked) lock
          trivial
      have ended := written.terminates process
      simpa only [State.terminates, State.processAt, State.fileBecomes, Function.update_self,
        Function.update_idem] using ended
    · exact nomatch stepped
  -- A signal may end a process wherever it is.
  | terminates process =>
    simp only [createPidFile, CreatePidFile.step] at stepped
    split at stepped
    · exact nomatch stepped
    · obtain rfl := Option.some.inj stepped
      exact invariant.terminates process

/-- The process is between the return of the function and the end of its file. -/
def State.Runs (state : State ι) (process : ι) : Prop :=
  (state.process process).pc = .runs

/-- What is promised of the processes that run. -/
structure Correct (pid : ι → Pid) (state : State ι) : Prop where
  single : ∀ one two, state.Runs one → state.Runs two → one = two
  /-- While a process runs, the pathname leads to a file that tells its PID and nothing else. -/
  tells : ∀ process, state.Runs process →
    ∃ inode, state.name = some inode ∧ (state.files inode).content = pidText (pid process)

omit [DecidableEq ι] in
/-- The invariant keeps the promise. -/
theorem Invariant.correct (invariant : Invariant pid state) : Correct pid state where
  single := by
    intro one two first second
    exact invariant.alone (by rw [first]; trivial) (by rw [second]; trivial)
  -- The instance that runs owns the file that the name leads to, with its number in it.
  tells := by
    intro process runs
    have named := (invariant.owns process (by rw [runs]; trivial)).2
    have finds := invariant.finds process
    rw [runs] at finds
    exact ⟨(state.process process).inode, named, finds⟩

/-- If only a file that has the name is locked, a single instance runs, and its PID is told. -/
theorem createPidFile_correct {left : Option (List UInt8)} {actions : List (Action ι)}
    (locksNamed : (createPidFile flags pid).Along LocksNamed (initial ι left) actions)
    (ran : (createPidFile flags pid).run (initial ι left) actions = some state) :
    Correct pid state := by
  -- Each step keeps the invariant, given that locks are put on the file with the name.
  have preserved : ∀ state action next, Invariant pid state → LocksNamed state action →
      (createPidFile flags pid).step state action = some next → Invariant pid next :=
    fun _ _ _ before locksNamed stepped => before.step locksNamed stepped
  exact (Machine.run_invariant_along preserved invariant_initial locksNamed ran).correct

/-- The PIDs of three processes. -/
def threePids (process : Fin 3) : Pid :=
  ⟨process.val + 417, by omega, by omega⟩

/-- A file has been left behind; one process starts, and another one finds that it runs. -/
def secondRefused : List (Action (Fin 3)) :=
  [.goesOn 0, .goesOn 1, .goesOn 0, .goesOn 0, .goesOn 0, .goesOn 0, .goesOn 1, .goesOn 0,
    .goesOn 1, .goesOn 1]

/-- The first process runs alone, and the file tells its PID instead of the old one. -/
theorem createPidFile_correct_secondRefused :
    ∃ state, (createPidFile (fun _ => 1) threePids).run
        (initial (Fin 3) (some [57, 57, 57, 57, 57, 10])) secondRefused = some state ∧
      ((state.process 0).pc, (state.process 1).pc, (state.files 0).content) =
        (.runs, .terminated, [52, 49, 55, 10]) ∧ Correct threePids state := by
  -- The second instance finds the file locked and gives up.
  have shown : ((createPidFile (fun _ => 1) threePids).run
      (initial (Fin 3) (some [57, 57, 57, 57, 57, 10])) secondRefused).map
        (fun state => ((state.process 0).pc, (state.process 1).pc, (state.files 0).content)) =
          some (.runs, .terminated, [52, 49, 55, 10]) := by decide +kernel
  -- Each lock is put on the file that has the name at that time.
  have locksNamed : (createPidFile (fun _ => 1) threePids).Along LocksNamed
      (initial (Fin 3) (some [57, 57, 57, 57, 57, 10])) secondRefused := by decide +kernel
  obtain ⟨state, ran, facts⟩ := Option.map_eq_some_iff.mp shown
  exact ⟨state, ran, facts, createPidFile_correct locksNamed ran⟩

/-- The second process opens the file before the first one deletes it, and locks it after that. -/
def lostName : List (Action (Fin 3)) :=
  [.goesOn 0, .goesOn 0, .goesOn 0, .goesOn 0, .goesOn 1, .goesOn 0, .goesOn 0,
    .goesOn 1, .goesOn 1, .goesOn 1, .goesOn 2, .goesOn 2, .goesOn 2, .goesOn 2]

/-- The third process makes and locks a new file, and two instances run. -/
theorem createPidFile_runs_twice :
    ¬ ∀ actions state, (createPidFile (fun _ => 0) threePids).run (initial (Fin 3) none) actions =
      some state → Correct threePids state := by
  intro correct
  have shown : ((createPidFile (fun _ => 0) threePids).run (initial (Fin 3) none) lostName).map
      (fun state => ((state.process 1).pc, (state.process 2).pc)) = some (.runs, .runs) := by
    decide +kernel
  obtain ⟨state, ran, facts⟩ := Option.map_eq_some_iff.mp shown
  obtain ⟨second, third⟩ := Prod.mk.inj facts
  -- The two that run would have to be the same process.
  have same := (correct lostName state ran).single 1 2 second third
  exact absurd same (by decide)

end SysProg.Filelock.CreatePidFile
