import SysProg.Procexec.System

/-! The caller of `system` finds its signal attributes as they were. -/

namespace SysProg.Procexec.System

/-- A world in which `waitpid` is interrupted a finite number of times. -/
structure Patient extends World where
  /-- The first call that is not interrupted. -/
  last : Nat
  interrupted : ∀ call < last, waitpid call = .error eintr
  ends : waitpid last ≠ .error eintr

/-- What the status of a child and a failure are for the caller. -/
def Patient.status (world : Patient) : Int :=
  match world.fork with
  | .error _ => -1
  | .ok _ =>
    match world.waitpid world.last with
    | .error _ => -1
    | .ok status => status

/-- The value for `errno` of the call that has failed. -/
def Patient.failure (world : Patient) : Option Int :=
  match world.fork with
  | .error errno => some errno
  | .ok _ =>
    match world.waitpid world.last with
    | .error errno => some errno
    | .ok _ => none

/-- A signal is ignored if the caller has ignored it, and at its default action otherwise. -/
def Inherits (child caller : SignalState) (sig : Signal) : Prop :=
  (child.actions sig).saHandler =
    if (caller.actions sig).saHandler = .ignore then .ignore else .default

/-- The caller does not notice anything, and the child starts as if nothing had been changed. -/
structure Transparent (world : Patient) (command : Option (List UInt8)) (process : Process)
    (result : Result) : Prop where
  blocked : result.process.signals.blocked = process.signals.blocked
  actions : result.process.signals.actions = process.signals.actions
  errno : ∀ errno ∈ world.failure, result.process.errno = errno
  status : result.status =
    if command.isSome then world.status else if world.status = 0 then 1 else 0
  child : ∀ pid, world.fork = .ok pid → ∃ started, result.child = some started ∧
    started.command = command.getD colonCommand ∧
    started.signals.blocked = process.signals.blocked ∧
    Inherits started.signals process.signals .sigint ∧
    Inherits started.signals process.signals .sigquit

/-- The loop ends with the first call that is not interrupted. -/
theorem waitLoop_yields (world : Patient) (errno : Int) :
    ∃ after, Yields (fun fuel => waitLoop world.toWorld fuel 0 errno)
      (match world.waitpid world.last with
        | .ok status => (status, after)
        | .error errno => (-1, errno)) := by
  -- The induction is on how many calls are still interrupted.
  suffices ∀ left call errno, call + left = world.last → ∃ after,
      Yields (fun fuel => waitLoop world.toWorld fuel call errno)
        (match world.waitpid world.last with
          | .ok status => (status, after)
          | .error errno => (-1, errno)) from this world.last 0 errno (Nat.zero_add _)
  intro left
  induction left with
  | zero =>
    intro call errno sum
    obtain rfl : call = world.last := sum
    refine ⟨errno, Yields.last fun fuel => ?_⟩
    have ends := world.ends
    cases answer : world.waitpid world.last with
    | ok status => simp only [waitLoop, answer]
    | error error =>
      have other : error ≠ eintr := fun same => ends (same ▸ answer)
      simp only [waitLoop, answer, if_pos other]
  | succ left ih =>
    intro call errno sum
    obtain ⟨after, yields⟩ := ih (call + 1) eintr (by omega)
    refine ⟨after, Yields.step (fun fuel => ?_) yields⟩
    simp only [waitLoop, world.interrupted call (by omega), ne_eq, not_true, if_false]

/-- The attributes while there is a child. -/
def changed (signals : SignalState) : SignalState :=
  ((signals.block {Signal.sigchld}).sigaction .sigint saIgnore).sigaction .sigquit saIgnore

/-- Everything that has been changed is put back. -/
theorem restored (signals : SignalState) :
    (((changed signals).setMask signals.blocked).sigaction .sigint
      (signals.actions .sigint)).sigaction .sigquit (signals.actions .sigquit) = signals := by
  -- The mask is set back, and then the two actions, whatever they were.
  refine SignalState.ext (by simp) (funext fun sig => ?_)
  simp only [SignalState.actions_sigaction, SignalState.actions_setMask, changed,
    SignalState.actions_block, Function.update_apply]
  split
  next quit => rw [quit]
  · split
    next int => rw [int]
    · rfl

/-- The child has the mask of the caller. -/
theorem blocked_childSignals (signals caller : SignalState) (saOrigInt saOrigQuit : Sigaction) :
    (childSignals signals caller.blocked saOrigInt saOrigQuit).blocked = caller.blocked :=
  SignalState.blocked_setMask caller _

/-- The child inherits what the caller has ignored, and nothing else. -/
theorem inherits_childSignals (caller : SignalState) :
    Inherits (childSignals (changed caller) caller.blocked (caller.actions .sigint)
        (caller.actions .sigquit)).exec caller .sigint ∧
      Inherits (childSignals (changed caller) caller.blocked (caller.actions .sigint)
        (caller.actions .sigquit)).exec caller .sigquit := by
  have different : Signal.sigint ≠ Signal.sigquit := by decide
  unfold Inherits
  rw [SignalState.saHandler_exec, SignalState.saHandler_exec]
  unfold childSignals
  rw [SignalState.actions_setMask]
  -- Each of the two signals is either left ignored or set to its default.
  by_cases int : (caller.actions .sigint).saHandler = .ignore
  · by_cases quit : (caller.actions .sigquit).saHandler = .ignore
    · simp [int, quit, changed, different, saIgnore]
    · simp [int, quit, changed, different, saIgnore, saDefault]
  · by_cases quit : (caller.actions .sigquit).saHandler = .ignore
    · simp [int, quit, changed, different.symm, saIgnore, saDefault]
    · simp [int, quit, changed, different, saDefault]

/-- What a command leaves behind when the loop ends with a status and a value for `errno`. -/
def finished (command : List UInt8) (process : Process) (ended : Int × Int) : Result where
  status := ended.1
  process := ⟨process.signals, ended.2⟩
  child := some ⟨command, (childSignals (changed process.signals) process.signals.blocked
    (process.signals.actions .sigint) (process.signals.actions .sigquit)).exec⟩

/-- All attributes are put back, whatever comes of a command. -/
theorem systemCommand_eq (world : World) (command : List UInt8) (process : Process) (fuel : Nat) :
    systemCommand world command process fuel =
      match world.fork with
      | .error errno => some ⟨-1, ⟨process.signals, errno⟩, none⟩
      | .ok _ =>
        (waitLoop world fuel 0 (world.disturb (world.disturb (world.disturb process.errno)))).map
          (finished command process) := by
  -- The disposition of `SIGQUIT` is saved when that of `SIGINT` has been changed already.
  have saved : ((process.signals.block {Signal.sigchld}).sigaction .sigint saIgnore).actions
      Signal.sigquit = process.signals.actions Signal.sigquit := by
    rw [SignalState.actions_sigaction, SignalState.actions_block]
    exact Function.update_of_ne (by decide) _ _
  have back := restored process.signals
  unfold changed at back
  unfold systemCommand
  simp only [Process.change, saved, SignalState.actions_block, back]
  cases world.fork <;> rfl

/-- A command is run without the caller noticing anything. -/
theorem systemCommand_transparent (world : Patient) (command : List UInt8) (process : Process) :
    ∃ result, Yields (systemCommand world.toWorld command process) result ∧
      Transparent world (some command) process result := by
  -- Either `fork` fails, or the child is waited for; the signals are restored in both cases.
  have equation := systemCommand_eq world.toWorld command process
  obtain ⟨int, quit⟩ := inherits_childSignals process.signals
  cases forked : world.fork with
  | error errno =>
    simp only [forked] at equation
    refine ⟨_, Yields.last fun fuel => equation (fuel + 1), rfl, rfl, ?_, ?_, ?_⟩
    · simp [Patient.failure, forked]
    · simp [Patient.status, forked]
    · exact fun pid same => absurd (forked.symm.trans same) nofun
  | ok pid =>
    simp only [forked] at equation
    obtain ⟨after, yields⟩ := waitLoop_yields world
      (world.disturb (world.disturb (world.disturb process.errno)))
    refine ⟨_, funext equation ▸ yields.map (finished command process), ?_⟩
    refine ⟨rfl, rfl, ?_, ?_, fun pid _ => ⟨_, rfl, rfl, ?_, int, quit⟩⟩
    · cases answer : world.waitpid world.last <;> simp [Patient.failure, forked, answer, finished]
    · cases answer : world.waitpid world.last <;> simp [Patient.status, forked, answer, finished]
    · exact blocked_childSignals (changed process.signals) process.signals
        (process.signals.actions .sigint) (process.signals.actions .sigquit)

/-- `system` is transparent to the signal state of its caller. -/
theorem system_transparent (world : Patient) (command : Option (List UInt8))
    (process : Process) :
    ∃ result, Yields (system world.toWorld command process) result ∧
      Transparent world command process result := by
  cases command with
  | some command => exact systemCommand_transparent world command process
  | none =>
    -- The same is said of the command that is run instead.
    obtain ⟨result, yields, same⟩ := systemCommand_transparent world colonCommand process
    have available := yields.map fun result : Result =>
      ({ result with status := if result.status = 0 then 1 else 0 } : Result)
    refine ⟨_, available, ?_⟩
    refine ⟨same.blocked, same.actions, same.errno, ?_, same.child⟩
    rw [same.status]
    rfl

/-- Two calls of `waitpid` are interrupted, before the child exits with the status 1. -/
def interruptedTwice : Patient where
  fork := .ok 100
  waitpid call := if call < 2 then .error eintr else .ok 256
  disturb _ := 22
  last := 2
  interrupted _ before := if_pos before
  ends := nofun

/-- The caller blocks SIGUSR1, ignores SIGINT, and catches SIGQUIT. -/
def catching : Process where
  signals :=
    { blocked := {10}
      actions := fun sig =>
        if sig = .sigint then saIgnore
        else if sig = .sigquit then ⟨.catch 4096, 0, {10}⟩
        else saDefault
      blockable := by decide }
  errno := 0

/-- The caller is as it was, and the command ignores SIGINT only. -/
theorem system_transparent_interrupted : ∃ result,
    Yields (system interruptedTwice.toWorld (some [108, 115]) catching) result ∧
      result.status = 256 ∧ result.process.signals = catching.signals ∧
      ∃ started, result.child = some started ∧ started.signals.blocked = {10} ∧
        (started.signals.actions .sigint).saHandler = .ignore ∧
        (started.signals.actions .sigquit).saHandler = .default := by
  -- waitpid() is interrupted twice, and the caller catches SIGINT.
  obtain ⟨result, yields, same⟩ := system_transparent interruptedTwice (some [108, 115]) catching
  obtain ⟨started, child, _, blocked, sigint, sigquit⟩ := same.child 100 rfl
  refine ⟨result, yields, same.status, ?_, started, child, blocked, ?_, ?_⟩
  · exact SignalState.ext same.blocked same.actions
  · rw [sigint]
    rfl
  · rw [sigquit]
    rfl

end SysProg.Procexec.System
