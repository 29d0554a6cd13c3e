import SysProg.Seccomp.FiltersLaws
import SysProg.Seccomp.World

/-! A notification ID that is no longer valid never becomes valid again. -/

namespace SysProg.Seccomp

variable {filter : List ClassicBpf.SockFilter} {world next : World}

/-- Only living processes are blocked, under IDs given out, in calls that the filter picks. -/
structure World.Sound (filter : List ClassicBpf.SockFilter) (world : World) : Prop where
  alive : ∀ id call, world.blocked id = some call → world.Alive call.process
  known : ∀ id call, world.blocked id = some call → id < world.notified
  picked : ∀ id call, world.blocked id = some call → verdict filter call.data = some .userNotif

/-- Where nobody has been born, nobody is blocked. -/
theorem World.initial_sound : World.initial.Sound filter := by
  constructor <;> exact fun _ _ blocked => nomatch blocked

/--
What follows from one world to the next.

IDs are given out in order, and a known ID stands for what it stood for, if for anything.
-/
structure World.Later (world next : World) : Prop where
  notified : world.notified ≤ next.notified
  blocked : ∀ id call, id < world.notified → next.blocked id = some call →
    ∃ before, world.blocked id = some before ∧ before.process = call.process ∧
      before.data = call.data ∧ (before.received = true → call.received = true)

/-- A world in which all calls are as they were, or ended. -/
theorem World.Later.of_ended (sameCount : next.notified = world.notified)
    (ended : ∀ id call, next.blocked id = some call → world.blocked id = some call) :
    world.Later next :=
  ⟨sameCount.ge, fun id call _ blocked => ⟨call, ended id call blocked, rfl, rfl, fun r => r⟩⟩

/-- What an updated table of calls holds. -/
theorem blocked_update {blocked : Nat → Option Call} {id other : Nat} {value : Option Call}
    {call : Call} (found : Function.update blocked id value other = some call) :
    other = id ∧ value = some call ∨ other ≠ id ∧ blocked other = some call := by
  -- The call is the one that was set, or another one.
  by_cases same : other = id
  · subst same
    rw [Function.update_self] at found
    exact .inl ⟨rfl, found⟩
  · rw [Function.update_of_ne same] at found
    exact .inr ⟨same, found⟩

/-- Whatever happens to the other processes leads to a later world. -/
theorem World.later_of_happen {happening : Happening}
    (happens : world.happen filter happening = some next) : world.Later next := by
  -- Only a call gives out an ID; everything else ends calls or leaves them alone.
  cases happening with
  | spawn pid =>
    simp only [World.happen, Option.ite_none_right_eq_some, Option.some.injEq] at happens
    obtain ⟨-, rfl⟩ := happens
    exact .of_ended rfl fun _ _ blocked => blocked
  | terminate process =>
    simp only [World.happen, Option.ite_none_right_eq_some, Option.some.injEq] at happens
    obtain ⟨-, rfl⟩ := happens
    exact .of_ended rfl fun _ _ blocked => (Option.filter_eq_some_iff.mp blocked).1
  | call process data =>
    simp only [World.happen, Option.ite_none_right_eq_some, Option.some.injEq] at happens
    obtain ⟨-, rfl⟩ := happens
    -- The new call has an ID that is not known yet.
    refine ⟨Nat.le_succ _, fun id call known blocked => ?_⟩
    obtain ⟨rfl, -⟩ | ⟨-, blocked⟩ := blocked_update blocked
    · exact absurd known (lt_irrefl _)
    · exact ⟨call, blocked, rfl, rfl, fun received => received⟩
  | interrupt id =>
    obtain rfl := Option.some.inj happens
    refine .of_ended rfl fun other call blocked => ?_
    obtain ⟨-, ended⟩ | ⟨-, blocked⟩ := blocked_update blocked
    · exact nomatch ended
    · exact blocked
  | rewrite process memory =>
    obtain rfl := Option.some.inj happens
    exact .of_ended rfl fun _ _ blocked => blocked

/-- A world stays sound where nobody is blocked that was not, and all processes live on. -/
theorem World.Sound.of_kept (sound : world.Sound filter) (sameHolder : next.holder = world.holder)
    (sameCount : next.notified = world.notified)
    (kept : ∀ id call, next.blocked id = some call → ∃ before, world.blocked id = some before ∧
      before.process = call.process ∧ before.data = call.data) : next.Sound filter := by
  -- What is blocked now was blocked before, by the same process in the same call.
  refine ⟨fun id call blocked => ?_, fun id call blocked => ?_, fun id call blocked => ?_⟩ <;>
    obtain ⟨before, blocked, process, data⟩ := kept id call blocked
  · rw [World.Alive, sameHolder, ← process]
    exact sound.alive id before blocked
  · exact sameCount ▸ sound.known id before blocked
  · exact data ▸ sound.picked id before blocked

/-- Whatever happens to the other processes keeps the world sound. -/
theorem World.Sound.happen (sound : world.Sound filter) {happening : Happening}
    (happens : world.happen filter happening = some next) : next.Sound filter := by
  cases happening with
  | spawn pid =>
    simp only [World.happen, Option.ite_none_right_eq_some, Option.some.injEq] at happens
    obtain ⟨free, rfl⟩ := happens
    -- The PID was free, so no process that is blocked has had it.
    refine ⟨fun id call blocked => ?_, sound.known, sound.picked⟩
    have alive : world.holder call.process.pid = _ := sound.alive id call blocked
    have other : call.process.pid ≠ pid := by
      intro same
      rw [same, free] at alive
      exact nomatch alive
    show Function.update world.holder pid _ call.process.pid = _
    rw [Function.update_of_ne other]
    exact alive
  | terminate process =>
    simp only [World.happen, Option.ite_none_right_eq_some, Option.some.injEq] at happens
    obtain ⟨lived, rfl⟩ := happens
    -- The calls of the process that ends are dropped.
    have before : ∀ id call, ((world.blocked id).filter fun call => call.process ≠ process) =
        some call → world.blocked id = some call ∧ call.process ≠ process := by
      intro id call blocked
      simpa using Option.filter_eq_some_iff.mp blocked
    refine ⟨fun id call blocked => ?_, fun id call blocked => sound.known id call (before id call
      blocked).1, fun id call blocked => sound.picked id call (before id call blocked).1⟩
    -- A process that is still blocked is another one, and so has another PID.
    obtain ⟨blocked, other⟩ := before id call blocked
    have alive : world.holder call.process.pid = _ := sound.alive id call blocked
    have otherPid : call.process.pid ≠ process.pid := by
      intro same
      rw [same, show world.holder process.pid = _ from lived] at alive
      apply other
      cases process
      cases called : call.process
      simp_all
    show Function.update world.holder process.pid none call.process.pid = _
    rw [Function.update_of_ne otherPid]
    exact alive
  | call process data =>
    simp only [World.happen, Option.ite_none_right_eq_some, Option.some.injEq] at happens
    obtain ⟨⟨alive, verdict⟩, rfl⟩ := happens
    -- The new call is by a living process, with the next ID, and was picked by the filter.
    refine ⟨fun id call blocked => ?_, fun id call blocked => ?_, fun id call blocked => ?_⟩ <;>
      obtain ⟨rfl, made⟩ | ⟨-, blocked⟩ := blocked_update blocked
    · exact Option.some.inj made ▸ alive
    · exact sound.alive id call blocked
    · exact Nat.lt_succ_self _
    · exact Nat.lt_succ_of_lt (sound.known id call blocked)
    · exact Option.some.inj made ▸ verdict
    · exact sound.picked id call blocked
  | interrupt id =>
    obtain rfl := Option.some.inj happens
    refine sound.of_kept rfl rfl fun other call blocked => ?_
    obtain ⟨-, ended⟩ | ⟨-, blocked⟩ := blocked_update blocked
    · exact nomatch ended
    · exact ⟨call, blocked, rfl, rfl⟩
  | rewrite process memory =>
    obtain rfl := Option.some.inj happens
    exact ⟨sound.alive, sound.known, sound.picked⟩

/-- What the kernel notifies the supervisor of. -/
theorem World.recv_eq_some {id : Nat} {notifier : Process} {req : SeccompNotif}
    (received : world.recv id = some (next, notifier, req)) :
    ∃ call, world.blocked id = some call ∧ call.received = false ∧
      next = { world with
        blocked := Function.update world.blocked id (some { call with received := true }) } ∧
      notifier = call.process ∧ req = ⟨id, call.process.pid, call.data⟩ := by
  -- There is a result only for a call that has not been received before.
  unfold World.recv at received
  split at received
  · exact nomatch received
  next call blocked =>
    split at received
    · exact nomatch received
    next fresh =>
      simp only [Option.some.injEq, Prod.mk.injEq] at received
      obtain ⟨rfl, rfl, rfl⟩ := received
      exact ⟨call, blocked, by simpa using fresh, rfl, rfl, rfl⟩

/-- Notifying the supervisor leads to a later world, and keeps it sound. -/
theorem World.Sound.recv (sound : world.Sound filter) {id : Nat} {notifier : Process}
    {req : SeccompNotif} (received : world.recv id = some (next, notifier, req)) :
    world.Later next ∧ next.Sound filter := by
  obtain ⟨call, blocked, -, rfl, -, -⟩ := World.recv_eq_some received
  have kept : ∀ other after, Function.update world.blocked id
      (some { call with received := true }) other = some after →
      ∃ before, world.blocked other = some before ∧ before.process = after.process ∧
        before.data = after.data ∧ (before.received = true → after.received = true) := by
    -- The call that is received keeps its process and its data.
    intro other after found
    obtain ⟨rfl, changed⟩ | ⟨-, found⟩ := blocked_update found
    · obtain rfl := Option.some.inj changed
      exact ⟨call, blocked, rfl, rfl, fun _ => rfl⟩
    · exact ⟨after, found, rfl, rfl, fun already => already⟩
  refine ⟨⟨le_refl _, fun other after _ found => kept other after found⟩, ?_⟩
  refine sound.of_kept rfl rfl fun other after found => ?_
  obtain ⟨before, found, process, data, -⟩ := kept other after found
  exact ⟨before, found, process, data⟩

/-- Answering a call leads to a later world, and keeps it sound. -/
theorem World.Sound.send (sound : world.Sound filter) (id : Nat) :
    world.Later (world.send id) ∧ (world.send id).Sound filter := by
  unfold World.send
  split
  swap
  · exact ⟨.of_ended rfl fun _ _ blocked => blocked, sound⟩
  -- The call that is answered ends, and the others stay.
  have ended : ∀ other call, Function.update world.blocked id none other = some call →
      world.blocked other = some call := by
    intro other call blocked
    obtain ⟨-, ended⟩ | ⟨-, blocked⟩ := blocked_update blocked
    · exact nomatch ended
    · exact blocked
  exact ⟨.of_ended rfl ended, sound.of_kept rfl rfl fun other call blocked =>
    ⟨call, ended other call blocked, rfl, rfl⟩⟩

end SysProg.Seccomp
