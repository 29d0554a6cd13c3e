import SysProg.GoPatterns.Pool
import SysProg.Lib.Fairness
import SysProg.Lib.Ledger

/-! A pool keeps every resource in one place, closes what it does not hand out, and never blocks. -/

namespace SysProg.GoPatterns.Pool

variable {Goroutine Resource : Type*}

/-- The goroutine has locked the mutex. -/
def Pc.locked : Pc Resource → Bool
  | .release stage _ _ _ => stage ≠ .lock
  | .close .lock _ _ => false
  | .close _ _ _ => true
  | _ => false

/-- The goroutine is between setting `p.closed` and the end of the loop over the channel. -/
def Pc.closing : Pc Resource → Bool
  | .close .closeChannel _ _ | .close .drain _ _ | .close (.closeResource _) _ _ => true
  | _ => false

/-- What a goroutine at this place may rely on. -/
def Pc.Fits (state : State Goroutine Resource) : Pc Resource → Prop
  | .idle => True
  | .acquire .select late => late = true → state.closeReturned = true
  | .acquire .factory late => late = false
  | .release stage _ late disposals =>
    (late = true → state.closeReturned = true) ∧
    match stage with
    | .lock | .checkClosed => disposals = []
    | .discard => disposals = [] ∧ state.closed = true
    | .select | .close => disposals = [] ∧ state.closed = false
    | .unlock => disposals.length = 1 ∧ (late = true → disposals = [.closed])
  | .close stage _ _ =>
    match stage with
    | .lock | .checkClosed => True
    | .setClosed => state.closed = false
    | .closeChannel =>
      state.closed = true ∧ state.resourcesClosed = false ∧ state.closeReturned = false
    | .drain | .closeResource _ =>
      state.closed = true ∧ state.resourcesClosed = true ∧ state.closeReturned = false
    | .unlock => state.closed = true ∧ state.resourcesClosed = true ∧ state.resources = []
  | .panicked => False

/-- What the mutex and the two closed flags guarantee in every state of a pool. -/
structure Control (state : State Goroutine Resource) : Prop where
  mutex : ∀ goroutine, state.m = some goroutine ↔ (state.pc goroutine).locked = true
  /-- Unless a `Close` is at work, a closed pool has a closed channel that is empty. -/
  settled : (∀ goroutine, (state.pc goroutine).closing = false) →
    state.resourcesClosed = state.closed ∧ (state.closed = true → state.resources = [])
  fits : ∀ goroutine, (state.pc goroutine).Fits state
  returned : state.closeReturned = true →
    state.closed = true ∧ state.resourcesClosed = true ∧ state.resources = []
  size : state.resources.length ≤ state.size

/-- What a goroutine relies on stays true while others step. -/
theorem Pc.Fits.frame {state next : State Goroutine Resource} {pc : Pc Resource}
    (fits : pc.Fits state) (late : state.closeReturned = true → next.closeReturned = true)
    (flags : pc.locked = true → next.closed = state.closed ∧
      next.resourcesClosed = state.resourcesClosed ∧ next.closeReturned = state.closeReturned ∧
      next.resources.length ≤ state.resources.length) : pc.Fits next := by
  -- Without the mutex, only the fact that some `Close` has returned matters, which stays so.
  cases pc with
  | idle => trivial
  | panicked => exact fits
  | acquire stage wasLate =>
    cases stage with
    | select => exact fun wasLate => late (fits wasLate)
    | factory => exact fits
  | release stage resource wasLate disposals =>
    refine ⟨fun wasLate => late (fits.1 wasLate), ?_⟩
    have rest := fits.2
    cases stage <;> simp [Pc.locked] at flags <;> simp [flags] at rest ⊢ <;> exact rest
  | close stage queued handed =>
    cases stage <;> simp [Pc.locked] at flags <;> simp [Pc.Fits, flags] at fits ⊢
    case unlock =>
      have fewer := flags.2.2.2
      rw [fits.2.2] at fewer
      exact ⟨fits.1, fits.2.1, List.eq_nil_of_length_eq_zero (Nat.le_zero.mp fewer)⟩
    all_goals exact fits

/-- Whoever closes the channel or drains it owns the mutex. -/
theorem Pc.locked_of_closing {pc : Pc Resource} (closing : pc.closing = true) :
    pc.locked = true := by
  cases pc with
  | close stage queued handed => cases stage <;> simp [Pc.closing, Pc.locked] at closing ⊢
  | _ => simp [Pc.closing] at closing

/-- At most one goroutine has locked the mutex. -/
theorem Control.eq_of_locked {state : State Goroutine Resource} (control : Control state)
    {first second : Goroutine} (one : (state.pc first).locked = true)
    (two : (state.pc second).locked = true) : first = second := by
  -- The mutex has one owner.
  have owner := (control.mutex first).mpr one
  rw [(control.mutex second).mpr two] at owner
  exact (Option.some.inj owner).symm

/-- The owner of the mutex finds the flags settled, unless it is closing the channel itself. -/
theorem Control.settled_of_locked {state : State Goroutine Resource} (control : Control state)
    {goroutine : Goroutine} (locked : (state.pc goroutine).locked = true)
    (quiet : (state.pc goroutine).closing = false) :
    state.resourcesClosed = state.closed ∧ (state.closed = true → state.resources = []) := by
  -- Whoever is inside Close has the mutex, too, so it would be this goroutine, which is not
  -- closing.
  refine control.settled fun other => ?_
  by_contra closing
  have closing : (state.pc other).closing = true := by simpa using closing
  obtain rfl := control.eq_of_locked (Pc.locked_of_closing closing) locked
  simp [quiet] at closing

/-- A new pool starts with its mutex free and its channel open. -/
theorem control_new {size : Nat} {start : State Goroutine Resource} (made : new size = .ok start) :
    Control start := by
  simp only [new] at made
  -- A pool of size zero is refused.
  split at made
  · cases made
  · obtain rfl := Except.ok.inj made
    constructor <;> simp [Pc.locked, Pc.Fits]

/-- Where a resource can be. -/
inductive Place (Goroutine : Type*) where
  | unborn
  | held (goroutine : Goroutine)
  /-- In a call of `Release` that has not disposed of it yet. -/
  | releasing (goroutine : Goroutine)
  | queued
  /-- Taken from the channel by `Close` and about to be closed. -/
  | draining (goroutine : Goroutine)
  | closed
  deriving DecidableEq

/-- The resource that a call of `Release` still has to dispose of. -/
def Pc.releasing : Pc Resource → Option Resource
  | .release _ resource _ disposals => if disposals = [] then some resource else none
  | _ => none

/-- The resource that a call of `Close` has taken from the channel and still has to close. -/
def Pc.draining : Pc Resource → Option Resource
  | .close (.closeResource resource) _ _ => some resource
  | _ => none

/-- The resource that a call of `Release` has disposed of in this way, and still has to report. -/
def Pc.disposing (disposal : Disposal) : Pc Resource → List Resource
  | .release .unlock resource _ disposals => if disposals = [disposal] then [resource] else []
  | _ => []

/-- Only the owner of the mutex has something to report. -/
theorem Pc.disposing_of_unlocked {pc : Pc Resource} (unlocked : pc.locked = false)
    (disposal : Disposal) : pc.disposing disposal = [] := by
  -- A call of `Release` that has disposed of its resource has not unlocked the mutex yet.
  cases pc with
  | release stage resource late disposals => cases stage <;> simp [Pc.locked, Pc.disposing] at *
  | _ => rfl

/-- The resources that calls of `Release` have reported to be disposed of in this way. -/
def State.reported (state : State Goroutine Resource) (disposal : Disposal) : List Resource :=
  (state.releaseReturns.filter (·.disposals = [disposal])).map (·.resource)

/-- What the owner of the mutex has disposed of in this way and still has to report. -/
def State.pending (state : State Goroutine Resource) (disposal : Disposal) : List Resource :=
  match state.m with
  | some owner => (state.pc owner).disposing disposal
  | none => []

/-- What calls of `Release` have disposed of in this way, in order. -/
def State.disposed (state : State Goroutine Resource) (disposal : Disposal) : List Resource :=
  state.reported disposal ++ state.pending disposal

/-- A step that disposes of a resource, and has it to report. -/
theorem Control.disposed_append {state next : State Goroutine Resource} {goroutine : Goroutine}
    {disposal : Disposal} {resource : Resource} (control : Control state)
    (reports : next.releaseReturns = state.releaseReturns) (owner : next.m = state.m)
    (locked : (state.pc goroutine).locked = true)
    (before : (state.pc goroutine).disposing disposal = [])
    (after : (next.pc goroutine).disposing disposal = [resource]) :
    next.disposed disposal = state.disposed disposal ++ [resource] := by
  -- The pending disposals are those of the owner of the mutex, which this goroutine is.
  have own := (control.mutex goroutine).mpr locked
  rw [State.disposed, State.disposed, State.reported, State.reported, State.pending, State.pending,
    reports, owner, own]
  simp [before, after]

/-- A call that returns reports what it had to report. -/
theorem Control.disposed_report {state next : State Goroutine Resource} {goroutine : Goroutine}
    {resource : Resource} {late : Bool} {disposals : List Disposal} (control : Control state)
    (here : state.pc goroutine = .release .unlock resource late disposals)
    (reports : next.releaseReturns = state.releaseReturns ++ [⟨late, resource, disposals⟩])
    (free : next.m = none) (disposal : Disposal) :
    next.disposed disposal = state.disposed disposal := by
  -- The goroutine owns the mutex, so it was the one with something to report.
  have own := (control.mutex goroutine).mpr (by rw [here]; rfl)
  rw [State.disposed, State.disposed, State.reported, State.reported, State.pending, State.pending,
    reports, free, own]
  by_cases which : disposals = [disposal] <;> simp [here, Pc.disposing, which]

/-- Once a `Close` has returned, nobody drains the channel. -/
theorem Control.not_draining {state : State Goroutine Resource} (control : Control state)
    (returned : state.closeReturned = true) (goroutine : Goroutine) :
    (state.pc goroutine).draining = none := by
  have fits := control.fits goroutine
  cases here : state.pc goroutine with
  | close stage queued handed =>
    cases stage with
    -- Whoever closes a drained resource has not returned from the first Close.
    | closeResource resource =>
      rw [here] at fits
      have early := fits.2.2
      rw [returned] at early
      cases early
    | lock | checkClosed | setClosed | closeChannel | drain | unlock => rfl
  | idle | acquire | release | panicked => rfl

/-- How many steps the owner of the mutex is from unlocking it, with so many elements queued. -/
def Pc.work (queued : Nat) : Pc Resource → Nat
  | .release .checkClosed _ _ _ => 4
  | .release .select _ _ _ => 3
  | .release .discard _ _ _ | .release .close _ _ _ => 2
  | .close .checkClosed _ _ => 2 * queued + 5
  | .close .setClosed _ _ => 2 * queued + 4
  | .close .closeChannel _ _ | .close (.closeResource _) _ _ => 2 * queued + 3
  | .close .drain _ _ => 2 * queued + 2
  | .release .unlock _ _ _ | .close .unlock _ _ => 1
  | _ => 0

/-- More elements in the channel never mean less work. -/
theorem Pc.work_mono {fewer more : Nat} (le : fewer ≤ more) (pc : Pc Resource) :
    pc.work fewer ≤ pc.work more := by
  cases pc with
  | release stage _ _ _ | close stage _ _ => cases stage <;> simp [Pc.work, le]
  | _ => exact le_rfl

variable [DecidableEq Goroutine] [DecidableEq Resource]

/-- How often a resource is found at a place. -/
def State.count (state : State Goroutine Resource) (resource : Resource) :
    Place Goroutine → Nat
  | .unborn => if resource ∈ state.created then 0 else 1
  | .held goroutine => (state.held goroutine).count resource
  | .releasing goroutine => if (state.pc goroutine).releasing = some resource then 1 else 0
  | .queued => state.resources.count resource
  | .draining goroutine => if (state.pc goroutine).draining = some resource then 1 else 0
  | .closed => state.closes resource

/-- Everything one step of a goroutine can do. -/
inductive Move (state : State Goroutine Resource) (goroutine : Goroutine) :
    State Goroutine Resource → Prop
  | callAcquire (here : state.pc goroutine = .idle) :
    Move state goroutine (state.goto goroutine (.acquire .select state.closeReturned))
  | callRelease (resource : Resource) (here : state.pc goroutine = .idle)
      (holds : resource ∈ state.held goroutine) :
    Move state goroutine ({ state with
      held := Function.update state.held goroutine
        ((state.held goroutine).erase resource) }.goto goroutine
          (.release .lock resource state.closeReturned []))
  | callClose (here : state.pc goroutine = .idle) :
    Move state goroutine
      (state.goto goroutine (.close .lock state.resources state.handed.length))
  | receive (late : Bool) (resource : Resource) (rest : List Resource)
      (here : state.pc goroutine = .acquire .select late)
      (queue : state.resources = resource :: rest) :
    Move state goroutine ({ state.hold goroutine resource with
      resources := rest
      handed := state.handed ++ [resource] }.returnAcquire goroutine late (.ok resource))
  | receiveClosed (late : Bool) (here : state.pc goroutine = .acquire .select late)
      (empty : state.resources = []) (closed : state.resourcesClosed = true) :
    Move state goroutine (state.returnAcquire goroutine late (.error .errPoolClosed))
  | receiveNothing (late : Bool) (here : state.pc goroutine = .acquire .select late)
      (empty : state.resources = []) (opened : state.resourcesClosed = false) :
    Move state goroutine (state.goto goroutine (.acquire .factory late))
  | create (late : Bool) (resource : Resource)
      (here : state.pc goroutine = .acquire .factory late) (fresh : resource ∉ state.created) :
    Move state goroutine ({ state.hold goroutine resource with
      created := resource :: state.created }.returnAcquire goroutine late (.ok resource))
  | createFailed (late : Bool) (text : String)
      (here : state.pc goroutine = .acquire .factory late) :
    Move state goroutine (state.returnAcquire goroutine late (.error (.factory text)))
  | lockRelease (resource : Resource) (late : Bool) (disposals : List Disposal)
      (here : state.pc goroutine = .release .lock resource late disposals)
      (free : state.m = none) :
    Move state goroutine ({ state with m := some goroutine }.goto goroutine
      (.release .checkClosed resource late disposals))
  | releaseClosed (resource : Resource) (late : Bool) (disposals : List Disposal)
      (here : state.pc goroutine = .release .checkClosed resource late disposals)
      (closed : state.closed = true) :
    Move state goroutine (state.goto goroutine (.release .discard resource late disposals))
  | releaseOpen (resource : Resource) (late : Bool) (disposals : List Disposal)
      (here : state.pc goroutine = .release .checkClosed resource late disposals)
      (opened : state.closed = false) :
    Move state goroutine (state.goto goroutine (.release .select resource late disposals))
  | discard (stage : ReleaseStage) (resource : Resource) (late : Bool)
      (disposals : List Disposal) (which : stage = .discard ∨ stage = .close)
      (here : state.pc goroutine = .release stage resource late disposals) :
    Move state goroutine ((state.closeResource resource).goto goroutine
      (.release .unlock resource late (disposals ++ [Disposal.closed])))
  | sendPanics (resource : Resource) (late : Bool) (disposals : List Disposal)
      (here : state.pc goroutine = .release .select resource late disposals)
      (closed : state.resourcesClosed = true) :
    Move state goroutine (state.goto goroutine .panicked)
  | send (resource : Resource) (late : Bool) (disposals : List Disposal)
      (here : state.pc goroutine = .release .select resource late disposals)
      (opened : state.resourcesClosed = false) (room : state.resources.length < state.size) :
    Move state goroutine ({ state with
      resources := state.resources ++ [resource]
      sent := state.sent ++ [resource] }.goto goroutine
        (.release .unlock resource late (disposals ++ [Disposal.queued])))
  | sendNothing (resource : Resource) (late : Bool) (disposals : List Disposal)
      (here : state.pc goroutine = .release .select resource late disposals)
      (opened : state.resourcesClosed = false) (full : ¬ state.resources.length < state.size) :
    Move state goroutine (state.goto goroutine (.release .close resource late disposals))
  | unlockRelease (resource : Resource) (late : Bool) (disposals : List Disposal)
      (here : state.pc goroutine = .release .unlock resource late disposals) :
    Move state goroutine { state.goto goroutine .idle with
      m := none
      releaseReturns := state.releaseReturns ++ [⟨late, resource, disposals⟩] }
  | lockClose (queued : List Resource) (handed : Nat)
      (here : state.pc goroutine = .close .lock queued handed) (free : state.m = none) :
    Move state goroutine
      ({ state with m := some goroutine }.goto goroutine (.close .checkClosed queued handed))
  | closeAgain (queued : List Resource) (handed : Nat)
      (here : state.pc goroutine = .close .checkClosed queued handed)
      (closed : state.closed = true) :
    Move state goroutine (state.goto goroutine (.close .unlock queued handed))
  | closeFirst (queued : List Resource) (handed : Nat)
      (here : state.pc goroutine = .close .checkClosed queued handed)
      (opened : state.closed = false) :
    Move state goroutine (state.goto goroutine (.close .setClosed queued handed))
  | setClosed (queued : List Resource) (handed : Nat)
      (here : state.pc goroutine = .close .setClosed queued handed) :
    Move state goroutine
      ({ state with closed := true }.goto goroutine (.close .closeChannel queued handed))
  | closePanics (queued : List Resource) (handed : Nat)
      (here : state.pc goroutine = .close .closeChannel queued handed)
      (closed : state.resourcesClosed = true) :
    Move state goroutine (state.goto goroutine .panicked)
  | closeChannel (queued : List Resource) (handed : Nat)
      (here : state.pc goroutine = .close .closeChannel queued handed)
      (opened : state.resourcesClosed = false) :
    Move state goroutine
      ({ state with resourcesClosed := true }.goto goroutine (.close .drain queued handed))
  | drain (queued : List Resource) (handed : Nat) (resource : Resource) (rest : List Resource)
      (here : state.pc goroutine = .close .drain queued handed)
      (queue : state.resources = resource :: rest) :
    Move state goroutine ({ state with
      resources := rest
      drained := state.drained ++ [resource] }.goto goroutine
        (.close (.closeResource resource) queued handed))
  | drained (queued : List Resource) (handed : Nat)
      (here : state.pc goroutine = .close .drain queued handed) (empty : state.resources = []) :
    Move state goroutine (state.goto goroutine (.close .unlock queued handed))
  | closeResource (queued : List Resource) (handed : Nat) (resource : Resource)
      (here : state.pc goroutine = .close (.closeResource resource) queued handed) :
    Move state goroutine
      ((state.closeResource resource).goto goroutine (.close .drain queued handed))
  | unlockClose (queued : List Resource) (handed : Nat)
      (here : state.pc goroutine = .close .unlock queued handed) :
    Move state goroutine { state.goto goroutine .idle with
      m := none
      closeReturned := true
      closeReturns := state.closeReturns ++ [⟨queued, state.handed.drop handed⟩] }

/-- Every step of `Acquire` is one of the moves. -/
theorem acquireStep_move {state next : State Goroutine Resource} {goroutine : Goroutine}
    {late : Bool} {answer : Except String Resource} {stage : AcquireStage}
    (here : state.pc goroutine = .acquire stage late)
    (stepped : acquireStep state goroutine late answer stage = some next) :
    Move state goroutine next := by
  cases stage with
  | select =>
    unfold acquireStep at stepped
    -- The channel decides: a queued resource, an empty channel, or a closed one.
    cases queue : state.resources with
    | nil =>
      cases closed : state.resourcesClosed <;> simp [queue, closed] at stepped <;> subst stepped
      · exact .receiveNothing late here queue closed
      · exact .receiveClosed late here queue closed
    | cons resource rest =>
      simp [queue] at stepped
      exact stepped ▸ .receive late resource rest here queue
  | factory =>
    cases answer with
    -- The factory makes a resource that nobody has had before.
    | ok resource =>
      simp only [acquireStep, Option.ite_none_left_eq_some, Option.some.injEq] at stepped
      obtain ⟨fresh, rfl⟩ := stepped
      exact .create late resource here fresh
    | error text =>
      obtain rfl := Option.some.inj stepped
      exact .createFailed late text here

/-- Every step of `Release` is one of the moves. -/
theorem releaseStep_move {state next : State Goroutine Resource} {goroutine : Goroutine}
    {resource : Resource} {late : Bool} {disposals : List Disposal} {stage : ReleaseStage}
    (here : state.pc goroutine = .release stage resource late disposals)
    (stepped : releaseStep state goroutine resource late disposals stage = some next) :
    Move state goroutine next := by
  -- One case for each place in Release, in the order of the source.
  cases stage with
  | lock =>
    simp only [releaseStep, Option.ite_none_right_eq_some, Option.some.injEq] at stepped
    obtain ⟨free, rfl⟩ := stepped
    exact .lockRelease resource late disposals here free
  | checkClosed =>
    cases closed : state.closed <;> simp [releaseStep, closed] at stepped <;> subst stepped
    · exact .releaseOpen resource late disposals here closed
    · exact .releaseClosed resource late disposals here closed
  | discard =>
    obtain rfl := Option.some.inj stepped
    exact .discard .discard resource late disposals (.inl rfl) here
  | close =>
    obtain rfl := Option.some.inj stepped
    exact .discard .close resource late disposals (.inr rfl) here
  -- The mutex is held, but nothing in the code of this step says that the channel is still open.
  | select =>
    cases closed : state.resourcesClosed with
    | true =>
      simp [releaseStep, closed] at stepped
      exact stepped ▸ .sendPanics resource late disposals here closed
    | false =>
      rw [releaseStep, if_neg (by simp [closed])] at stepped
      split at stepped <;> rename_i room <;> obtain rfl := Option.some.inj stepped
      · exact .send resource late disposals here closed room
      · exact .sendNothing resource late disposals here closed room
  | unlock =>
    obtain rfl := Option.some.inj stepped
    exact .unlockRelease resource late disposals here

/-- Every step of `Close` is one of the moves. -/
theorem closeStep_move {state next : State Goroutine Resource} {goroutine : Goroutine}
    {queued : List Resource} {handed : Nat} {stage : CloseStage Resource}
    (here : state.pc goroutine = .close stage queued handed)
    (stepped : closeStep state goroutine queued handed stage = some next) :
    Move state goroutine next := by
  -- One case for each place in Close, in the order of the source.
  cases stage with
  | lock =>
    simp only [closeStep, Option.ite_none_right_eq_some, Option.some.injEq] at stepped
    obtain ⟨free, rfl⟩ := stepped
    exact .lockClose queued handed here free
  | checkClosed =>
    cases closed : state.closed <;> simp [closeStep, closed] at stepped <;> subst stepped
    · exact .closeFirst queued handed here closed
    · exact .closeAgain queued handed here closed
  | setClosed =>
    obtain rfl := Option.some.inj stepped
    exact .setClosed queued handed here
  | closeChannel =>
    cases closed : state.resourcesClosed <;> simp [closeStep, closed] at stepped <;> subst stepped
    · exact .closeChannel queued handed here closed
    · exact .closePanics queued handed here closed
  -- The loop over the channel takes one resource at a time, until it is empty.
  | drain =>
    unfold closeStep at stepped
    cases queue : state.resources with
    | nil =>
      simp [queue] at stepped
      exact stepped.2 ▸ .drained queued handed here queue
    | cons resource rest =>
      simp [queue] at stepped
      exact stepped ▸ .drain queued handed resource rest here queue
  | closeResource resource =>
    obtain rfl := Option.some.inj stepped
    exact .closeResource queued handed resource here
  | unlock =>
    obtain rfl := Option.some.inj stepped
    exact .unlockClose queued handed here

/-- Every step of a goroutine is one of the moves. -/
theorem goroutineStep_move {state next : State Goroutine Resource} {goroutine : Goroutine}
    {action : Action Resource} (stepped : goroutineStep state goroutine action = some next) :
    Move state goroutine next := by
  -- A call begins only where the goroutine is idle.
  cases action with
  | callAcquire =>
    cases here : state.pc goroutine <;> simp [goroutineStep, here] at stepped
    exact stepped ▸ .callAcquire here
  | callRelease resource =>
    cases here : state.pc goroutine <;> simp [goroutineStep, here] at stepped
    obtain ⟨holds, rfl⟩ := stepped
    exact .callRelease resource here holds
  | callClose =>
    cases here : state.pc goroutine <;> simp [goroutineStep, here] at stepped
    exact stepped ▸ .callClose here
  -- Inside a call, the step is that of the method.
  | go answer =>
    cases here : state.pc goroutine <;> simp only [goroutineStep, here, reduceCtorEq] at stepped
    case acquire => exact acquireStep_move here stepped
    case release => exact releaseStep_move here stepped
    case close => exact closeStep_move here stepped

/-- A step of a goroutine leaves all others where they are. -/
theorem Move.pc_other {state next : State Goroutine Resource} {goroutine other : Goroutine}
    (move : Move state goroutine next) (different : other ≠ goroutine) :
    next.pc other = state.pc other := by
  cases move <;> exact Function.update_of_ne different _ _

/-- Only the owner of the mutex touches the flags, and nobody else adds to the channel. -/
theorem Move.flags {state next : State Goroutine Resource} {goroutine : Goroutine}
    (move : Move state goroutine next) (unlocked : (state.pc goroutine).locked = false) :
    next.closed = state.closed ∧ next.resourcesClosed = state.resourcesClosed ∧
      next.closeReturned = state.closeReturned ∧
      next.resources.length ≤ state.resources.length := by
  -- Without the mutex, only Acquire touches the channel, and it can only take something out.
  cases move
  case receive late resource rest here queue =>
    exact ⟨rfl, rfl, rfl, by simp [queue, State.returnAcquire, State.goto]⟩
  case discard stage resource late disposals which here =>
    rcases which with rfl | rfl <;> simp [here, Pc.locked] at unlocked
  all_goals first
    | exact ⟨rfl, rfl, rfl, le_rfl⟩
    | simp [*, Pc.locked] at unlocked

/-- No step of a pool panics: nobody sends on the closed channel or closes it again. -/
theorem Control.not_panics {state next : State Goroutine Resource} {goroutine : Goroutine}
    (control : Control state) (move : Move state goroutine next) :
    next.pc goroutine ≠ .panicked := by
  -- Only two moves panic, and both contradict what the flags say at their place.
  have fits := control.fits goroutine
  cases move
  -- The channel is closed only if the pool is, which this Release has ruled out under the mutex.
  case sendPanics resource late disposals here closed =>
    have settled := control.settled_of_locked (by simp [here, Pc.locked])
      (by simp [here, Pc.closing] : (state.pc goroutine).closing = false)
    simp [here, Pc.Fits, ← settled.1, closed] at fits
  case closePanics queued handed here closed => simp [here, Pc.Fits, closed] at fits
  all_goals simp [State.goto, State.returnAcquire]

/-- A move locks the mutex, unlocks it, or leaves it alone. -/
theorem Move.lock {state next : State Goroutine Resource} {goroutine : Goroutine}
    (move : Move state goroutine next) (continues : next.pc goroutine ≠ .panicked) :
    (next.m = state.m ∧ (next.pc goroutine).locked = (state.pc goroutine).locked) ∨
      (state.m = none ∧ next.m = some goroutine ∧ (next.pc goroutine).locked = true) ∨
      ((state.pc goroutine).locked = true ∧ next.m = none ∧
        (next.pc goroutine).locked = false) := by
  -- A move leaves the mutex alone, takes it when it is free, or gives it back.
  cases move
  case discard stage resource late disposals which here =>
    rcases which with rfl | rfl <;>
      simp [State.goto, State.closeResource, here, Pc.locked]
  all_goals simp_all [State.goto, State.returnAcquire, State.hold, State.closeResource, Pc.locked]

/-- The mutex has one owner, before and after a step. -/
theorem Control.mutex_step {state next : State Goroutine Resource} {goroutine : Goroutine}
    (control : Control state) (move : Move state goroutine next) (other : Goroutine) :
    next.m = some other ↔ (next.pc other).locked = true := by
  -- The goroutine that moves is looked at first, then all others.
  have mutex := control.mutex
  by_cases same : other = goroutine
  · subst same
    rcases move.lock (control.not_panics move) with ⟨stays, same⟩ | ⟨_, locks, locked⟩ |
      ⟨_, unlocks, unlocked⟩
    · rw [stays, same]
      exact mutex other
    · simp [locks, locked]
    · simp [unlocks, unlocked]
  -- The place of another goroutine has not changed, so it owns the mutex if it did before.
  · rw [move.pc_other same, ← mutex other]
    rcases move.lock (control.not_panics move) with ⟨stays, _⟩ | ⟨free, locks, _⟩ |
      ⟨locked, unlocks, _⟩
    · rw [stays]
    · simp [free, locks, Ne.symm same]
    · rw [unlocks, (mutex goroutine).mpr locked]
      simp [Ne.symm same]

/-- A goroutine that steps finds at its next instruction what it relies on there. -/
theorem Control.fits_step {state next : State Goroutine Resource} {goroutine : Goroutine}
    (control : Control state) (move : Move state goroutine next) :
    (next.pc goroutine).Fits next := by
  -- One case per move; a lock finds the flags settled.
  have fits := control.fits goroutine
  have returned := control.returned
  have continues := control.not_panics move
  have quiet : (state.pc goroutine).locked = true → (state.pc goroutine).closing = false →
      state.resourcesClosed = state.closed ∧ (state.closed = true → state.resources = []) :=
    fun locked quiet => control.settled_of_locked locked quiet
  cases move
  case discard stage resource late disposals which here =>
    rcases which with rfl | rfl <;>
      simp_all [State.goto, State.closeResource, Pc.Fits]
  all_goals
    simp_all [State.goto, State.returnAcquire, State.hold, State.closeResource, Pc.Fits,
      Pc.locked, Pc.closing]

/-- Unless a `Close` is at work, a step leaves the flags settled. -/
theorem Control.settled_step {state next : State Goroutine Resource} {goroutine : Goroutine}
    (control : Control state) (move : Move state goroutine next)
    (quiet : ∀ other, (next.pc other).closing = false) :
    next.resourcesClosed = next.closed ∧ (next.closed = true → next.resources = []) := by
  -- Either nobody was closing before, or the goroutine that stepped has just finished.
  have fits := control.fits goroutine
  by_cases before : (state.pc goroutine).closing = false
  · have settled := control.settled fun other => by
      by_cases same : other = goroutine
      · rwa [same]
      · rw [← move.pc_other same]
        exact quiet other
    have after := quiet goroutine
    cases move <;> simp_all [State.goto, State.returnAcquire, State.hold, State.closeResource,
      Pc.Fits, Pc.closing]
  · have after := quiet goroutine
    cases move <;> simp_all [State.goto, Pc.Fits, Pc.closing]

/-- After the return of a `Close`, every step leaves the channel closed and empty. -/
theorem Control.returned_step {state next : State Goroutine Resource} {goroutine : Goroutine}
    (control : Control state) (move : Move state goroutine next)
    (late : next.closeReturned = true) :
    next.closed = true ∧ next.resourcesClosed = true ∧ next.resources = [] := by
  -- Once a Close has returned nobody opens the channel again or puts anything into it.
  have fits := control.fits goroutine
  have returned := control.returned
  cases move
  case discard stage resource wasLate disposals which here => exact returned late
  all_goals
    simp_all [State.goto, State.returnAcquire, State.hold, State.closeResource, Pc.Fits]

/-- A step keeps the channel within its capacity. -/
theorem Move.size {state next : State Goroutine Resource} {goroutine : Goroutine}
    (move : Move state goroutine next) (size : state.resources.length ≤ state.size) :
    next.resources.length ≤ next.size := by
  -- Only the send makes the queue longer, and it has checked that there is room.
  cases move
  case receive late resource rest here queue =>
    exact (by simp [queue] : rest.length ≤ state.resources.length).trans size
  case send resource late disposals here opened room =>
    simpa [State.goto] using room
  case drain queued handed resource rest here queue =>
    exact (by simp [queue] : rest.length ≤ state.resources.length).trans size
  all_goals exact size

/-- Every step preserves what the mutex and the flags guarantee. -/
theorem Control.step {state next : State Goroutine Resource} {goroutine : Goroutine}
    (control : Control state) (move : Move state goroutine next) : Control next where
  mutex := control.mutex_step move
  settled := control.settled_step move
  -- What is known of another place rests on the flags, which change under the mutex only.
  fits other := by
    by_cases same : other = goroutine
    · exact same ▸ control.fits_step move
    · rw [move.pc_other same]
      refine (control.fits other).frame (fun late => ?_) fun locked => move.flags ?_
      · cases move <;> first | exact late | rfl
      · by_contra owner
        exact same (control.eq_of_locked locked (by simpa using owner))
  returned := control.returned_step move
  size := move.size control.size

/-- Going on at an instruction with the same resource in hand moves no resource. -/
theorem count_stays {state next : State Goroutine Resource} {goroutine : Goroutine}
    {pc : Pc Resource} (pcs : next.pc = Function.update state.pc goroutine pc)
    (others : next.created = state.created ∧ next.held = state.held ∧
      next.resources = state.resources ∧ next.closes = state.closes)
    (releasing : pc.releasing = (state.pc goroutine).releasing)
    (draining : pc.draining = (state.pc goroutine).draining) (resource : Resource)
    (place : Place Goroutine) : next.count resource place = state.count resource place := by
  -- Only the two places of the goroutine that moves could be counted differently.
  obtain ⟨created, held, resources, closes⟩ := others
  cases place with
  | releasing other | draining other =>
    by_cases same : other = goroutine
    · subst same
      simp [State.count, pcs, releasing, draining]
    · simp [State.count, pcs, same]
  | _ => simp [State.count, created, held, resources, closes]

/-- Every step moves one resource from a place to another, or none at all. -/
theorem Control.transfer {state next : State Goroutine Resource} {goroutine : Goroutine}
    (control : Control state) (move : Move state goroutine next) :
    (∀ resource place, next.count resource place = state.count resource place) ∨
      ∃ resource source target,
        Ledger.Transfer state.count next.count resource source target := by
  -- Most moves change no place; the others are taken one by one.
  have fits := control.fits goroutine
  have continues := control.not_panics move
  cases move
  case callRelease resource here holds =>
    refine .inr
      ⟨resource, .held goroutine, .releasing goroutine, nofun, fun other place => le_of_eq ?_⟩
    cases place <;> simp only [State.count, State.goto, Function.update_apply]
    all_goals grind [Pc.releasing, Pc.draining]
  case receive late resource rest here queue =>
    refine .inr ⟨resource, .queued, .held goroutine, nofun, fun other place => le_of_eq ?_⟩
    cases place <;> simp only [State.count, State.goto, State.hold, State.returnAcquire,
      Function.update_apply]
    all_goals grind [Pc.releasing, Pc.draining]
  case create late resource here fresh =>
    refine .inr ⟨resource, .unborn, .held goroutine, nofun, fun other place => le_of_eq ?_⟩
    cases place <;> simp only [State.count, State.goto, State.hold, State.returnAcquire,
      Function.update_apply]
    all_goals grind [Pc.releasing, Pc.draining]
  case discard stage resource late disposals which here =>
    have empty : disposals = [] := by
      rcases which with rfl | rfl <;> simp [here, Pc.Fits] at fits <;> exact fits.2.1
    refine .inr ⟨resource, .releasing goroutine, .closed, nofun, fun other place => le_of_eq ?_⟩
    rw [empty, List.nil_append]
    cases place <;> simp only [State.count, State.goto, State.closeResource,
      Function.update_apply]
    all_goals grind [Pc.releasing, Pc.draining]
  case send resource late disposals here opened room =>
    have empty : disposals = [] := by
      simp [here, Pc.Fits] at fits
      exact fits.2.1
    refine .inr ⟨resource, .releasing goroutine, .queued, nofun, fun other place => le_of_eq ?_⟩
    rw [empty, List.nil_append]
    cases place <;> simp only [State.count, State.goto, Function.update_apply]
    all_goals grind [Pc.releasing, Pc.draining]
  case drain queued handed resource rest here queue =>
    refine .inr ⟨resource, .queued, .draining goroutine, nofun, fun other place => le_of_eq ?_⟩
    cases place <;> simp only [State.count, State.goto, Function.update_apply]
    all_goals grind [Pc.releasing, Pc.draining]
  case closeResource queued handed resource here =>
    refine .inr ⟨resource, .draining goroutine, .closed, nofun, fun other place => le_of_eq ?_⟩
    cases place <;> simp only [State.count, State.goto, State.closeResource, Function.update_apply]
    all_goals grind [Pc.releasing, Pc.draining]
  case unlockRelease resource late disposals here =>
    obtain ⟨disposal, only⟩ : ∃ disposal, disposals = [disposal] := by
      simp [here, Pc.Fits] at fits
      exact List.length_eq_one_iff.mp fits.2.1
    exact .inl (count_stays rfl ⟨rfl, rfl, rfl, rfl⟩ (by simp [here, only, Pc.releasing])
      (by simp [here, Pc.draining]))
  case sendPanics => exact absurd (Function.update_self _ _ _) continues
  all_goals
    exact .inl (count_stays rfl ⟨rfl, rfl, rfl, rfl⟩ (by simp [*, Pc.releasing])
      (by simp [*, Pc.draining]))

/-- Every step keeps all resources in their places, each of them in one. -/
theorem Control.ledger_step {state next : State Goroutine Resource} {goroutine : Goroutine}
    (control : Control state) (move : Move state goroutine next) (ledger : Ledger state.count) :
    Ledger next.count := by
  -- A resource is moved from one place to another, or goes out of the program's hands.
  rcases control.transfer move with stays | ⟨resource, source, target, transfer⟩
  · exact ledger.shrink fun resource place => (stays resource place).le
  · exact ledger.transfer transfer

/-- A resource that was queued at some time, and what has become of it since then. -/
def Tracked (state : State Goroutine Resource) (handed : Nat) (resource : Resource) : Prop :=
  resource ∈ state.resources ∨ resource ∈ state.handed.drop handed ∨
    (∃ goroutine, (state.pc goroutine).draining = some resource) ∨ 0 < state.closes resource

/-- What has been handed out stays so. -/
theorem Move.handed {state next : State Goroutine Resource} {goroutine : Goroutine}
    (move : Move state goroutine next) : state.handed <+: next.handed := by
  cases move <;> first | exact List.prefix_append _ _ | exact List.prefix_rfl

/-- No closing of a resource is taken back. -/
theorem Move.closes {state next : State Goroutine Resource} {goroutine : Goroutine}
    (move : Move state goroutine next) (resource : Resource) :
    state.closes resource ≤ next.closes resource := by
  -- Closing a resource adds one to its count, and no move takes any away.
  cases move
  case discard | closeResource =>
    simp only [State.goto, State.closeResource, Function.update_apply]
    split
    · simp [*]
    · exact le_rfl
  all_goals exact le_rfl

/-- What leaves the channel goes to a call of `Acquire` or to the loop of a `Close`. -/
theorem Move.resources {state next : State Goroutine Resource} {goroutine : Goroutine}
    {resource : Resource} (move : Move state goroutine next)
    (queued : resource ∈ state.resources) :
    resource ∈ next.resources ∨ next.handed = state.handed ++ [resource] ∨
      (next.pc goroutine).draining = some resource := by
  -- Only a receive takes anything from the queue, and only from its front.
  cases move
  case receive late first rest here queue | drain calledWith handed first rest here queue =>
    rw [queue, List.mem_cons] at queued
    rcases queued with rfl | behind
    · simp [State.goto, State.returnAcquire, Pc.draining]
    · exact .inl behind
  case send => exact .inl (List.mem_append_left _ queued)
  all_goals exact .inl queued

/-- A call of `Close` that has taken a resource from the channel closes it next. -/
theorem Move.draining {state next : State Goroutine Resource} {goroutine : Goroutine}
    {resource : Resource} (move : Move state goroutine next)
    (draining : (state.pc goroutine).draining = some resource) :
    0 < next.closes resource := by
  -- What has been taken out of the channel by Close is closed in its very next move.
  cases move
  case closeResource calledWith handed taken here =>
    obtain rfl : taken = resource := by simpa [here, Pc.draining] using draining
    simp [State.goto, State.closeResource]
  all_goals simp [*, Pc.draining] at draining

/-- No step loses track of a resource. -/
theorem Tracked.step {state next : State Goroutine Resource} {goroutine : Goroutine}
    {handed : Nat} {resource : Resource} (tracked : Tracked state handed resource)
    (past : handed ≤ state.handed.length) (move : Move state goroutine next) :
    Tracked next handed resource := by
  -- A resource leaves the channel for a caller or for a drain, and a drain closes what it takes.
  rcases tracked with queued | out | ⟨holder, draining⟩ | closed
  · rcases move.resources queued with stays | out | draining
    · exact .inl stays
    · exact .inr (.inl (by simp [out, List.drop_append_of_le_length past]))
    · exact .inr (.inr (.inl ⟨goroutine, draining⟩))
  · exact .inr (.inl ((move.handed.drop handed).subset out))
  · by_cases same : holder = goroutine
    · exact .inr (.inr (.inr (move.draining (same ▸ draining))))
    · exact .inr (.inr (.inl
        ⟨holder, (congrArg Pc.draining (move.pc_other same)).trans draining⟩))
  · exact .inr (.inr (.inr (lt_of_lt_of_le closed (move.closes resource))))

/-- What the calls that have returned did, and what the calls of `Close` under way will report. -/
structure History (state : State Goroutine Resource) : Prop where
  acquires : ∀ returned ∈ state.acquireReturns,
    returned.late = true → returned.result = .error .errPoolClosed
  releases : ∀ returned ∈ state.releaseReturns, returned.disposals.length = 1 ∧
    (returned.late = true → returned.disposals = [.closed])
  closing : ∀ goroutine stage queued handed, state.pc goroutine = .close stage queued handed →
    handed ≤ state.handed.length ∧ ∀ resource ∈ queued, Tracked state handed resource
  closes : ∀ returned ∈ state.closeReturns, ∀ resource ∈ returned.queued,
    resource ∈ returned.handed ∨ 0 < state.closes resource

/-- What a returning `Acquire` reports. -/
theorem Control.acquireReturns {state next : State Goroutine Resource} {goroutine : Goroutine}
    (control : Control state) (move : Move state goroutine next) :
    next.acquireReturns = state.acquireReturns ∨ ∃ returned,
      next.acquireReturns = state.acquireReturns ++ [returned] ∧
        (returned.late = true → returned.result = .error .errPoolClosed) := by
  -- A late Acquire finds the channel closed and empty, so it gets neither a queued resource nor a
  -- new one.
  have fits := control.fits goroutine
  cases move
  case receive late resource rest here queue =>
    refine .inr ⟨⟨late, .ok resource⟩, rfl, fun wasLate => ?_⟩
    simp only [here, Pc.Fits] at fits
    have empty := (control.returned (fits wasLate)).2.2
    simp [queue] at empty
  case receiveClosed late here empty closed => exact .inr ⟨_, rfl, fun _ => rfl⟩
  case create late resource here fresh =>
    simp only [here, Pc.Fits] at fits
    exact .inr ⟨⟨late, .ok resource⟩, rfl, by simp [fits]⟩
  case createFailed late text here =>
    simp only [here, Pc.Fits] at fits
    exact .inr ⟨⟨late, .error (.factory text)⟩, rfl, by simp [fits]⟩
  all_goals exact .inl rfl

/-- What a returning `Release` has done. -/
theorem Control.releaseReturns {state next : State Goroutine Resource} {goroutine : Goroutine}
    (control : Control state) (move : Move state goroutine next) :
    next.releaseReturns = state.releaseReturns ∨ ∃ returned,
      next.releaseReturns = state.releaseReturns ++ [returned] ∧
        returned.disposals.length = 1 ∧
        (returned.late = true → returned.disposals = [.closed]) := by
  -- The disposals are reported where Release gives the mutex back.
  have fits := control.fits goroutine
  cases move
  case unlockRelease resource late disposals here =>
    simp only [here, Pc.Fits] at fits
    exact .inr ⟨_, rfl, fits.2⟩
  all_goals exact .inl rfl

/-- What has become of everything that was queued when a returning `Close` was called. -/
theorem Control.closeReturns {state next : State Goroutine Resource} {goroutine : Goroutine}
    (control : Control state) (move : Move state goroutine next) :
    next.closeReturns = state.closeReturns ∨ ∃ queued handed,
      state.pc goroutine = .close .unlock queued handed ∧
      next.closeReturns = state.closeReturns ++ [⟨queued, state.handed.drop handed⟩] ∧
      ∀ resource, Tracked state handed resource →
        resource ∈ state.handed.drop handed ∨ 0 < state.closes resource := by
  have fits := control.fits goroutine
  cases move
  case unlockClose queued handed here =>
    refine .inr ⟨queued, handed, here, rfl, fun resource tracked => ?_⟩
    simp only [here, Pc.Fits] at fits
    rcases tracked with queued | out | ⟨holder, draining⟩ | closed
    · simp [fits.2.2] at queued
    · exact .inl out
    · -- Only the owner of the mutex drains, and that is the goroutine that is about to return.
      have owner : (state.pc goroutine).locked = true := by simp [here, Pc.locked]
      have locked : (state.pc holder).locked = true := by
        cases there : state.pc holder with
        | close stage _ _ => cases stage <;> simp [there, Pc.draining, Pc.locked] at draining ⊢
        | _ => simp [there, Pc.draining] at draining
      obtain rfl := control.eq_of_locked locked owner
      simp [here, Pc.draining] at draining
    · exact .inr closed
  all_goals exact .inl rfl

/-- A goroutine is in a call of `Close` because it was before, or because it has just called it. -/
theorem Move.closing {state next : State Goroutine Resource} {goroutine : Goroutine}
    {stage : CloseStage Resource} {queued : List Resource} {handed : Nat}
    (move : Move state goroutine next) (here : next.pc goroutine = .close stage queued handed) :
    (∃ before, state.pc goroutine = .close before queued handed) ∨
      queued = state.resources ∧ handed = state.handed.length ∧
        next.resources = state.resources := by
  -- What a Close remembers of the queue is set when it is called, and kept.
  cases move <;> simp [State.goto, State.returnAcquire] at here
  case callClose _ => exact .inr ⟨here.2.1.symm, here.2.2.symm, rfl⟩
  all_goals exact .inl ⟨_, by rw [← here.2.1, ← here.2.2]; assumption⟩

/-- A step records what it should. -/
theorem History.step {state next : State Goroutine Resource} {goroutine : Goroutine}
    (history : History state) (control : Control state) (move : Move state goroutine next) :
    History next where
  acquires := by
    rcases control.acquireReturns move with same | ⟨returned, more, closed⟩
    · exact same ▸ history.acquires
    · rw [more]
      exact List.forall_mem_append.mpr ⟨history.acquires, List.forall_mem_singleton.mpr closed⟩
  releases := by
    rcases control.releaseReturns move with same | ⟨returned, more, disposed⟩
    · exact same ▸ history.releases
    · rw [more]
      exact List.forall_mem_append.mpr ⟨history.releases, List.forall_mem_singleton.mpr disposed⟩
  closing other stage queued handed there := by
    -- What the mover has queued only moves forward; the others' records stay as they are.
    by_cases same : other = goroutine
    · subst same
      rcases move.closing there with ⟨before, here⟩ | ⟨rfl, rfl, queue⟩
      · have closing := history.closing other before queued handed here
        exact ⟨closing.1.trans move.handed.length_le, fun resource queued =>
          (closing.2 resource queued).step closing.1 move⟩
      · exact ⟨move.handed.length_le, fun resource queued => .inl (queue ▸ queued)⟩
    · have closing := history.closing other stage queued handed (move.pc_other same ▸ there)
      exact ⟨closing.1.trans move.handed.length_le, fun resource queued =>
        (closing.2 resource queued).step closing.1 move⟩
  closes := by
    have older : ∀ returned ∈ state.closeReturns, ∀ resource ∈ returned.queued,
        resource ∈ returned.handed ∨ 0 < next.closes resource :=
      fun returned recorded resource queued =>
        (history.closes returned recorded resource queued).imp_right fun closed =>
          lt_of_lt_of_le closed (move.closes resource)
    rcases control.closeReturns move with same | ⟨queued, handed, here, more, gone⟩
    · exact same ▸ older
    · rw [more]
      refine List.forall_mem_append.mpr
        ⟨older, List.forall_mem_singleton.mpr fun resource was => ?_⟩
      have closing := (history.closing goroutine _ queued handed here).2
      exact (gone resource (closing resource was)).imp_right
        fun closed => lt_of_lt_of_le closed (move.closes resource)

/-- What is still to be reported changes only with what the goroutine that steps has to report. -/
theorem Control.pending_eq {state next : State Goroutine Resource} {goroutine : Goroutine}
    {disposal : Disposal} (control : Control state) (move : Move state goroutine next)
    (same : (next.pc goroutine).disposing disposal = (state.pc goroutine).disposing disposal) :
    next.pending disposal = state.pending disposal := by
  -- Who locks the mutex or unlocks it has nothing to report without it.
  rcases move.lock (control.not_panics move) with ⟨stays, _⟩ | ⟨free, locks, locked⟩ |
    ⟨locked, unlocks, unlocked⟩
  · rw [State.pending, State.pending, stays]
    cases owner : state.m with
    | none => rfl
    | some holder =>
      by_cases own : holder = goroutine
      · rw [own]
        exact same
      · exact congrArg (Pc.disposing disposal) (move.pc_other own)
  · have before : (state.pc goroutine).locked = false := by
      by_contra owns
      have owner := (control.mutex goroutine).mpr (by simpa using owns)
      rw [free] at owner
      cases owner
    rw [State.pending, State.pending, locks, free]
    exact same.trans (Pc.disposing_of_unlocked before disposal)
  · have owner := (control.mutex goroutine).mpr locked
    rw [State.pending, State.pending, unlocks, owner]
    exact (same.symm.trans (Pc.disposing_of_unlocked unlocked disposal)).symm

/-- A step that leaves the reports and what is to be reported leaves what was disposed of. -/
theorem Control.disposed_eq {state next : State Goroutine Resource} {goroutine : Goroutine}
    {disposal : Disposal} (control : Control state) (move : Move state goroutine next)
    (reports : next.releaseReturns = state.releaseReturns)
    (same : (next.pc goroutine).disposing disposal = (state.pc goroutine).disposing disposal) :
    next.disposed disposal = state.disposed disposal := by
  -- What is reported and what is pending are the same.
  rw [State.disposed, State.reported, reports, control.pending_eq move same]
  rfl

/-- What a step disposes of, if it disposes of anything. -/
inductive Disposes (state next : State Goroutine Resource) : Prop
  | nothing (sent : next.sent = state.sent)
      (disposed : ∀ disposal, next.disposed disposal = state.disposed disposal)
  | sends (resource : Resource) (sent : next.sent = state.sent ++ [resource])
      (queued : next.disposed .queued = state.disposed .queued ++ [resource])
      (closed : next.disposed .closed = state.disposed .closed)
  | closes (resource : Resource) (sent : next.sent = state.sent)
      (queued : next.disposed .queued = state.disposed .queued)
      (closed : next.disposed .closed = state.disposed .closed ++ [resource])
      (closing : 0 < next.closes resource)

/-- A step that disposes of a resource sends it or closes it. -/
theorem Control.disposes {state next : State Goroutine Resource} {goroutine : Goroutine}
    (control : Control state) (move : Move state goroutine next) : Disposes state next := by
  -- A resource is disposed of in two moves only: the send, and the call of its Close method.
  have fits := control.fits goroutine
  have continues := control.not_panics move
  have same := fun disposal => @Control.disposed_eq _ _ _ _ _ _ _ disposal control move
  cases move
  case send resource late disposals here opened room =>
    have empty : disposals = [] := by
      simp only [here, Pc.Fits] at fits
      exact fits.2.1
    subst empty
    refine Disposes.sends resource (by rfl) ?_ ?_
    · refine @Control.disposed_append _ _ state _ goroutine _ _ control rfl rfl ?_ ?_ ?_
      · rw [here]
        rfl
      · rw [here]
        rfl
      · simp [State.goto, Pc.disposing]
    · apply same _ rfl
      simp [State.goto, here, Pc.disposing]
  case discard stage resource late disposals which here =>
    have empty : disposals = [] := by
      rcases which with rfl | rfl <;> simp only [here, Pc.Fits] at fits <;> exact fits.2.1
    subst empty
    refine Disposes.closes resource (by rfl) ?_ ?_ ?_
    · apply same _ rfl
      rcases which with rfl | rfl <;> simp [State.goto, here, Pc.disposing]
    · refine @Control.disposed_append _ _ state _ goroutine _ _ control rfl rfl ?_ ?_ ?_
      · rw [here]
        rcases which with rfl | rfl <;> rfl
      · rw [here]
        rcases which with rfl | rfl <;> rfl
      · simp [State.goto, Pc.disposing]
    · simp [State.goto, State.closeResource]
  -- Here the disposal goes from the pending ones to the reported ones.
  case unlockRelease resource late disposals here =>
    exact .nothing rfl (control.disposed_report here rfl rfl)
  case sendPanics => exact absurd (Function.update_self _ _ _) continues
  case closePanics => exact absurd (Function.update_self _ _ _) continues
  all_goals
    refine .nothing rfl fun disposal => same disposal rfl ?_
    simp [State.goto, State.returnAcquire, Pc.disposing, *]

/-- What goes through the channel, and what calls of `Release` say about it. -/
structure Flow (state : State Goroutine Resource) : Prop where
  /-- Calls of `Release` have sent to the channel what they say they have. -/
  sent : state.sent = state.disposed .queued
  /-- Whatever was sent is still in the channel, or was received once. -/
  received : state.sent.Perm (state.handed ++ state.drained ++ state.resources)
  /-- A resource has been closed by the call of `Release` that says so. -/
  closed : ∀ resource ∈ state.disposed .closed, 0 < state.closes resource
  /-- What the loop of `Close` has received has been closed, or is about to be. -/
  drained : ∀ resource ∈ state.drained,
    (∃ goroutine, (state.pc goroutine).draining = some resource) ∨ 0 < state.closes resource

/-- What is sent is received once, or stays in the channel. -/
theorem Move.received {state next : State Goroutine Resource} {goroutine : Goroutine}
    (move : Move state goroutine next)
    (received : state.sent.Perm (state.handed ++ state.drained ++ state.resources)) :
    next.sent.Perm (next.handed ++ next.drained ++ next.resources) := by
  -- The counts of each resource add up before and after the move.
  rw [List.perm_iff_count] at received ⊢
  intro resource
  have counted := received resource
  cases move
  case receive late first rest here queue =>
    simp only [queue, State.returnAcquire, State.goto, State.hold, List.count_append,
      List.count_cons, List.count_nil] at counted ⊢
    omega
  case send first late disposals here opened room =>
    simp only [State.goto, List.count_append, List.count_cons, List.count_nil] at counted ⊢
    omega
  case drain queued handed first rest here queue =>
    simp only [queue, State.goto, List.count_append, List.count_cons,
      List.count_nil] at counted ⊢
    omega
  all_goals exact counted

/-- What the loop of `Close` receives is what it is about to close. -/
theorem Move.drains {state next : State Goroutine Resource} {goroutine : Goroutine}
    {resource : Resource} (move : Move state goroutine next) (mem : resource ∈ next.drained) :
    resource ∈ state.drained ∨ (next.pc goroutine).draining = some resource := by
  -- The list of drained resources grows where Close takes one out of the channel.
  cases move
  case drain queued handed first rest here queue =>
    rcases List.mem_append.mp mem with old | new
    · exact Or.inl old
    · right
      rw [List.mem_singleton.mp new]
      simp [State.goto, Pc.draining]
  all_goals exact Or.inl mem

/-- Every step sends what it reports, receives what is in the channel, and closes what it drains. -/
theorem Flow.step {state next : State Goroutine Resource} {goroutine : Goroutine}
    (flow : Flow state) (control : Control state) (move : Move state goroutine next) :
    Flow next where
  sent := by
    cases control.disposes move with
    | nothing sent disposed => rw [sent, disposed, flow.sent]
    | sends resource sent queued closed => rw [sent, queued, flow.sent]
    | closes resource sent queued closed closing => rw [sent, queued, flow.sent]
  received := move.received flow.received
  closed := by
    -- No closing is taken back, and only a resource that is closed is reported to be.
    have older : ∀ resource ∈ state.disposed .closed, 0 < next.closes resource :=
      fun resource mem => (flow.closed resource mem).trans_le (move.closes resource)
    cases control.disposes move with
    | nothing sent disposed => rwa [disposed]
    | sends resource sent queued closed => rwa [closed]
    | closes resource sent queued closed closing =>
      rw [closed]
      exact List.forall_mem_append.mpr ⟨older, List.forall_mem_singleton.mpr closing⟩
  drained := by
    intro resource mem
    rcases move.drains mem with old | new
    · rcases flow.drained resource old with ⟨holder, draining⟩ | closed
      · -- The goroutine that was about to close it has done so, or still is about to.
        by_cases own : holder = goroutine
        · exact Or.inr (move.draining (own ▸ draining))
        · exact Or.inl ⟨holder, (congrArg Pc.draining (move.pc_other own)).trans draining⟩
      · exact Or.inr (closed.trans_le (move.closes resource))
    · exact Or.inl ⟨goroutine, new⟩

/-- The owner of the mutex comes closer to unlocking it with every step. -/
theorem Control.work {state next : State Goroutine Resource} {goroutine : Goroutine}
    (control : Control state) (move : Move state goroutine next)
    (locked : (state.pc goroutine).locked = true) :
    (next.pc goroutine = .idle ∧ next.m = none) ∨ (next.pc goroutine).locked = true ∧
      (next.pc goroutine).work next.resources.length <
        (state.pc goroutine).work state.resources.length := by
  -- Under the mutex each move comes closer to giving it back.
  have continues := control.not_panics move
  cases move
  case discard stage resource late disposals which here =>
    rcases which with rfl | rfl <;>
      simp [here, State.goto, State.closeResource, Pc.locked, Pc.work]
  -- The loop goes on, with one resource less in the channel.
  case drain calledWith handed resource rest here queue =>
    simp [here, queue, State.goto, Pc.locked, Pc.work]
    omega
  all_goals
    simp_all [State.goto, State.closeResource, Pc.locked, Pc.work]

/-- The owner of the mutex can always step. -/
theorem Control.owner_steps {state : State Goroutine Resource} (control : Control state)
    {goroutine : Goroutine} (locked : (state.pc goroutine).locked = true)
    (answer : Except String Resource) :
    ∃ next, goroutineStep state goroutine (.go answer) = some next := by
  -- Nothing that is done under the mutex waits for anybody else.
  have fits := control.fits goroutine
  cases here : state.pc goroutine with
  | release stage resource late disposals =>
    cases stage <;> simp [here, Pc.locked] at locked <;>
      simp [goroutineStep, here, releaseStep]
    split_ifs <;> exact ⟨_, rfl⟩
  | close stage queued handed =>
    cases stage <;> simp [here, Pc.locked] at locked <;> simp [here, Pc.Fits] at fits
    case closeChannel => simp [goroutineStep, here, closeStep, fits]
    case drain =>
      cases queue : state.resources <;> simp [goroutineStep, here, closeStep, queue, fits]
    all_goals simp [goroutineStep, here, closeStep]
  | _ => simp [here, Pc.locked] at locked

/-- The goroutine is in a call of `Release` or of `Close`. -/
def Pc.needsMutex : Pc Resource → Bool
  | .release _ _ _ _ | .close _ _ _ => true
  | _ => false

/-- A call that needs the mutex and does not own it can lock it when it is free. -/
theorem step_of_free {state : State Goroutine Resource} {goroutine : Goroutine}
    (needs : (state.pc goroutine).needsMutex = true)
    (unlocked : (state.pc goroutine).locked = false) (free : state.m = none)
    (answer : Except String Resource) :
    ∃ next, goroutineStep state goroutine (.go answer) = some next := by
  -- Without the mutex, both methods are about to lock it, which is free.
  cases here : state.pc goroutine with
  | release stage resource late disposals =>
    simp [here, Pc.locked] at unlocked
    simp [goroutineStep, here, unlocked, releaseStep, free]
  | close stage queued handed =>
    cases stage <;> simp [here, Pc.locked] at unlocked
    simp [goroutineStep, here, closeStep, free]
  | _ => simp [here, Pc.needsMutex] at needs

/-- A call that waits for the mutex locks it with its next step. -/
theorem Move.locks {state next : State Goroutine Resource} {goroutine : Goroutine}
    (move : Move state goroutine next) (needs : (state.pc goroutine).needsMutex = true)
    (unlocked : (state.pc goroutine).locked = false) : (next.pc goroutine).locked = true := by
  -- One case for each move; the needing ones take the mutex.
  cases move
  case discard stage resource late disposals which here =>
    rcases which with rfl | rfl <;> simp [here, Pc.locked] at unlocked
  all_goals simp_all [State.goto, Pc.locked, Pc.needsMutex]

/-- The steps that a goroutine takes inside its calls. -/
def continues (goroutine : Goroutine) (action : Goroutine × Action Resource) : Prop :=
  action.1 = goroutine ∧ ∃ answer, action.2 = .go answer

open Machine (Execution)

variable {execution : Execution (pool Goroutine Resource)}

/-- The owner of the mutex unlocks it eventually and returns. -/
theorem eventually_unlocks (control : ∀ time, Control (execution.state time))
    {goroutine : Goroutine} (fair : execution.Fair (continues goroutine)) {start : Nat}
    (locked : ((execution.state start).pc goroutine).locked = true) :
    ∃ later, start ≤ later ∧ (execution.state later).pc goroutine = .idle ∧
      (execution.state later).m = none := by
  -- Its own steps shorten the rest of its call, and the steps of others do not make it longer.
  refine Execution.eventually_of_descent
    (fun state => (state.pc goroutine).locked = true)
    (fun state => state.pc goroutine = .idle ∧ state.m = none)
    (fun state => (state.pc goroutine).work state.resources.length) fair
    (fun time inside => ?_) (fun time action inside taken => ?_) locked
  · obtain ⟨next, stepped⟩ := (control time).owner_steps inside (.error "")
    exact ⟨(goroutine, .go (.error "")), next, ⟨rfl, _, rfl⟩, stepped⟩
  · have move := goroutineStep_move (execution.steps time action taken)
    by_cases own : action.1 = goroutine
    · rw [own] at move
      exact ((control time).work move inside).imp_right fun kept =>
        ⟨kept.1, kept.2.le, fun _ => kept.2⟩
    · have stays := move.pc_other (Ne.symm own)
      have unlocked : ((execution.state time).pc action.1).locked = false := by
        by_contra locked
        exact own ((control time).eq_of_locked (by simpa using locked) inside)
      refine .inr ⟨by rwa [stays], ?_, fun mine => absurd mine.1 own⟩
      rw [stays]
      exact Pc.work_mono (move.flags unlocked).2.2.2 _

/-- Whoever waits for the mutex locks it eventually. -/
theorem eventually_locks (control : ∀ time, Control (execution.state time))
    (fair : ∀ goroutine, execution.Fair (continues goroutine)) {goroutine : Goroutine}
    {start : Nat} (needs : ((execution.state start).pc goroutine).needsMutex = true)
    (unlocked : ((execution.state start).pc goroutine).locked = false) :
    ∃ later, start ≤ later ∧ ((execution.state later).pc goroutine).locked = true := by
  -- Every owner unlocks the mutex eventually, and then the waiting goroutine could lock it.
  refine Execution.eventually_of_recurrence
    (fun state => (state.pc goroutine).needsMutex = true ∧ (state.pc goroutine).locked = false)
    (fun state => (state.pc goroutine).locked = true) (fair goroutine)
    (fun time waiting => ?_) (fun time action waiting taken => ?_) ⟨needs, unlocked⟩
  · obtain ⟨later, after, free⟩ : ∃ later, time ≤ later ∧ (execution.state later).m = none := by
      cases owner : (execution.state time).m with
      | none => exact ⟨time, le_rfl, owner⟩
      | some holder =>
        obtain ⟨later, after, _, free⟩ :=
          eventually_unlocks control (fair holder) (((control time).mutex holder).mp owner)
        exact ⟨later, after, free⟩
    have still := waiting later after
    obtain ⟨next, stepped⟩ := step_of_free still.1 still.2 free (.error "")
    exact ⟨later, after, (goroutine, .go (.error "")), next, ⟨rfl, _, rfl⟩, stepped⟩
  · have move := goroutineStep_move (execution.steps time action taken)
    by_cases own : action.1 = goroutine
    · rw [own] at move
      exact .inl (move.locks waiting.1 waiting.2)
    · rw [move.pc_other (Ne.symm own)]
      exact .inr ⟨waiting, fun mine => own mine.1⟩

/-- Every call of `Release` or `Close` returns eventually. -/
theorem eventually_returns (control : ∀ time, Control (execution.state time))
    (fair : ∀ goroutine, execution.Fair (continues goroutine)) {goroutine : Goroutine}
    {start : Nat} (needs : ((execution.state start).pc goroutine).needsMutex = true) :
    ∃ later, start ≤ later ∧ (execution.state later).pc goroutine = .idle := by
  -- First the mutex is locked, and then it is given back on return.
  obtain ⟨locking, after, locked⟩ : ∃ later, start ≤ later ∧
      ((execution.state later).pc goroutine).locked = true := by
    cases owns : ((execution.state start).pc goroutine).locked with
    | true => exact ⟨start, le_rfl, owns⟩
    | false => exact eventually_locks control fair needs owns
  obtain ⟨later, afterwards, idle, _⟩ := eventually_unlocks control (fair goroutine) locked
  exact ⟨later, after.trans afterwards, idle⟩

/-- A new pool has an empty ledger and no history, and nothing has gone through its channel. -/
theorem ledger_new {size : Nat} {start : State Goroutine Resource} (made : new size = .ok start) :
    Ledger start.count ∧ History start ∧ Flow start := by
  -- At first there are no resources at all, and nothing has been reported.
  simp only [new] at made
  split at made
  · cases made
  · obtain rfl := Except.ok.inj made
    refine ⟨fun resource => ⟨.unborn, fun other => le_of_eq ?_⟩, ?_, ?_⟩
    · cases other <;> simp [State.count, Pc.releasing, Pc.draining]
    · constructor <;> simp
    · constructor <;> simp [State.disposed, State.reported, State.pending]

/-- All that holds in every state of a pool. -/
structure Invariant (state : State Goroutine Resource) : Prop where
  control : Control state
  ledger : Ledger state.count
  history : History state
  flow : Flow state

/-- A new pool satisfies the invariant. -/
theorem invariant_new {size : Nat} {start : State Goroutine Resource}
    (made : new size = .ok start) : Invariant start :=
  ⟨control_new made, (ledger_new made).1, (ledger_new made).2.1, (ledger_new made).2.2⟩

/-- Every step preserves the invariant. -/
theorem Invariant.step {state next : State Goroutine Resource}
    {action : Goroutine × Action Resource} (invariant : Invariant state)
    (stepped : (pool Goroutine Resource).step state action = some next) : Invariant next := by
  have move := goroutineStep_move stepped
  exact ⟨invariant.control.step move, invariant.control.ledger_step move invariant.ledger,
    invariant.history.step invariant.control move, invariant.flow.step invariant.control move⟩

/-- No step changes the capacity of the channel. -/
theorem Move.capacity {state next : State Goroutine Resource} {goroutine : Goroutine}
    (move : Move state goroutine next) : next.size = state.size := by
  cases move <;> rfl

/-- The invariant holds in every state that a new pool gets into. -/
theorem invariant_of_run {size : Nat} {start state : State Goroutine Resource}
    {actions : List (Goroutine × Action Resource)} (made : new size = .ok start)
    (ran : (pool Goroutine Resource).run start actions = some state) :
    Invariant state ∧ state.size = size := by
  have capacity : start.size = size := by
    simp only [new] at made
    split at made
    · cases made
    · obtain rfl := Except.ok.inj made
      rfl
  -- The capacity is the one that the pool has been made with, and no move changes it.
  have preserved : ∀ (state : State Goroutine Resource) (action : Goroutine × Action Resource)
      (next : State Goroutine Resource), Invariant state ∧ state.size = size →
      (pool Goroutine Resource).step state action = some next →
      Invariant next ∧ next.size = size :=
    fun _ _ _ good stepped =>
      ⟨good.1.step stepped, (goroutineStep_move stepped).capacity.trans good.2⟩
  exact Machine.run_invariant preserved ⟨invariant_new made, capacity⟩ ran

/-- A resource has one owner, and is not in the channel or closed while it has one. -/
theorem held_exclusive {state : State Goroutine Resource} (ledger : Ledger state.count)
    {goroutine : Goroutine} {resource : Resource} (holds : resource ∈ state.held goroutine) :
    (∀ other, resource ∈ state.held other → other = goroutine) ∧ resource ∉ state.resources ∧
      state.closes resource = 0 := by
  -- Each resource is counted in one place only, and this one is counted as held here.
  have found : 0 < state.count resource (.held goroutine) := List.count_pos_iff.mpr holds
  refine ⟨fun other also => ?_, fun queued => ?_,
    ledger.eq_zero_of_pos .closed found nofun⟩
  · by_contra different
    have nowhere := ledger.eq_zero_of_pos (.held other) found (by simpa using different)
    exact List.count_eq_zero.mp nowhere also
  · have nowhere := ledger.eq_zero_of_pos .queued found nofun
    exact List.count_eq_zero.mp nowhere queued

/-- A call that cannot go on waits for a goroutine that owns the mutex and can go on. -/
theorem Control.blocked_by_owner {state : State Goroutine Resource} (control : Control state)
    {goroutine : Goroutine} (needs : (state.pc goroutine).needsMutex = true)
    (answer : Except String Resource) :
    ∃ runner next, (runner = goroutine ∨ state.m = some runner) ∧
      goroutineStep state runner (.go answer) = some next := by
  -- If the mutex is free the goroutine itself goes on; otherwise its owner does.
  cases owner : state.m with
  | none =>
    have unlocked : (state.pc goroutine).locked = false := by
      by_contra locked
      have mine := (control.mutex goroutine).mpr (by simpa using locked)
      simp [owner] at mine
    obtain ⟨next, stepped⟩ := step_of_free needs unlocked owner answer
    exact ⟨goroutine, next, .inl rfl, stepped⟩
  | some holder =>
    obtain ⟨next, stepped⟩ := control.owner_steps ((control.mutex holder).mp owner) answer
    exact ⟨holder, next, .inr rfl, stepped⟩

/-- What a pool promises in each of its states, and for all that follows. -/
structure Promises (size : Nat) (state : State Goroutine Resource) : Prop where
  /-- A resource that is held has one owner, and is neither queued nor closed. -/
  exclusive : ∀ goroutine resource, resource ∈ state.held goroutine →
    (∀ other, resource ∈ state.held other → other = goroutine) ∧
    resource ∉ state.resources ∧ state.closes resource = 0
  heldOnce : ∀ goroutine, (state.held goroutine).Nodup
  queuedOnce : state.resources.Nodup
  closedOnce : ∀ resource, state.closes resource ≤ 1
  queuedOpen : ∀ resource ∈ state.resources, state.closes resource = 0
  size : state.resources.length ≤ size
  /-- Nobody sends on the closed channel or closes it again. -/
  survives : ∀ goroutine, state.pc goroutine ≠ .panicked
  /-- A `Release` that has returned has queued its resource or closed it, and closed it if late. -/
  released : ∀ returned ∈ state.releaseReturns,
    (returned.disposals = [.queued] ∧ returned.late = false) ∨
      (returned.disposals = [.closed] ∧ state.closes returned.resource = 1)
  /-- The calls that say so, and the one that is about to say so, have sent to the channel once. -/
  sent : state.sent = state.reported .queued ++ state.pending .queued
  /-- What was sent is in the channel, or was received once by an `Acquire` or a `Close`. -/
  received : state.sent.Perm (state.handed ++ state.drained ++ state.resources)
  drained : ∀ resource ∈ state.drained,
    (∃ goroutine, (state.pc goroutine).draining = some resource) ∨ state.closes resource = 1
  /-- What was queued when a `Close` was called has been closed, or handed out, at its return. -/
  closed : ∀ returned ∈ state.closeReturns, ∀ resource ∈ returned.queued,
    resource ∈ returned.handed ∨ state.closes resource = 1
  /-- After a `Close`, whatever was sent before or since was handed out, or drained and closed. -/
  afterClose : state.closeReturned = true →
    state.resourcesClosed = true ∧ state.resources = [] ∧
    state.sent.Perm (state.handed ++ state.drained) ∧
    ∀ resource ∈ state.drained, state.closes resource = 1
  acquired : ∀ returned ∈ state.acquireReturns,
    returned.late = true → returned.result = .error .errPoolClosed
  /-- Whoever cannot go on waits for an owner of the mutex that can. -/
  unblocked : ∀ goroutine, (state.pc goroutine).needsMutex = true → ∀ answer, ∃ runner next,
    (runner = goroutine ∨ state.m = some runner) ∧
    goroutineStep state runner (.go answer) = some next
  /-- Under fair scheduling every `Release` and every `Close` returns. -/
  returns : ∀ execution : Execution (pool Goroutine Resource), execution.state 0 = state →
    (∀ goroutine, execution.Fair (continues goroutine)) → ∀ time goroutine,
    ((execution.state time).pc goroutine).needsMutex = true →
    ∃ later, time ≤ later ∧ (execution.state later).pc goroutine = .idle

/-- What has been reported has been disposed of, each resource in one way. -/
theorem Invariant.released {state : State Goroutine Resource} (invariant : Invariant state)
    {returned : ReleaseReturn Resource} (recorded : returned ∈ state.releaseReturns) :
    (returned.disposals = [.queued] ∧ returned.late = false) ∨
      (returned.disposals = [.closed] ∧ state.closes returned.resource = 1) := by
  obtain ⟨one, late⟩ := invariant.history.releases returned recorded
  obtain ⟨disposal, only⟩ := List.length_eq_one_iff.mp one
  cases disposal with
  | queued =>
    left
    refine ⟨only, ?_⟩
    -- A late call would have closed the resource.
    by_contra wasLate
    have closed := late (by simpa using wasLate)
    rw [only] at closed
    cases closed
  | closed =>
    right
    refine ⟨only, ?_⟩
    have reported : returned.resource ∈ state.reported .closed :=
      List.mem_map_of_mem (List.mem_filter.mpr ⟨recorded, by simpa using only⟩)
    have closed := invariant.flow.closed _ (List.mem_append_left _ reported)
    have most : state.closes returned.resource ≤ 1 := invariant.ledger.le_one _ .closed
    omega

/-- The next steps of a goroutine, all of them inside the call it is in. -/
def goes (goroutine : Fin 3) (steps : Nat) : List (Fin 3 × Action Nat) :=
  List.replicate steps (goroutine, .go (.error ""))

/--
A pool is closed while it is in use.

Resource 7 is queued when `Close` is called, 8 is queued before it locks the mutex, and 7 is handed
out again before it closes the channel, and released after it has returned.
-/
def closingRun : List (Fin 3 × Action Nat) :=
  [(0, .callAcquire), (0, .go (.ok 7)), (0, .go (.ok 7)), (1, .callAcquire), (1, .go (.ok 8)),
    (1, .go (.ok 8)), (0, .callRelease 7)] ++ goes 0 4 ++ [(2, .callClose), (1, .callRelease 8)] ++
    goes 1 4 ++ goes 2 3 ++ [(0, .callAcquire)] ++ goes 0 1 ++ goes 2 5 ++ [(0, .callRelease 7)] ++
    goes 0 4

end SysProg.GoPatterns.Pool
