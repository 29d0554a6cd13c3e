import SysProg.Lib.Machine

/-! The pool of resources that many goroutines acquire, release and finally close. -/

namespace SysProg.GoPatterns.Pool

/-- The errors of the package, and those that the caller's factory returns. -/
inductive PoolError where
  | sizeTooSmall
  | errPoolClosed
  | factory (text : String)
  deriving DecidableEq, Repr

/-- The text of an error. -/
def PoolError.message : PoolError → String
  | .sizeTooSmall => "Size value too small."
  | .errPoolClosed => "Pool has been closed."
  | .factory text => text

/-- What a call of `Release` does with its resource. -/
inductive Disposal where
  | queued
  | closed
  deriving DecidableEq, Repr

/-- Where a call of `Acquire` stands. -/
inductive AcquireStage where
  /-- The `select` that receives from `p.resources`. -/
  | select
  /-- `return p.factory()`. -/
  | factory
  deriving DecidableEq, Repr

/-- Where a call of `Release` stands. -/
inductive ReleaseStage where
  /-- `p.m.Lock()`. -/
  | lock
  /-- `if p.closed`. -/
  | checkClosed
  /-- `r.Close()` in a pool that is closed. -/
  | discard
  /-- The `select` that sends to `p.resources`. -/
  | select
  /-- `r.Close()` when the queue is already at its capacity. -/
  | close
  /-- The deferred `p.m.Unlock()`. -/
  | unlock
  deriving DecidableEq, Repr

/-- Where a call of `Close` stands. -/
inductive CloseStage (Resource : Type*) where
  /-- `p.m.Lock()`. -/
  | lock
  /-- `if p.closed`. -/
  | checkClosed
  /-- `p.closed = true`. -/
  | setClosed
  /-- `close(p.resources)`. -/
  | closeChannel
  /-- The head of the loop over `p.resources`. -/
  | drain
  /-- `r.Close()` in the loop. -/
  | closeResource (resource : Resource)
  /-- The deferred `p.m.Unlock()`. -/
  | unlock
  deriving DecidableEq, Repr

/-- What a goroutine is doing, with what is remembered about its call. -/
inductive Pc (Resource : Type*) where
  /-- Not inside any call. -/
  | idle
  /-- A call of `Acquire`, and whether some `Close` had returned before it. -/
  | acquire (stage : AcquireStage) (late : Bool)
  /-- A call of `Release`, whether some `Close` had returned before it, and its disposals so far. -/
  | release (stage : ReleaseStage) (resource : Resource) (late : Bool) (disposals : List Disposal)
  /-- A call of `Close`, what was queued at the call, and how much had been handed out by then. -/
  | close (stage : CloseStage Resource) (queued : List Resource) (handed : Nat)
  /-- Stopped by the run-time system. -/
  | panicked
  deriving DecidableEq, Repr

/-- What a call of `Acquire` returns. -/
structure AcquireReturn (Resource : Type*) where
  late : Bool
  result : Except PoolError Resource

/-- What a call of `Release` has done. -/
structure ReleaseReturn (Resource : Type*) where
  late : Bool
  resource : Resource
  disposals : List Disposal

/-- What was queued when a `Close` was called, and what `Acquire`s took until it returned. -/
structure CloseReturn (Resource : Type*) where
  queued : List Resource
  handed : List Resource

/-- A `Pool`, the goroutines that use it, and the history of their calls. -/
structure State (Goroutine Resource : Type*) where
  pc : Goroutine → Pc Resource
  /-- The resources that a goroutine has acquired and not released. -/
  held : Goroutine → List Resource
  /-- The goroutine that has locked the mutex `m`. -/
  m : Option Goroutine
  closed : Bool
  /-- The elements of the channel `resources`. -/
  resources : List Resource
  /-- The channel `resources` is closed. -/
  resourcesClosed : Bool
  /-- The capacity of the channel `resources`. -/
  size : Nat
  /-- All that `factory` has returned. -/
  created : List Resource
  /-- How often `Close` of this resource has been called. -/
  closes : Resource → Nat
  /-- All that calls of `Release` have sent to the channel. -/
  sent : List Resource
  /-- All that calls of `Acquire` have received from the channel. -/
  handed : List Resource
  /-- All that the loop of `Close` has received from the channel. -/
  drained : List Resource
  /-- Some call of `Close` has returned. -/
  closeReturned : Bool
  acquireReturns : List (AcquireReturn Resource)
  releaseReturns : List (ReleaseReturn Resource)
  closeReturns : List (CloseReturn Resource)

variable {Goroutine Resource : Type*}

/-- `New` makes a pool of this size, which nobody uses yet. -/
def new (size : Nat) : Except PoolError (State Goroutine Resource) :=
  if size ≤ 0 then .error .sizeTooSmall
  else .ok {
    pc := fun _ => .idle
    held := fun _ => []
    m := none
    closed := false
    resources := []
    resourcesClosed := false
    size := size
    created := []
    closes := fun _ => 0
    sent := []
    handed := []
    drained := []
    closeReturned := false
    acquireReturns := []
    releaseReturns := []
    closeReturns := [] }

variable [DecidableEq Goroutine] [DecidableEq Resource]

/-- A goroutine goes on at another instruction. -/
def State.goto (state : State Goroutine Resource) (goroutine : Goroutine) (pc : Pc Resource) :
    State Goroutine Resource :=
  { state with pc := Function.update state.pc goroutine pc }

/-- `r.Close()`. -/
def State.closeResource (state : State Goroutine Resource) (resource : Resource) :
    State Goroutine Resource :=
  { state with closes := Function.update state.closes resource (state.closes resource + 1) }

/-- A goroutine gets a resource from `Acquire`. -/
def State.hold (state : State Goroutine Resource) (goroutine : Goroutine) (resource : Resource) :
    State Goroutine Resource :=
  { state with held := Function.update state.held goroutine (resource :: state.held goroutine) }

/-- A call of `Acquire` returns. -/
def State.returnAcquire (state : State Goroutine Resource) (goroutine : Goroutine) (late : Bool)
    (result : Except PoolError Resource) : State Goroutine Resource :=
  { state.goto goroutine .idle with acquireReturns := state.acquireReturns ++ [⟨late, result⟩] }

/-- One step of `Acquire`, with what `factory` returns if it is called. -/
def acquireStep (state : State Goroutine Resource) (goroutine : Goroutine) (late : Bool)
    (answer : Except String Resource) : AcquireStage → Option (State Goroutine Resource)
  | .select =>
    match state.resources with
    | resource :: rest =>
      some ({ state.hold goroutine resource with
        resources := rest
        handed := state.handed ++ [resource] }.returnAcquire goroutine late (.ok resource))
    | [] =>
      if state.resourcesClosed then
        some (state.returnAcquire goroutine late (.error .errPoolClosed))
      else some (state.goto goroutine (.acquire .factory late))
  | .factory =>
    match answer with
    -- Every resource that `factory` returns is a new one.
    | .ok resource =>
      if resource ∈ state.created then none
      else some ({ state.hold goroutine resource with
        created := resource :: state.created }.returnAcquire goroutine late (.ok resource))
    | .error text => some (state.returnAcquire goroutine late (.error (.factory text)))

/-- One step of `Release`. -/
def releaseStep (state : State Goroutine Resource) (goroutine : Goroutine) (resource : Resource)
    (late : Bool) (disposals : List Disposal) :
    ReleaseStage → Option (State Goroutine Resource)
  | .lock =>
    if state.m = none then
      some ({ state with m := some goroutine }.goto goroutine
        (.release .checkClosed resource late disposals))
    else none
  | .checkClosed =>
    some (state.goto goroutine
      (.release (if state.closed then .discard else .select) resource late disposals))
  | .discard | .close =>
    some ((state.closeResource resource).goto goroutine
      (.release .unlock resource late (disposals ++ [Disposal.closed])))
  | .select =>
    -- A send on a closed channel panics even where there is a default.
    if state.resourcesClosed then some (state.goto goroutine .panicked)
    else if state.resources.length < state.size then
      some ({ state with
        resources := state.resources ++ [resource]
        sent := state.sent ++ [resource] }.goto goroutine
          (.release .unlock resource late (disposals ++ [Disposal.queued])))
    else some (state.goto goroutine (.release .close resource late disposals))
  | .unlock =>
    some { state.goto goroutine .idle with
      m := none
      releaseReturns := state.releaseReturns ++ [⟨late, resource, disposals⟩] }

/-- One step of `Close`. -/
def closeStep (state : State Goroutine Resource) (goroutine : Goroutine)
    (queued : List Resource) (handed : Nat) :
    CloseStage Resource → Option (State Goroutine Resource)
  | .lock =>
    if state.m = none then
      some ({ state with m := some goroutine }.goto goroutine (.close .checkClosed queued handed))
    else none
  | .checkClosed =>
    some (state.goto goroutine
      (.close (if state.closed then .unlock else .setClosed) queued handed))
  | .setClosed =>
    some ({ state with closed := true }.goto goroutine (.close .closeChannel queued handed))
  | .closeChannel =>
    if state.resourcesClosed then some (state.goto goroutine .panicked)
    else some ({ state with resourcesClosed := true }.goto goroutine (.close .drain queued handed))
  | .drain =>
    match state.resources with
    | resource :: rest =>
      some ({ state with
        resources := rest
        drained := state.drained ++ [resource] }.goto goroutine
          (.close (.closeResource resource) queued handed))
    | [] =>
      if state.resourcesClosed then some (state.goto goroutine (.close .unlock queued handed))
      else none
  | .closeResource resource =>
    some ((state.closeResource resource).goto goroutine (.close .drain queued handed))
  | .unlock =>
    some { state.goto goroutine .idle with
      m := none
      closeReturned := true
      closeReturns := state.closeReturns ++ [⟨queued, state.handed.drop handed⟩] }

/-- What a goroutine can do next. -/
inductive Action (Resource : Type*) where
  | callAcquire
  /-- A goroutine releases only what it holds, and no longer holds it then. -/
  | callRelease (resource : Resource)
  | callClose
  /-- The next step of the call it is in, with what `factory` returns if it is called. -/
  | go (answer : Except String Resource)

/-- One step of a goroutine. -/
def goroutineStep (state : State Goroutine Resource) (goroutine : Goroutine) :
    Action Resource → Option (State Goroutine Resource)
  | .callAcquire =>
    match state.pc goroutine with
    | .idle => some (state.goto goroutine (.acquire .select state.closeReturned))
    | _ => none
  | .callRelease resource =>
    match state.pc goroutine with
    | .idle =>
      if resource ∈ state.held goroutine then
        some ({ state with
          held := Function.update state.held goroutine
            ((state.held goroutine).erase resource) }.goto goroutine
              (.release .lock resource state.closeReturned []))
      else none
    | _ => none
  | .callClose =>
    match state.pc goroutine with
    | .idle => some (state.goto goroutine (.close .lock state.resources state.handed.length))
    | _ => none
  | .go answer =>
    match state.pc goroutine with
    | .acquire stage late => acquireStep state goroutine late answer stage
    | .release stage resource late disposals =>
      releaseStep state goroutine resource late disposals stage
    | .close stage queued handed => closeStep state goroutine queued handed stage
    | .idle | .panicked => none

/-- All goroutines that share one pool, one step at a time. -/
def pool (Goroutine Resource : Type*) [DecidableEq Goroutine] [DecidableEq Resource] :
    Machine (State Goroutine Resource) (Goroutine × Action Resource) where
  step state action := goroutineStep state action.1 action.2

end SysProg.GoPatterns.Pool
