import Mathlib.Logic.Function.Basic
import SysProg.Lib.Machine

/-! A program that searches its feeds at once, and displays the results as they come. -/

namespace SysProg.GoPatterns.Feeds

/-- What is needed to process a feed. -/
structure Feed where
  name : String
  uri : String
  type : String
  deriving DecidableEq, Repr

/-- Where `Run` stands. -/
inductive RunPc (Result : Type*) where
  /-- `waitGroup.Add(len(feeds))`, after the feeds have been retrieved. -/
  | add
  /-- `for _, feed := range feeds`, about to launch the goroutine for this one. -/
  | range (i : Nat)
  /-- The launch of the goroutine that monitors when all the work is done. -/
  | launch
  /-- `for result := range results` in `Display`. -/
  | display
  /-- `log.Printf`, with the result that has been received. -/
  | print (result : Result)
  | returned
  deriving DecidableEq, Repr

/-- Where the goroutine for a feed stands. -/
inductive FeedPc (Matcher Result : Type*) where
  | notLaunched
  /-- `matcher.Search(feed, searchTerm)`, where the matcher may be nil. -/
  | search (matcher : Option Matcher)
  /-- `results <- result` for each of these, where nothing is buffered. -/
  | send (searchResults : List Result)
  /-- `waitGroup.Done()`. -/
  | done
  | ended
  deriving DecidableEq, Repr

/-- Where the goroutine stands that monitors when all the work is done. -/
inductive MonitorPc where
  | notLaunched
  /-- `waitGroup.Wait()`. -/
  | wait
  /-- `close(results)`. -/
  | close
  | ended
  deriving DecidableEq, Repr

/-- `Run` and all the goroutines that it launches. -/
structure State (Matcher Result : Type*) (count : Nat) where
  run : RunPc Result
  feeds : Fin count → FeedPc Matcher Result
  monitor : MonitorPc
  /-- The counter of the wait group. -/
  waitGroup : Nat
  /-- How often the channel `results` has been closed. -/
  closes : Nat
  /-- Some goroutine has panicked, which ends the program. -/
  panicked : Bool
  /-- What has been displayed, in order. -/
  displayed : List Result

/-- The feeds have been retrieved, and the channel and the wait group have been made. -/
def initial (Matcher Result : Type*) (count : Nat) : State Matcher Result count where
  run := .add
  feeds _ := .notLaunched
  monitor := .notLaunched
  waitGroup := 0
  closes := 0
  panicked := false
  displayed := []

variable {Matcher Result Error : Type*} {count : Nat}

/-- The goroutine for a feed gets to another place. -/
def State.feedAt (state : State Matcher Result count) (i : Fin count)
    (pc : FeedPc Matcher Result) : State Matcher Result count :=
  { state with feeds := Function.update state.feeds i pc }

/-- A goroutine panics. -/
def State.panic (state : State Matcher Result count) : State Matcher Result count :=
  { state with panicked := true }

/-- The matcher for a feed, which is nil if even the default is not registered. -/
def matcherOf (matchers : String → Option Matcher) (feed : Feed) : Option Matcher :=
  match matchers feed.type with
  | some matcher => some matcher
  | none => matchers "default"

/-- One step of `Run`, apart from receiving a result. -/
def runStep (matchers : String → Option Matcher) (feeds : List Feed)
    (state : State Matcher Result feeds.length) : Option (State Matcher Result feeds.length) :=
  match state.run with
  | .add => some { state with run := .range 0, waitGroup := state.waitGroup + feeds.length }
  | .range i =>
    if there : i < feeds.length then
      some { state.feedAt ⟨i, there⟩ (.search (matcherOf matchers feeds[i])) with
        run := .range (i + 1) }
    else some { state with run := .launch }
  | .launch => some { state with run := .display, monitor := .wait }
  | .display => if state.closes > 0 then some { state with run := .returned } else none
  | .print result =>
    some { state with run := .display, displayed := state.displayed ++ [result] }
  | .returned => none

/-- One step of the goroutine for a feed, apart from sending. -/
def feedStep (search : Matcher → Feed → Nat → Except Error (List Result)) (feeds : List Feed)
    (state : State Matcher Result feeds.length) (i : Fin feeds.length) :
    Option (State Matcher Result feeds.length) :=
  match state.feeds i with
  | .search (some matcher) =>
    match search matcher feeds[i] i with
    | .ok searchResults => some (state.feedAt i (.send searchResults))
    | .error _ => some (state.feedAt i .done)
  | .search none => some state.panic
  | .send [] => some (state.feedAt i .done)
  | .send (_ :: _) =>
    -- To send on a closed channel is an error at run time.
    if state.closes > 0 then some state.panic else none
  | .done =>
    -- The counter of a wait group must not become negative.
    if state.waitGroup = 0 then some state.panic
    else some { state.feedAt i .ended with waitGroup := state.waitGroup - 1 }
  | .notLaunched | .ended => none

/-- One step of the goroutine that monitors. -/
def monitorStep (state : State Matcher Result count) : Option (State Matcher Result count) :=
  match state.monitor with
  | .wait => if state.waitGroup = 0 then some { state with monitor := .close } else none
  | .close =>
    -- To close a channel twice is an error at run time.
    if state.closes > 0 then some state.panic
    else some { state with monitor := .ended, closes := state.closes + 1 }
  | .notLaunched | .ended => none

/-- `Display` receives what the goroutine for a feed sends. -/
def receive (state : State Matcher Result count) (i : Fin count) :
    Option (State Matcher Result count) :=
  match state.run, state.feeds i with
  | .display, .send (result :: rest) =>
    if state.closes > 0 then none
    else some { state.feedAt i (.send rest) with run := .print result }
  | _, _ => none

/-- Which goroutine makes the next step, or which two. -/
inductive Action (count : Nat) where
  | run
  | feed (i : Fin count)
  | monitor
  | receive (i : Fin count)
  deriving DecidableEq, Repr

/-- One step, where nothing happens after a panic. -/
def step (matchers : String → Option Matcher)
    (search : Matcher → Feed → Nat → Except Error (List Result)) (feeds : List Feed)
    (state : State Matcher Result feeds.length) (action : Action feeds.length) :
    Option (State Matcher Result feeds.length) :=
  if state.panicked then none
  else match action with
    | .run => runStep matchers feeds state
    | .feed i => feedStep search feeds state i
    | .monitor => monitorStep state
    | .receive i => receive state i

/-- `Run`, one step at a time, where each call of `Search` returns something for each feed. -/
def run (matchers : String → Option Matcher)
    (search : Matcher → Feed → Nat → Except Error (List Result)) (feeds : List Feed) :
    Machine (State Matcher Result feeds.length) (Action feeds.length) :=
  ⟨step matchers search feeds⟩

end SysProg.GoPatterns.Feeds
