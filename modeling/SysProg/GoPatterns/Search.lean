import Mathlib.Data.Fintype.EquivFin
import SysProg.Lib.Machine

/-! A search that asks any number of searchers at once, and waits for all results or for one. -/

namespace SysProg.GoPatterns.Search

/-- What is known about the current search submission. -/
structure SearchSession where
  /-- The keys of the map of searchers. -/
  searchers : Finset String
  first : Bool

/-- Google search is added to the session. -/
def google (s : SearchSession) : SearchSession :=
  { s with searchers := insert "google" s.searchers }

/-- Bing search is added to the session. -/
def bing (s : SearchSession) : SearchSession :=
  { s with searchers := insert "bing" s.searchers }

/-- Yahoo search is added to the session. -/
def yahoo (s : SearchSession) : SearchSession :=
  { s with searchers := insert "yahoo" s.searchers }

/-- The session is restricted to the first result. -/
def onlyFirst (s : SearchSession) : SearchSession :=
  { s with first := true }

/-- The session that the options make, one after the other. -/
def session (options : List (SearchSession → SearchSession)) : SearchSession :=
  options.foldl (fun s opt => opt s) ⟨∅, false⟩

/-- A searcher of the session. -/
abbrev SearchSession.Selected (s : SearchSession) :=
  {key // key ∈ s.searchers}

/-- Where `Submit` stands. -/
inductive SubmitPc where
  /-- `for _, s := range session.searchers`, in any order. -/
  | range
  /-- `search < len(session.searchers)`. -/
  | loop (search : Nat)
  /-- `result := <-session.resultChan`. -/
  | receive (search : Nat)
  | returned
  deriving DecidableEq, Repr

/-- Where the goroutine of a searcher stands. -/
inductive SearcherPc where
  | notLaunched
  /-- The search takes this many more steps. -/
  | searching (steps : Nat)
  /-- `results <- r`, where nothing is buffered. -/
  | send
  | ended
  deriving DecidableEq, Repr

/-- Where a goroutine stands that discards a result. -/
inductive DiscarderPc where
  | notLaunched
  /-- `r := <-session.resultChan`. -/
  | receive
  /-- `log.Printf`, with the result that is discarded. -/
  | log
  | ended
  deriving DecidableEq, Repr

/-- `Submit` and all the goroutines that it launches. -/
structure State (Searcher Result : Type*) [Fintype Searcher] where
  submit : SubmitPc
  searchers : Searcher → SearcherPc
  /-- The goroutine that discards a result, for each value of `search`. -/
  discarders : Fin (Fintype.card Searcher) → DiscarderPc
  results : List Result
  /-- The searchers whose results `Submit` has received, in order. -/
  used : List Searcher
  /-- The searchers whose results have been received by anybody, in order. -/
  arrivals : List Searcher

variable {Searcher Result : Type*} [Fintype Searcher]

/-- The options have been applied. -/
def initial : State Searcher Result where
  submit := .range
  searchers _ := .notLaunched
  discarders _ := .notLaunched
  results := []
  used := []
  arrivals := []

/-- One step of `Submit`, apart from launching searchers and from receiving. -/
def submitStep (first : Bool) (state : State Searcher Result) : Option (State Searcher Result) :=
  match state.submit with
  | .range =>
    if ∀ s, state.searchers s ≠ .notLaunched then some { state with submit := .loop 0 } else none
  | .loop search =>
    if more : search < Fintype.card Searcher then
      if first ∧ search > 0 then
        some { state with
          submit := .loop (search + 1)
          discarders := Function.update state.discarders ⟨search, more⟩ .receive }
      else some { state with submit := .receive search }
    else some { state with submit := .returned }
  | .receive _ | .returned => none

variable [DecidableEq Searcher]

/-- A searcher gets to another place. -/
def State.searcherAt (state : State Searcher Result) (s : Searcher) (pc : SearcherPc) :
    State Searcher Result :=
  { state with searchers := Function.update state.searchers s pc }

/-- A goroutine that discards a result gets to another place. -/
def State.discarderAt (state : State Searcher Result) (search : Fin (Fintype.card Searcher))
    (pc : DiscarderPc) : State Searcher Result :=
  { state with discarders := Function.update state.discarders search pc }

/-- `go s.Search(query, session.resultChan)`. -/
def launch (duration : Searcher → Nat) (state : State Searcher Result) (s : Searcher) :
    Option (State Searcher Result) :=
  if state.submit = .range ∧ state.searchers s = .notLaunched then
    some (state.searcherAt s (.searching (duration s)))
  else none

/-- One step of a searcher, apart from sending. -/
def searcherStep (state : State Searcher Result) (s : Searcher) :
    Option (State Searcher Result) :=
  match state.searchers s with
  | .searching 0 => some (state.searcherAt s .send)
  | .searching (steps + 1) => some (state.searcherAt s (.searching steps))
  | .notLaunched | .send | .ended => none

/-- `Submit` receives what a searcher sends, and saves it. -/
def receive (slice : Searcher → List Result) (state : State Searcher Result) (s : Searcher) :
    Option (State Searcher Result) :=
  match state.submit, state.searchers s with
  | .receive search, .send =>
    some { state.searcherAt s .ended with
      submit := .loop (search + 1)
      results := state.results ++ slice s
      used := state.used ++ [s]
      arrivals := state.arrivals ++ [s] }
  | _, _ => none

/-- Another goroutine receives what a searcher sends. -/
def discard (state : State Searcher Result) (s : Searcher)
    (search : Fin (Fintype.card Searcher)) : Option (State Searcher Result) :=
  if state.searchers s = .send ∧ state.discarders search = .receive then
    some { (state.searcherAt s .ended).discarderAt search .log with
      arrivals := state.arrivals ++ [s] }
  else none

/-- The last step of a goroutine that discards a result. -/
def logDiscarded (state : State Searcher Result) (search : Fin (Fintype.card Searcher)) :
    Option (State Searcher Result) :=
  if state.discarders search = .log then some (state.discarderAt search .ended) else none

/-- Which goroutine makes the next step, or which two. -/
inductive Action (Searcher : Type*) [Fintype Searcher] where
  | submit
  | launch (s : Searcher)
  | searcher (s : Searcher)
  | receive (s : Searcher)
  | discard (s : Searcher) (search : Fin (Fintype.card Searcher))
  | log (search : Fin (Fintype.card Searcher))
  deriving DecidableEq

/-- All goroutines, one step at a time, where each search takes some number of steps. -/
def machine (duration : Searcher → Nat) (slice : Searcher → List Result) (first : Bool) :
    Machine (State Searcher Result) (Action Searcher) where
  step
    | state, .submit => submitStep first state
    | state, .launch s => launch duration state s
    | state, .searcher s => searcherStep state s
    | state, .receive s => receive slice state s
    | state, .discard s search => discard state s search
    | state, .log search => logDiscarded state search

/-- `Submit` with some options, where each searcher sends one slice of results. -/
def submit (duration : String → Nat) (slice : String → List Result)
    (options : List (SearchSession → SearchSession)) :
    Machine (State (session options).Selected Result) (Action (session options).Selected) :=
  machine (fun s => duration s.val) (fun s => slice s.val) (session options).first

end SysProg.GoPatterns.Search
