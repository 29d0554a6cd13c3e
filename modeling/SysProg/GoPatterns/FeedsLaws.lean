import SysProg.Lib.Tally
import SysProg.GoPatterns.Feeds

/-! Every result is displayed once, the channel is closed once, and nobody is left behind. -/

namespace SysProg.GoPatterns.Feeds

/-- The goroutine for the feed of this index is not launched yet. -/
def RunPc.Before {Result : Type*} (i : Nat) : RunPc Result → Prop
  | .add => True
  | .range j => j ≤ i
  | _ => False

/-- The goroutine that monitors is not launched yet. -/
def RunPc.Early {Result : Type*} : RunPc Result → Prop
  | .add | .range _ | .launch => True
  | _ => False

/-- The results are being displayed. -/
def RunPc.Displays {Result : Type*} : RunPc Result → Prop
  | .display | .print _ => True
  | _ => False

/-- The goroutines are counted in the wait group. -/
def RunPc.counts {Result : Type*} : RunPc Result → Bool
  | .add => false
  | _ => true

/-- What counts as working on a feed. -/
def FeedPc.unended {Matcher Result : Type*} : FeedPc Matcher Result → Nat
  | .ended => 0
  | _ => 1

variable {Matcher Result Error : Type*} {matchers : String → Option Matcher}
  {search : Matcher → Feed → Nat → Except Error (List Result)} {feeds : List Feed}
  {state next : State Matcher Result feeds.length}

/-- What holds at all times, apart from the results. -/
structure Control (matchers : String → Option Matcher) (feeds : List Feed)
    (state : State Matcher Result feeds.length) : Prop where
  -- The loop launches the goroutines in the order of the feeds.
  launched : ∀ i, state.feeds i = .notLaunched ↔ state.run.Before i.val
  bound : ∀ i, state.run = .range i → i ≤ feeds.length
  matcher : ∀ i matcher, state.feeds i = .search matcher →
    matcher = matcherOf matchers (feeds.get i)
  -- `Add` counts all of them before the first one is launched.
  counter : state.waitGroup =
    if state.run.counts then tally FeedPc.unended state.feeds else 0
  monitor : state.monitor = .notLaunched ↔ state.run.Early
  closes : state.closes = if state.monitor = .ended then 1 else 0
  /-- When `Wait` has returned, nobody works on a feed any more. -/
  drained : state.monitor = .close ∨ state.monitor = .ended → ∀ i, state.feeds i = .ended
  returned : state.run = .returned → state.monitor = .ended
  sound : state.panicked = false

/-- Nothing has happened at the start. -/
theorem control_initial : Control matchers feeds (initial Matcher Result feeds.length) where
  -- Nothing has been launched, so nothing is counted and nothing is closed.
  launched := fun _ => ⟨fun _ => trivial, fun _ => rfl⟩
  bound := nofun
  matcher := nofun
  counter := rfl
  monitor := ⟨fun _ => trivial, fun _ => rfl⟩
  closes := rfl
  drained := nofun
  returned := nofun
  sound := rfl

/-- The goroutines are counted before the first one is launched. -/
theorem Control.counts (control : Control matchers feeds state) {i : Fin feeds.length}
    (launched : state.feeds i ≠ .notLaunched) : state.run.counts = true := by
  cases at_ : state.run with
  | add => exact absurd ((control.launched i).mpr (by rw [at_]; trivial)) launched
  | range | launch | display | print | returned => rfl

/-- A goroutine that goes on with a feed keeps the invariant. -/
theorem Control.feedAt (control : Control matchers feeds state) {i : Fin feeds.length}
    {pc : FeedPc Matcher Result} {waitGroup : Nat} (launched : state.feeds i ≠ .notLaunched)
    (unended : state.feeds i ≠ .ended) (onward : pc ≠ .notLaunched)
    (found : ∀ matcher, pc ≠ .search matcher)
    (counter : waitGroup + (state.feeds i).unended = state.waitGroup + pc.unended) :
    Control matchers feeds { state.feedAt i pc with waitGroup } where
  -- A goroutine that goes on was launched, and stays so.
  launched := by
    apply (Function.forall_update_iff state.feeds
      fun other pc => pc = .notLaunched ↔ state.run.Before other.val).mpr
    refine ⟨⟨fun fresh => absurd fresh onward, fun before => ?_⟩,
      fun other _ => control.launched other⟩
    exact absurd ((control.launched i).mpr before) launched
  bound := control.bound
  matcher := by
    apply (Function.forall_update_iff state.feeds
      fun other pc => ∀ matcher, pc = .search matcher →
        matcher = matcherOf matchers feeds[other]).mpr
    exact ⟨fun matcher searches => absurd searches (found matcher),
      fun other _ => control.matcher other⟩
  -- The wait group is counted down as this goroutine ends, and not otherwise.
  counter := by
    have counts := control.counts launched
    have before := control.counter
    have moved := tally_update FeedPc.unended state.feeds i pc
    rw [if_pos counts] at before
    show waitGroup = if state.run.counts then
      tally FeedPc.unended (Function.update state.feeds i pc) else 0
    rw [if_pos counts]
    omega
  monitor := control.monitor
  closes := control.closes
  drained := fun closing => absurd (control.drained closing i) unended
  returned := control.returned
  sound := control.sound

/-- Receiving and printing a result keep the invariant. -/
theorem Control.displays (control : Control matchers feeds state) {pc : RunPc Result}
    {displayed : List Result} (before : state.run.Displays) (after : pc.Displays) :
    Control matchers feeds { state with run := pc, displayed } := by
  -- While results are displayed, all goroutines have been launched.
  have displaying : ∀ {pc : RunPc Result}, pc.Displays →
      (∀ i, ¬ pc.Before i) ∧ ¬ pc.Early ∧ pc.counts = true ∧ pc ≠ .returned ∧
        ∀ i, pc ≠ .range i := by
    intro pc displays
    cases pc with
    | display | print => exact ⟨fun _ => id, id, rfl, nofun, nofun⟩
    | add | range | launch | returned => exact displays.elim
  obtain ⟨late, early, counts, _, _⟩ := displaying before
  obtain ⟨late', early', counts', unreturned, unlaunched⟩ := displaying after
  exact {
    launched := fun i => (control.launched i).trans
      ⟨fun fresh => absurd fresh (late i), fun fresh => absurd fresh (late' i)⟩
    bound := fun i at_ => absurd at_ (unlaunched i)
    matcher := control.matcher
    counter := by
      have counter := control.counter
      rw [if_pos counts] at counter
      rw [if_pos counts']
      exact counter
    monitor := control.monitor.trans
      ⟨fun fresh => absurd fresh early, fun fresh => absurd fresh early'⟩
    closes := control.closes
    drained := control.drained
    returned := fun at_ => absurd at_ unreturned
    sound := control.sound }

/-- Launching a goroutine for a feed keeps the invariant. -/
theorem Control.launchFeed (control : Control matchers feeds state) {i : Nat}
    (at_ : state.run = .range i) (there : i < feeds.length) :
    Control matchers feeds
      { state.feedAt ⟨i, there⟩ (.search (matcherOf matchers feeds[i])) with
        run := .range (i + 1) } where
  launched := by
    apply (Function.forall_update_iff state.feeds
      fun other pc => pc = .notLaunched ↔ i + 1 ≤ other.val).mpr
    constructor
    · exact ⟨nofun, fun before => absurd before (Nat.not_succ_le_self i)⟩
    · -- Of the others, those behind this feed are launched later.
      intro other different
      have launched := control.launched other
      rw [at_] at launched
      refine launched.trans ⟨fun before => ?_, Nat.le_of_succ_le⟩
      exact Nat.lt_of_le_of_ne before fun equal => different (Fin.ext equal.symm)
  bound := by
    intro j same
    obtain rfl := RunPc.range.inj same
    exact there
  matcher := by
    apply (Function.forall_update_iff state.feeds
      fun other pc => ∀ matcher, pc = .search matcher →
        matcher = matcherOf matchers feeds[other]).mpr
    exact ⟨fun matcher searches => (FeedPc.search.inj searches).symm,
      fun other _ => control.matcher other⟩
  counter := by
    have counter := control.counter
    have fresh := (control.launched ⟨i, there⟩).mpr (by rw [at_]; exact Nat.le_refl i)
    have moved := tally_update FeedPc.unended state.feeds ⟨i, there⟩
      (.search (matcherOf matchers feeds[i]))
    rw [at_] at counter
    change state.waitGroup = tally FeedPc.unended state.feeds at counter
    rw [fresh] at moved
    simp only [FeedPc.unended] at moved
    show state.waitGroup = tally FeedPc.unended (Function.update state.feeds _ _)
    omega
  monitor := by
    have monitor := control.monitor
    rw [at_] at monitor
    exact monitor
  closes := control.closes
  drained := by
    intro closing
    have fresh := control.monitor.mpr (by rw [at_]; trivial)
    exact closing.elim (fun close => nomatch fresh.symm.trans close)
      fun ended => nomatch fresh.symm.trans ended
  returned := nofun
  sound := control.sound

/-- A step of `Run` keeps the invariant. -/
theorem Control.runStep (control : Control matchers feeds state)
    (stepped : Feeds.runStep matchers feeds state = some next) :
    Control matchers feeds next := by
  have launched := control.launched
  have counter := control.counter
  have monitor := control.monitor
  unfold Feeds.runStep at stepped
  split at stepped
  next at_ =>
    obtain rfl := Option.some.inj stepped
    rw [at_] at launched counter monitor
    change state.waitGroup = 0 at counter
    have all : tally FeedPc.unended state.feeds = feeds.length := by
      have each : ∀ i, (state.feeds i).unended = 1 := by
        intro i
        rw [(launched i).mpr trivial]
        rfl
      rw [tally_eq_card each, Fintype.card_fin]
    exact {
      launched := fun i => (launched i).trans ⟨fun _ => Nat.zero_le _, fun _ => trivial⟩
      bound := by
        intro j same
        obtain rfl := RunPc.range.inj same
        exact Nat.zero_le _
      matcher := control.matcher
      counter := by
        show state.waitGroup + feeds.length = tally FeedPc.unended state.feeds
        omega
      monitor := monitor
      closes := control.closes
      drained := control.drained
      returned := nofun
      sound := control.sound }
  next i at_ =>
    split at stepped
    next there =>
      obtain rfl := Option.some.inj stepped
      exact control.launchFeed at_ there
    next last =>
      -- All goroutines have been launched.
      obtain rfl := Option.some.inj stepped
      rw [at_] at launched counter monitor
      exact {
        launched := fun other => (launched other).trans
          ⟨fun before => absurd (Nat.lt_of_le_of_lt before other.isLt) last, False.elim⟩
        bound := nofun
        matcher := control.matcher
        counter := counter
        monitor := monitor
        closes := control.closes
        drained := control.drained
        returned := nofun
        sound := control.sound }
  next at_ =>
    obtain rfl := Option.some.inj stepped
    rw [at_] at launched counter monitor
    have fresh := monitor.mpr trivial
    have closes := control.closes
    rw [fresh, if_neg nofun] at closes
    exact {
      launched := launched
      bound := nofun
      matcher := control.matcher
      counter := counter
      monitor := ⟨nofun, False.elim⟩
      closes := closes
      drained := nofun
      returned := nofun
      sound := control.sound }
  next at_ =>
    split at stepped
    next closed =>
      -- The channel has been closed, which is the last thing the monitor does.
      obtain rfl := Option.some.inj stepped
      rw [at_] at launched counter monitor
      have ended : state.monitor = .ended := by
        by_contra unended
        have closes := control.closes
        rw [if_neg unended] at closes
        omega
      exact {
        launched := launched
        bound := nofun
        matcher := control.matcher
        counter := counter
        monitor := monitor
        closes := control.closes
        drained := control.drained
        returned := fun _ => ended
        sound := control.sound }
    · exact nomatch stepped
  next result at_ =>
    obtain rfl := Option.some.inj stepped
    exact control.displays (by rw [at_]; trivial) trivial
  · exact nomatch stepped

/-- While somebody works on a feed, the channel is open. -/
theorem Control.opened (control : Control matchers feeds state) {i : Fin feeds.length}
    (unended : state.feeds i ≠ .ended) : state.closes = 0 := by
  -- The monitor closes the channel only after all goroutines have ended.
  have notEnded : state.monitor ≠ .ended := fun ended =>
    unended (control.drained (.inr ended) i)
  have closes := control.closes
  rwa [if_neg notEnded] at closes

/-- While somebody works on a feed, the counter of the wait group is positive. -/
theorem Control.counted (control : Control matchers feeds state) {i : Fin feeds.length}
    (launched : state.feeds i ≠ .notLaunched) (unended : state.feeds i ≠ .ended) :
    0 < state.waitGroup := by
  have counts := control.counts launched
  have counter := control.counter
  have least := le_tally FeedPc.unended state.feeds i
  -- A goroutine that is launched and has not ended is counted.
  have weighs : (state.feeds i).unended = 1 := by
    cases at_ : state.feeds i with
    | ended => exact absurd at_ unended
    | notLaunched | search | send | done => rfl
  rw [if_pos counts] at counter
  omega

/-- What is to be displayed of a feed. -/
def resultsOf (matchers : String → Option Matcher)
    (search : Matcher → Feed → Nat → Except Error (List Result)) (feeds : List Feed)
    (i : Fin feeds.length) : List Result :=
  match matcherOf matchers (feeds.get i) with
  | some matcher =>
    match search matcher (feeds.get i) i with
    | .ok searchResults => searchResults
    | .error _ => []
  | none => []

/-- If the default matcher is registered, there is one for every feed. -/
theorem exists_matcher (default : (matchers "default").isSome) (feed : Feed) :
    ∃ matcher, matcherOf matchers feed = some matcher := by
  unfold matcherOf
  -- The matcher of the type, or the default one.
  cases matchers feed.type with
  | some matcher => exact ⟨matcher, rfl⟩
  | none => exact Option.isSome_iff_exists.mp default

/-- What a step of the goroutine for a feed can do, none of which is a panic. -/
theorem feedStep_cases (control : Control matchers feeds state)
    (default : (matchers "default").isSome) {i : Fin feeds.length}
    (stepped : feedStep search feeds state i = some next) :
    (∃ matcher, state.feeds i = .search matcher ∧
      (next = state.feedAt i (.send (resultsOf matchers search feeds i)) ∨
        resultsOf matchers search feeds i = [] ∧ next = state.feedAt i .done)) ∨
    (state.feeds i = .send [] ∧ next = state.feedAt i .done) ∨
    (state.feeds i = .done ∧ 0 < state.waitGroup ∧
      next = { state.feedAt i .ended with waitGroup := state.waitGroup - 1 }) := by
  unfold feedStep at stepped
  split at stepped
  next matcher at_ =>
    have found := control.matcher i _ at_
    left
    refine ⟨some matcher, at_, ?_⟩
    unfold resultsOf
    rw [← found]
    simp only
    cases outcome : search matcher feeds[i] i with
    | ok searchResults =>
      simp only [outcome] at stepped
      exact .inl (Option.some.inj stepped).symm
    | error error =>
      simp only [outcome] at stepped
      exact .inr ⟨rfl, (Option.some.inj stepped).symm⟩
  next at_ =>
    -- The matcher is not nil.
    obtain ⟨matcher, there⟩ := exists_matcher default feeds[i]
    cases (control.matcher i none at_).trans there
  next at_ => exact .inr (.inl ⟨at_, (Option.some.inj stepped).symm⟩)
  next result rest at_ =>
    split at stepped
    next closed =>
      have opened := control.opened (i := i) (by rw [at_]; simp)
      omega
    · cases stepped
  next at_ =>
    split at stepped
    next zero =>
      have counted := control.counted (i := i) (by rw [at_]; simp) (by rw [at_]; simp)
      omega
    next positive =>
      exact .inr (.inr ⟨at_, Nat.pos_of_ne_zero positive, (Option.some.inj stepped).symm⟩)
  · cases stepped
  · cases stepped

/-- What a step of the goroutine that monitors can do, none of which is a panic. -/
theorem monitorStep_cases (control : Control matchers feeds state)
    (stepped : monitorStep state = some next) :
    (state.monitor = .wait ∧ state.waitGroup = 0 ∧ next = { state with monitor := .close }) ∨
    (state.monitor = .close ∧
      next = { state with monitor := .ended, closes := state.closes + 1 }) := by
  unfold monitorStep at stepped
  -- The monitor waits for the goroutines, and then closes the channel.
  split at stepped
  next at_ =>
    split at stepped
    next zero => exact .inl ⟨at_, zero, (Option.some.inj stepped).symm⟩
    · exact nomatch stepped
  next at_ =>
    -- The channel is closed once, so closing it does not panic.
    have closes := control.closes
    rw [at_, if_neg nofun] at closes
    split at stepped
    next closed => omega
    next opened => exact .inr ⟨at_, (Option.some.inj stepped).symm⟩
  · exact nomatch stepped
  · exact nomatch stepped

/-- What it takes to receive a result. -/
theorem receive_cases {i : Fin feeds.length} (stepped : receive state i = some next) :
    ∃ result rest, state.run = .display ∧ state.feeds i = .send (result :: rest) ∧
      next = { state.feedAt i (.send rest) with run := .print result } := by
  unfold receive at stepped
  -- A result is received when one is sent and Display waits for it.
  split at stepped
  next result rest displays sends =>
    split at stepped
    · exact nomatch stepped
    · exact ⟨result, rest, displays, sends, (Option.some.inj stepped).symm⟩
  · exact nomatch stepped

/-- A step of the goroutine that monitors keeps the invariant. -/
theorem Control.monitorStep (control : Control matchers feeds state)
    (stepped : Feeds.monitorStep state = some next) : Control matchers feeds next := by
  have monitor := control.monitor
  rcases monitorStep_cases control stepped with ⟨at_, zero, rfl⟩ | ⟨at_, rfl⟩
  · -- Nobody is counted, so everybody has ended.
    have late : ¬ state.run.Early := fun early => nomatch at_.symm.trans (monitor.mpr early)
    have counts : state.run.counts = true := by
      cases here : state.run with
      | add =>
        rw [here] at late
        exact absurd trivial late
      | range | launch | display | print | returned => rfl
    have counter := control.counter
    rw [if_pos counts, zero] at counter
    have ended : ∀ i, state.feeds i = .ended := by
      intro i
      have weighs := tally_eq_zero_iff.mp counter.symm i
      cases here : state.feeds i with
      | ended => rfl
      | notLaunched | search | send | done =>
        rw [here] at weighs
        exact nomatch weighs
    have closes := control.closes
    rw [at_, if_neg nofun] at closes
    exact {
      launched := control.launched
      bound := control.bound
      matcher := control.matcher
      counter := control.counter
      monitor := ⟨nofun, fun early => absurd early late⟩
      closes := closes
      drained := fun _ => ended
      returned := fun returned => nomatch at_.symm.trans (control.returned returned)
      sound := control.sound }
  · have closes := control.closes
    rw [at_, if_neg nofun] at closes
    exact {
      launched := control.launched
      bound := control.bound
      matcher := control.matcher
      counter := control.counter
      monitor := ⟨nofun, fun early => nomatch at_.symm.trans (monitor.mpr early)⟩
      closes := by
        show state.closes + 1 = 1
        omega
      drained := fun _ => control.drained (.inl at_)
      returned := fun _ => rfl
      sound := control.sound }

/-- Every step keeps the invariant. -/
theorem Control.step (control : Control matchers feeds state)
    (default : (matchers "default").isSome) {action : Action feeds.length}
    (stepped : (run matchers search feeds).step state action = some next) :
    Control matchers feeds next := by
  simp only [run, Feeds.step, control.sound, Bool.false_eq_true, if_false] at stepped
  -- One case for each action; a goroutine finds its matcher, sends, or ends.
  cases action with
  | run => exact control.runStep stepped
  | feed i =>
    rcases feedStep_cases control default stepped with
      ⟨matcher, at_, rfl | ⟨_, rfl⟩⟩ | ⟨at_, rfl⟩ | ⟨at_, positive, rfl⟩
    · exact control.feedAt (by rw [at_]; exact nofun) (by rw [at_]; exact nofun) nofun
        (fun _ => nofun) (by rw [at_]; rfl)
    · exact control.feedAt (by rw [at_]; exact nofun) (by rw [at_]; exact nofun) nofun
        (fun _ => nofun) (by rw [at_]; rfl)
    · exact control.feedAt (by rw [at_]; exact nofun) (by rw [at_]; exact nofun) nofun
        (fun _ => nofun) (by rw [at_]; rfl)
    · refine control.feedAt (by rw [at_]; exact nofun) (by rw [at_]; exact nofun) nofun
        (fun _ => nofun) ?_
      rw [at_]
      simp only [FeedPc.unended]
      omega
  | monitor => exact control.monitorStep stepped
  | receive i =>
    -- The result goes from the goroutine to Display in one step.
    obtain ⟨result, rest, displays, sends, rfl⟩ := receive_cases stepped
    have sent : Control matchers feeds (state.feedAt i (.send rest)) :=
      control.feedAt (by rw [sends]; exact nofun) (by rw [sends]; exact nofun) nofun
        (fun _ => nofun) (by rw [sends]; rfl)
    exact sent.displays (by rw [State.feedAt, displays]; trivial) trivial

/-- What a goroutine has yet to hand over, if its feed has these results. -/
def FeedPc.pending (results : List Result) : FeedPc Matcher Result → Multiset Result
  | .notLaunched | .search _ => results
  | .send searchResults => searchResults
  | .done | .ended => 0

/-- What has been received and is not displayed yet. -/
def RunPc.printing : RunPc Result → Multiset Result
  | .print result => {result}
  | _ => 0

/-- What all goroutines have yet to hand over. -/
def State.pending (results : Fin feeds.length → List Result)
    (state : State Matcher Result feeds.length) : Multiset Result :=
  ∑ i, (state.feeds i).pending (results i)

/-- Every result is displayed, is about to be displayed, or is yet to be handed over. -/
def Account (results : Fin feeds.length → List Result)
    (state : State Matcher Result feeds.length) : Prop :=
  (state.displayed : Multiset Result) + state.run.printing + state.pending results =
    ∑ i, (results i : Multiset Result)

variable {results : Fin feeds.length → List Result}

/-- A goroutine that goes on takes along what it has yet to hand over. -/
theorem pending_update {i : Fin feeds.length} {pc : FeedPc Matcher Result}
    (same : pc.pending (results i) = (state.feeds i).pending (results i)) :
    (state.feedAt i pc).pending results = state.pending results := by
  -- Only the goroutine at the index is summed anew.
  have moved := sum_update_add (fun i (pc : FeedPc Matcher Result) => pc.pending (results i))
    state.feeds i pc
  simp only [same] at moved
  exact add_right_cancel moved

/-- Nothing has been handed over at the start. -/
theorem account_initial : Account results (initial Matcher Result feeds.length) := by
  unfold Account
  show 0 + 0 + ∑ i, (results i : Multiset Result) = _
  rw [zero_add, zero_add]

/-- Every step keeps the account. -/
theorem Account.step (account : Account (resultsOf matchers search feeds) state)
    (control : Control matchers feeds state) (default : (matchers "default").isSome)
    {action : Action feeds.length}
    (stepped : (run matchers search feeds).step state action = some next) :
    Account (resultsOf matchers search feeds) next := by
  simp only [run, Feeds.step, control.sound, Bool.false_eq_true, if_false] at stepped
  unfold Account at account ⊢
  cases action with
  | run =>
    simp only [runStep] at stepped
    split at stepped
    next at_ =>
      obtain rfl := Option.some.inj stepped
      rw [at_] at account
      exact account
    next i at_ =>
      rw [at_] at account
      split at stepped
      next there =>
        obtain rfl := Option.some.inj stepped
        have fresh := (control.launched ⟨i, there⟩).mpr (by rw [at_]; exact Nat.le_refl i)
        have same : (state.feedAt ⟨i, there⟩ (.search (matcherOf matchers feeds[i]))).pending
            (resultsOf matchers search feeds) = state.pending (resultsOf matchers search feeds) :=
          pending_update (by rw [fresh]; rfl)
        rw [← same] at account
        exact account
      · obtain rfl := Option.some.inj stepped
        exact account
    next at_ =>
      obtain rfl := Option.some.inj stepped
      rw [at_] at account
      exact account
    next at_ =>
      rw [at_] at account
      split at stepped
      · obtain rfl := Option.some.inj stepped
        exact account
      · exact nomatch stepped
    next result at_ =>
      -- What has been received is displayed.
      obtain rfl := Option.some.inj stepped
      rw [at_] at account
      show ((state.displayed ++ [result] : List Result) : Multiset Result) + 0 +
        state.pending _ = _
      rw [← account, ← Multiset.coe_add, add_zero]
      rfl
    · exact nomatch stepped
  | feed i =>
    rcases feedStep_cases control default stepped with
      ⟨matcher, at_, rfl | ⟨empty, rfl⟩⟩ | ⟨at_, rfl⟩ | ⟨at_, _, rfl⟩
    · rw [pending_update (by rw [at_]; rfl)]
      exact account
    · rw [pending_update (by rw [at_, FeedPc.pending, FeedPc.pending, empty]; rfl)]
      exact account
    · rw [pending_update (by rw [at_]; rfl)]
      exact account
    · have same : (state.feedAt i .ended).pending (resultsOf matchers search feeds) =
          state.pending (resultsOf matchers search feeds) := pending_update (by rw [at_]; rfl)
      rw [← same] at account
      exact account
  | monitor =>
    rcases monitorStep_cases control stepped with ⟨_, _, rfl⟩ | ⟨_, rfl⟩
    · exact account
    · exact account
  | receive i =>
    obtain ⟨result, rest, displays, sends, rfl⟩ := receive_cases stepped
    rw [displays] at account
    have moved : (state.feedAt i (.send rest)).pending (resultsOf matchers search feeds) +
        (state.feeds i).pending (resultsOf matchers search feeds i) =
          state.pending (resultsOf matchers search feeds) + (rest : Multiset Result) :=
      sum_update_add
        (fun i (pc : FeedPc Matcher Result) => pc.pending (resultsOf matchers search feeds i))
        state.feeds i (.send rest)
    -- One result fewer is to be handed over.
    have split : (state.feeds i).pending (resultsOf matchers search feeds i) =
        {result} + (rest : Multiset Result) := by
      rw [sends]
      rfl
    have less : (state.feedAt i (.send rest)).pending (resultsOf matchers search feeds) +
        {result} = state.pending (resultsOf matchers search feeds) := by
      rw [split, ← add_assoc] at moved
      exact add_right_cancel moved
    rw [← account, ← less]
    show (state.displayed : Multiset Result) + {result} +
      (state.feedAt i (.send rest)).pending _ = (state.displayed : Multiset Result) + 0 + _
    rw [add_zero, add_assoc, add_comm _ ({result} : Multiset Result)]

/-- How many steps `Run` has to go, apart from displaying what is yet to be received. -/
def RunPc.toGo (count : Nat) : RunPc Result → Nat
  | .add => count + 6
  | .range i => count - i + 5
  | .launch => 4
  | .print _ => 2
  | .display => 1
  | .returned => 0

/-- How many steps it takes to finish a feed with these results, and to display them. -/
def FeedPc.toGo (results : List Result) : FeedPc Matcher Result → Nat
  | .notLaunched | .search _ => 2 * results.length + 3
  | .send searchResults => 2 * searchResults.length + 2
  | .done => 1
  | .ended => 0

/-- How many steps the goroutine that monitors has to go, once it has been launched. -/
def MonitorPc.toGo : MonitorPc → Nat
  | .wait => 2
  | .close => 1
  | .notLaunched | .ended => 0

/-- How many steps there are to go. -/
def State.toGo (results : Fin feeds.length → List Result)
    (state : State Matcher Result feeds.length) : Nat :=
  state.run.toGo feeds.length + ∑ i, (state.feeds i).toGo (results i) + state.monitor.toGo

/-- A goroutine that goes on changes the number of steps to go by its own. -/
theorem toGo_update (results : Fin feeds.length → List Result)
    (state : State Matcher Result feeds.length) (i : Fin feeds.length)
    (pc : FeedPc Matcher Result) :
    ∑ j, (Function.update state.feeds i pc j).toGo (results j) +
        (state.feeds i).toGo (results i) =
      ∑ j, (state.feeds j).toGo (results j) + pc.toGo (results i) :=
  -- Only the goroutine at the index is summed anew.
  sum_update_add (fun j (pc : FeedPc Matcher Result) => pc.toGo (results j)) state.feeds i pc

/-- Every step leaves fewer steps to go. -/
theorem Control.toGo_step (control : Control matchers feeds state)
    (default : (matchers "default").isSome) {action : Action feeds.length}
    (stepped : (run matchers search feeds).step state action = some next) :
    next.toGo (resultsOf matchers search feeds) < state.toGo (resultsOf matchers search feeds) := by
  simp only [run, Feeds.step, control.sound, Bool.false_eq_true, if_false] at stepped
  unfold State.toGo
  cases action with
  | run =>
    simp only [Feeds.runStep] at stepped
    split at stepped
    next at_ =>
      obtain rfl := Option.some.inj stepped
      simp only [at_, RunPc.toGo]
      omega
    next i at_ =>
      split at stepped
      next there =>
        obtain rfl := Option.some.inj stepped
        -- The feed has been accounted for since the start.
        have fresh := (control.launched ⟨i, there⟩).mpr (by rw [at_]; exact Nat.le_refl i)
        have moved := toGo_update (resultsOf matchers search feeds) state ⟨i, there⟩
          (.search (matcherOf matchers feeds[i]))
        rw [fresh] at moved
        simp only [State.feedAt, at_, RunPc.toGo, FeedPc.toGo] at moved ⊢
        omega
      · obtain rfl := Option.some.inj stepped
        simp only [at_, RunPc.toGo]
        omega
    next at_ =>
      obtain rfl := Option.some.inj stepped
      have fresh := control.monitor.mpr (by rw [at_]; trivial)
      simp only [at_, fresh, RunPc.toGo, MonitorPc.toGo]
      omega
    next at_ =>
      split at stepped
      · obtain rfl := Option.some.inj stepped
        simp only [at_, RunPc.toGo]
        omega
      · exact nomatch stepped
    next result at_ =>
      obtain rfl := Option.some.inj stepped
      simp only [at_, RunPc.toGo]
      omega
    · exact nomatch stepped
  | feed i =>
    rcases feedStep_cases control default stepped with
      ⟨matcher, at_, rfl | ⟨_, rfl⟩⟩ | ⟨at_, rfl⟩ | ⟨at_, _, rfl⟩
    · have moved := toGo_update (resultsOf matchers search feeds) state i
        (.send (resultsOf matchers search feeds i))
      rw [at_] at moved
      simp only [State.feedAt, FeedPc.toGo] at moved ⊢
      omega
    · have moved := toGo_update (resultsOf matchers search feeds) state i .done
      rw [at_] at moved
      simp only [State.feedAt, FeedPc.toGo] at moved ⊢
      omega
    · have moved := toGo_update (resultsOf matchers search feeds) state i .done
      rw [at_] at moved
      simp only [State.feedAt, FeedPc.toGo] at moved ⊢
      omega
    · have moved := toGo_update (resultsOf matchers search feeds) state i .ended
      rw [at_] at moved
      simp only [State.feedAt, FeedPc.toGo] at moved ⊢
      omega
  | monitor =>
    rcases monitorStep_cases control stepped with ⟨at_, _, rfl⟩ | ⟨at_, rfl⟩
    · simp only [at_, MonitorPc.toGo]
      omega
    · simp only [at_, MonitorPc.toGo]
      omega
  | receive i =>
    obtain ⟨result, rest, displays, sends, rfl⟩ := receive_cases stepped
    have moved := toGo_update (resultsOf matchers search feeds) state i (.send rest)
    rw [sends] at moved
    simp only [State.feedAt, displays, RunPc.toGo, FeedPc.toGo, List.length_cons] at moved ⊢
    omega

/-- While `Run` displays, a goroutine that works on a feed can go on, or can hand over. -/
theorem Control.feed_goesOn (control : Control matchers feeds state)
    (displays : state.run = .display) {i : Fin feeds.length} (unended : state.feeds i ≠ .ended) :
    (feedStep search feeds state i).isSome ∨ (receive state i).isSome := by
  have opened := control.opened unended
  cases at_ : state.feeds i with
  | ended => exact absurd at_ unended
  | notLaunched =>
    -- All goroutines are launched before `Run` displays.
    have before := (control.launched i).mp at_
    rw [displays] at before
    exact before.elim
  | search matcher =>
    left
    cases matcher with
    | none => simp [feedStep, at_]
    | some matcher =>
      simp only [feedStep, at_]
      cases search matcher feeds[i] i <;> rfl
  | send searchResults =>
    cases searchResults with
    | nil => exact .inl (by simp [feedStep, at_])
    | cons result rest => exact .inr (by simp [receive, displays, at_, opened])
  | done =>
    left
    simp only [feedStep, at_]
    split <;> rfl

/-- Until `Run` returns, some goroutine can go on. -/
theorem Control.alive (control : Control matchers feeds state) (more : state.run ≠ .returned) :
    ∃ action next, (run matchers search feeds).step state action = some next := by
  have sound := control.sound
  cases at_ : state.run with
  | add | launch | print =>
    exact Machine.exists_step .run (by simp [run, Feeds.step, sound, Feeds.runStep, at_])
  | range i =>
    apply Machine.exists_step .run
    simp only [run, Feeds.step, sound, Bool.false_eq_true, if_false, Feeds.runStep, at_]
    split <;> rfl
  | returned => exact absurd at_ more
  | display =>
    by_cases closed : state.closes > 0
    · exact Machine.exists_step .run (by simp [run, Feeds.step, sound, Feeds.runStep, at_, closed])
    · have monitor := control.monitor
      have closes := control.closes
      cases here : state.monitor with
      | notLaunched =>
        have early := monitor.mp here
        rw [at_] at early
        exact early.elim
      | ended =>
        rw [here, if_pos rfl] at closes
        omega
      | close =>
        apply Machine.exists_step .monitor
        simp only [run, Feeds.step, sound, Bool.false_eq_true, if_false, Feeds.monitorStep,
          here]
        split <;> rfl
      | wait =>
        -- The monitor waits for somebody, who can go on since `Run` displays.
        by_cases ended : ∀ i, state.feeds i = .ended
        · have counter := control.counter
          have nobody : tally FeedPc.unended state.feeds = 0 :=
            tally_eq_zero_iff.mpr fun i => by rw [ended i]; rfl
          rw [nobody, ite_self] at counter
          apply Machine.exists_step .monitor
          simp [run, Feeds.step, sound, Feeds.monitorStep, here, counter]
        · obtain ⟨i, unended⟩ := not_forall.mp ended
          rcases control.feed_goesOn at_ unended with able | able
          · apply Machine.exists_step (.feed i)
            simpa only [run, Feeds.step, sound, Bool.false_eq_true, if_false] using able
          · apply Machine.exists_step (.receive i)
            simpa only [run, Feeds.step, sound, Bool.false_eq_true, if_false] using able

/-- What is promised of `Run` and of its goroutines after so many steps. -/
structure Correct (matchers : String → Option Matcher)
    (search : Matcher → Feed → Nat → Except Error (List Result)) (feeds : List Feed)
    (state : State Matcher Result feeds.length) (steps : Nat) : Prop where
  /-- Nobody sends on the closed channel, closes it again or calls a nil matcher. -/
  sound : state.panicked = false
  /-- Nothing is displayed but the results, each of them once at most. -/
  most : (state.displayed : Multiset Result) ≤
    ∑ i, (resultsOf matchers search feeds i : Multiset Result)
  /-- The channel is closed once at most, and only after every send. -/
  closed : state.closes ≤ 1 ∧ (state.closes = 1 → ∀ i, state.feeds i = .ended)
  /-- When `Run` returns, everything has been displayed, and all goroutines have ended. -/
  returned : state.run = .returned →
    (state.displayed : Multiset Result) =
      ∑ i, (resultsOf matchers search feeds i : Multiset Result) ∧
    state.closes = 1 ∧ (∀ i, state.feeds i = .ended) ∧ state.monitor = .ended
  /-- Nobody waits forever, since some step is possible, and there are only so many. -/
  alive : state.run ≠ .returned →
    ∃ action next, (run matchers search feeds).step state action = some next
  bounded : steps ≤
    (initial Matcher Result feeds.length).toGo (resultsOf matchers search feeds)

/-- Every result of every successful search is displayed once, and then `Run` returns. -/
theorem run_correct (matchers : String → Option Matcher) (default : (matchers "default").isSome)
    (search : Matcher → Feed → Nat → Except Error (List Result)) (feeds : List Feed)
    (actions : List (Action feeds.length)) (state : State Matcher Result feeds.length)
    (ran : (run matchers search feeds).run (initial Matcher Result feeds.length) actions =
      some state) :
    Correct matchers search feeds state actions.length := by
  have preserved : ∀ state action next,
      Control matchers feeds state ∧ Account (resultsOf matchers search feeds) state →
        (run matchers search feeds).step state action = some next →
          Control matchers feeds next ∧ Account (resultsOf matchers search feeds) next := by
    intro state action next before stepped
    exact ⟨before.1.step default stepped, before.2.step before.1 default stepped⟩
  obtain ⟨control, account⟩ :=
    Machine.run_invariant preserved ⟨control_initial, account_initial⟩ ran
  -- Each step costs one, so there are no more steps than there are to go at the start.
  have lowered : ∀ state action next,
      Control matchers feeds state ∧ Account (resultsOf matchers search feeds) state →
        (run matchers search feeds).step state action = some next →
          next.toGo (resultsOf matchers search feeds) <
            state.toGo (resultsOf matchers search feeds) := by
    intro state action next before stepped
    exact before.1.toGo_step default stepped
  have paid := Machine.run_length_le preserved lowered ⟨control_initial, account_initial⟩ ran
  have closes := control.closes
  exact {
    sound := control.sound
    most := by
      rw [← account, add_assoc]
      exact Multiset.le_add_right _ _
    closed := by
      split at closes
      next ended => exact ⟨closes.le, fun _ => control.drained (.inr ended)⟩
      · exact ⟨by omega, fun one => by omega⟩
    returned := by
      intro returned
      have monitor := control.returned returned
      have ended := control.drained (.inr monitor)
      rw [if_pos monitor] at closes
      refine ⟨?_, closes, ended, monitor⟩
      -- Nothing is left to be handed over or to be displayed.
      have pending : state.pending (resultsOf matchers search feeds) = 0 :=
        Finset.sum_eq_zero fun i _ => by rw [ended i]; rfl
      unfold Account at account
      rw [pending, returned] at account
      rw [← account, add_zero]
      exact (add_zero (state.displayed : Multiset Result)).symm
    alive := control.alive
    bounded := by omega }

/-- Two feeds, one of which has no matcher of its own. -/
def twoFeeds : List Feed := [⟨"a", "a.org", "rss"⟩, ⟨"b", "b.org", "json"⟩]

/-- The search of the second feed fails. -/
def twoFeedsSearch (matcher : Nat) (feed : Feed) (call : Nat) : Except String (List Nat) :=
  if feed.type = "rss" then .ok [matcher, matcher + call + 1] else .error "no matcher"

/-- Everything that happens from the first step to the last. -/
def twoFeedsRun : List (Action twoFeeds.length) :=
  [.run, .run, .run, .run, .run, .feed ⟨1, by decide⟩, .feed ⟨0, by decide⟩,
    .receive ⟨0, by decide⟩, .run, .receive ⟨0, by decide⟩, .feed ⟨1, by decide⟩,
    .feed ⟨0, by decide⟩, .feed ⟨0, by decide⟩, .monitor, .run, .monitor, .run]

/-- The results of the first feed are displayed, and `Run` returns. -/
theorem run_correct_twoFeedsRun :
    ∃ state, (run (fun type => if type = "rss" then some 7 else if type = "default" then some 3
        else none) twoFeedsSearch twoFeeds).run (initial Nat Nat twoFeeds.length) twoFeedsRun =
          some state ∧ (state.run, state.displayed) = (.returned, [7, 8]) ∧
      Correct (fun type => if type = "rss" then some 7 else if type = "default" then some 3
        else none) twoFeedsSearch twoFeeds state twoFeedsRun.length := by
  -- The first feed has its own matcher, the second one the default.
  have shown : ((run (fun type => if type = "rss" then some 7 else if type = "default" then some 3
      else none) twoFeedsSearch twoFeeds).run (initial Nat Nat twoFeeds.length) twoFeedsRun).map
        (fun state => (state.run, state.displayed)) = some (.returned, [7, 8]) := by
    decide +kernel
  obtain ⟨state, ran, facts⟩ := Option.map_eq_some_iff.mp shown
  exact ⟨state, ran, facts, run_correct _ rfl twoFeedsSearch twoFeeds twoFeedsRun state ran⟩

end SysProg.GoPatterns.Feeds
