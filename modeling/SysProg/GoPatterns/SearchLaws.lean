import SysProg.Lib.Tally
import SysProg.GoPatterns.Search

/-! A search returns what has arrived, and none of its goroutines waits forever. -/

namespace SysProg.GoPatterns.Search

/-- How many rounds of the loop are behind `Submit`. -/
def SubmitPc.rounds (count : Nat) : SubmitPc → Nat
  | .range => 0
  | .loop search | .receive search => search
  | .returned => count

/-- How many slices `Submit` has received in so many rounds. -/
def received (first : Bool) (rounds : Nat) : Nat :=
  if first then min 1 rounds else rounds

/-- How many goroutines `Submit` has launched to discard results in so many rounds. -/
def discarding (first : Bool) (rounds : Nat) : Nat :=
  if first then rounds - 1 else 0

@[simp] theorem received_all (rounds : Nat) : received false rounds = rounds := rfl

@[simp] theorem received_first (rounds : Nat) : received true rounds = min 1 rounds := rfl

@[simp] theorem discarding_all (rounds : Nat) : discarding false rounds = 0 := rfl

@[simp] theorem discarding_first (rounds : Nat) : discarding true rounds = rounds - 1 := rfl

/-- How many slices a searcher has sent. -/
def SearcherPc.sent : SearcherPc → Nat
  | .ended => 1
  | _ => 0

/-- How many slices a goroutine waits for that discards one. -/
def DiscarderPc.waiting : DiscarderPc → Nat
  | .receive => 1
  | _ => 0

/-- How many slices a goroutine has received that discards one. -/
def DiscarderPc.discarded : DiscarderPc → Nat
  | .log | .ended => 1
  | _ => 0

variable {Searcher Result : Type*} [Fintype Searcher]

/-- How many rounds of the loop are over. -/
def State.rounds (state : State Searcher Result) : Nat :=
  state.submit.rounds (Fintype.card Searcher)

theorem State.rounds_loop {state : State Searcher Result} {search : Nat}
    (at_ : state.submit = .loop search) : state.rounds = search := by
  rw [State.rounds, at_, SubmitPc.rounds]

theorem State.rounds_receive {state : State Searcher Result} {search : Nat}
    (at_ : state.submit = .receive search) : state.rounds = search := by
  rw [State.rounds, at_, SubmitPc.rounds]

theorem State.rounds_returned {state : State Searcher Result} (at_ : state.submit = .returned) :
    state.rounds = Fintype.card Searcher := by
  rw [State.rounds, at_, SubmitPc.rounds]

variable [DecidableEq Searcher] {duration : Searcher → Nat} {slice : Searcher → List Result}
  {first : Bool} {state next : State Searcher Result}

/-- What holds at all times. -/
structure Invariant (slice : Searcher → List Result) (first : Bool)
    (state : State Searcher Result) : Prop where
  launched : state.submit ≠ .range → ∀ s, state.searchers s ≠ .notLaunched
  bound : state.rounds ≤ Fintype.card Searcher
  /-- `Submit` receives in every round, or in the first one only. -/
  receives : ∀ search, state.submit = .receive search →
    search < Fintype.card Searcher ∧ (first = true → search = 0)
  -- The goroutines that discard are launched in the order of the rounds.
  fresh : ∀ search, state.rounds ≤ search.val → state.discarders search = .notLaunched
  /-- Every searcher has sent one slice when it has ended. -/
  arrivals : ∀ s, state.arrivals.count s = (state.searchers s).sent
  total : tally DiscarderPc.waiting state.discarders +
    tally DiscarderPc.discarded state.discarders = discarding first state.rounds
  /-- What has arrived has been received by `Submit` or discarded. -/
  length : state.arrivals.length =
    received first state.rounds + tally DiscarderPc.discarded state.discarders
  -- `Submit` receives before anybody else does.
  used : state.used = state.arrivals.take (received first state.rounds)
  results : state.results = state.used.flatMap slice

/-- Nothing has happened at the start. -/
theorem invariant_initial : Invariant slice first (initial : State Searcher Result) where
  -- Nothing has been launched and nothing has arrived, so every sum is zero.
  launched := fun started => absurd rfl started
  bound := Nat.zero_le _
  receives := nofun
  fresh := fun _ _ => rfl
  arrivals := fun _ => rfl
  total := by
    have waiting : tally DiscarderPc.waiting (initial : State Searcher Result).discarders = 0 :=
      tally_eq_zero_iff.mpr fun _ => rfl
    have discarded : tally DiscarderPc.discarded
        (initial : State Searcher Result).discarders = 0 := tally_eq_zero_iff.mpr fun _ => rfl
    rw [waiting, discarded]
    cases first <;> rfl
  length := by
    have discarded : tally DiscarderPc.discarded
        (initial : State Searcher Result).discarders = 0 := tally_eq_zero_iff.mpr fun _ => rfl
    rw [discarded]
    cases first <;> rfl
  used := by cases first <;> rfl
  results := rfl

/-- `Submit` gets to another place in the same round. -/
theorem Invariant.submitAt (invariant : Invariant slice first state) {pc : SubmitPc}
    (launched : ∀ s, state.searchers s ≠ .notLaunched)
    (same : pc.rounds (Fintype.card Searcher) = state.rounds)
    (receives : ∀ search, pc = .receive search →
      search < Fintype.card Searcher ∧ (first = true → search = 0)) :
    Invariant slice first { state with submit := pc } where
  -- Submit changes its place only, and has received as many results at the new one.
  launched := fun _ => launched
  bound := same.trans_le invariant.bound
  receives := receives
  fresh := fun search later => invariant.fresh search (same.symm.trans_le later)
  arrivals := invariant.arrivals
  total := by
    show _ = discarding first (pc.rounds _)
    rw [same]
    exact invariant.total
  length := by
    show _ = received first (pc.rounds _) + _
    rw [same]
    exact invariant.length
  used := by
    show _ = state.arrivals.take (received first (pc.rounds _))
    rw [same]
    exact invariant.used
  results := invariant.results

/-- A goroutine that has been launched can be anywhere, the later ones are yet to be launched. -/
theorem Invariant.fresh_update (invariant : Invariant slice first state)
    {search : Fin (Fintype.card Searcher)} (launched : state.discarders search ≠ .notLaunched)
    (pc : DiscarderPc) : ∀ other, state.rounds ≤ other.val →
      Function.update state.discarders search pc other = .notLaunched := by
  -- The goroutines not launched are those of the rounds still to come, and this one is launched.
  intro other later
  have different : other ≠ search := by
    rintro rfl
    exact launched (invariant.fresh other later)
  rw [Function.update_of_ne different]
  exact invariant.fresh other later

/-- Only the goroutines that have been launched wait for a slice. -/
theorem Invariant.spawn (invariant : Invariant slice first state) {search : Nat}
    (at_ : state.submit = .loop search) (more : search < Fintype.card Searcher)
    (others : first = true ∧ search > 0) :
    Invariant slice first { state with
      submit := .loop (search + 1)
      discarders := Function.update state.discarders ⟨search, more⟩ .receive } := by
  have rounds := State.rounds_loop at_
  have fresh := invariant.fresh ⟨search, more⟩ rounds.le
  have total := invariant.total
  have length := invariant.length
  have waiting := tally_update DiscarderPc.waiting state.discarders ⟨search, more⟩ .receive
  have discarded := tally_update DiscarderPc.discarded state.discarders ⟨search, more⟩ .receive
  rw [fresh] at waiting discarded
  simp only [DiscarderPc.waiting, DiscarderPc.discarded] at waiting discarded
  -- Past the first search each one adds a discarder, and `Submit` itself receives no more.
  have kept : received first (search + 1) = received first search := by
    simp only [received, others.1, if_true]
    omega
  have one : discarding first (search + 1) = discarding first search + 1 := by
    simp only [discarding, others.1, if_true]
    omega
  rw [rounds] at total length
  exact {
    launched := fun _ => invariant.launched (by rw [at_]; exact nofun)
    bound := more
    receives := nofun
    fresh := by
      intro other later
      have different : other ≠ ⟨search, more⟩ := by
        rintro rfl
        exact absurd later (Nat.not_succ_le_self search)
      show Function.update _ _ _ _ = _
      rw [Function.update_of_ne different]
      exact invariant.fresh other (rounds.trans_le (Nat.le_of_succ_le later))
    arrivals := invariant.arrivals
    total := by
      show tally DiscarderPc.waiting (Function.update _ _ _) +
        tally DiscarderPc.discarded (Function.update _ _ _) = discarding first (search + 1)
      omega
    length := by
      show state.arrivals.length = received first (search + 1) +
        tally DiscarderPc.discarded (Function.update _ _ _)
      omega
    used := by
      show state.used = state.arrivals.take (received first (search + 1))
      rw [kept, ← rounds]
      exact invariant.used
    results := invariant.results }

/-- A step of `Submit` keeps the invariant. -/
theorem Invariant.submitStep (invariant : Invariant slice first state)
    (stepped : Search.submitStep first state = some next) : Invariant slice first next := by
  unfold Search.submitStep at stepped
  split at stepped
  next at_ =>
    split at stepped
    next all =>
      obtain rfl := Option.some.inj stepped
      exact invariant.submitAt all (by rw [State.rounds, at_]; rfl) nofun
    · exact nomatch stepped
  next search at_ =>
    have launched := invariant.launched (by rw [at_]; exact nofun)
    have rounds := State.rounds_loop at_
    split at stepped
    next more =>
      split at stepped
      next others =>
        obtain rfl := Option.some.inj stepped
        exact invariant.spawn at_ more others
      next only =>
        obtain rfl := Option.some.inj stepped
        refine invariant.submitAt launched rounds.symm fun other same => ?_
        obtain rfl := SubmitPc.receive.inj same
        exact ⟨more, fun one => Nat.eq_zero_of_not_pos fun positive => only ⟨one, positive⟩⟩
    next last =>
      -- All rounds are over.
      obtain rfl := Option.some.inj stepped
      have bound := invariant.bound
      refine invariant.submitAt launched ?_ nofun
      rw [SubmitPc.rounds]
      omega
  · exact nomatch stepped
  · exact nomatch stepped

/-- A searcher that goes on without sending keeps the invariant. -/
theorem Invariant.searcherAt (invariant : Invariant slice first state) {s : Searcher}
    {pc : SearcherPc} (onward : pc ≠ .notLaunched) (sent : pc.sent = (state.searchers s).sent) :
    Invariant slice first (state.searcherAt s pc) where
  -- The searcher has sent as much as before, so no result has arrived meanwhile.
  launched := by
    intro started
    apply (Function.forall_update_iff state.searchers fun _ pc => pc ≠ .notLaunched).mpr
    exact ⟨onward, fun other _ => invariant.launched started other⟩
  bound := invariant.bound
  receives := invariant.receives
  fresh := invariant.fresh
  arrivals := by
    apply (Function.forall_update_iff state.searchers
      fun other pc => state.arrivals.count other = pc.sent).mpr
    exact ⟨(invariant.arrivals s).trans sent.symm, fun other _ => invariant.arrivals other⟩
  total := invariant.total
  length := invariant.length
  used := invariant.used
  results := invariant.results

/-- What arrives from a searcher is counted once. -/
theorem Invariant.count_arrivals (invariant : Invariant slice first state) {s : Searcher}
    (sends : state.searchers s = .send) : ∀ other, (state.arrivals ++ [s]).count other =
      (Function.update state.searchers s .ended other).sent := by
  apply (Function.forall_update_iff state.searchers
    fun other pc => (state.arrivals ++ [s]).count other = pc.sent).mpr
  constructor
  · -- The searcher itself has not sent anything before.
    rw [List.count_append, invariant.arrivals s, sends]
    simp [SearcherPc.sent]
  · intro other different
    rw [List.count_append, invariant.arrivals other]
    simp [different.symm]

/-- A searcher that ends has been launched, like all others. -/
theorem Invariant.launched_update (invariant : Invariant slice first state)
    (started : state.submit ≠ .range) (s : Searcher) :
    ∀ other, Function.update state.searchers s .ended other ≠ .notLaunched := by
  apply (Function.forall_update_iff state.searchers fun _ pc => pc ≠ .notLaunched).mpr
  exact ⟨nofun, fun other _ => invariant.launched started other⟩

/-- What `Submit` receives keeps the invariant. -/
theorem Invariant.receive (invariant : Invariant slice first state) {s : Searcher}
    (stepped : Search.receive slice state s = some next) : Invariant slice first next := by
  unfold Search.receive at stepped
  split at stepped
  next search at_ sends =>
    obtain rfl := Option.some.inj stepped
    obtain ⟨more, only⟩ := invariant.receives search at_
    have rounds := State.rounds_receive at_
    have total := invariant.total
    have length := invariant.length
    have used := invariant.used
    rw [rounds] at total length used
    -- Nobody else has received anything.
    have nobody : discarding first search = 0 := by
      cases first with
      | false => rfl
      | true => simp [discarding, only rfl]
    have one : received first (search + 1) = received first search + 1 := by
      cases first with
      | false => rfl
      | true => simp [received, only rfl]
    have unchanged : discarding first (search + 1) = discarding first search := by
      cases first with
      | false => rfl
      | true => simp [discarding, only rfl]
    have all : state.arrivals.length = received first search := by omega
    exact {
      launched := fun _ => invariant.launched_update (by rw [at_]; exact nofun) s
      bound := more
      receives := nofun
      fresh := fun other later =>
        invariant.fresh other (rounds.trans_le (Nat.le_of_succ_le later))
      arrivals := invariant.count_arrivals sends
      total := by
        show tally DiscarderPc.waiting state.discarders +
          tally DiscarderPc.discarded state.discarders = discarding first (search + 1)
        omega
      length := by
        show (state.arrivals ++ [s]).length = received first (search + 1) +
          tally DiscarderPc.discarded state.discarders
        rw [List.length_append, List.length_singleton]
        omega
      used := by
        show state.used ++ [s] = (state.arrivals ++ [s]).take (received first (search + 1))
        rw [used, ← all, List.take_length, one, ← all, List.take_of_length_le (by simp)]
      results := by
        show state.results ++ slice s = (state.used ++ [s]).flatMap slice
        rw [invariant.results, List.flatMap_append, List.flatMap_singleton] }
  · exact nomatch stepped

/-- What is discarded keeps the invariant. -/
theorem Invariant.discard (invariant : Invariant slice first state) {s : Searcher}
    {search : Fin (Fintype.card Searcher)}
    (stepped : Search.discard state s search = some next) : Invariant slice first next := by
  unfold Search.discard at stepped
  split at stepped
  next ready =>
    obtain ⟨sends, waits⟩ := ready
    obtain rfl := Option.some.inj stepped
    have total := invariant.total
    have length := invariant.length
    have waiting := tally_update DiscarderPc.waiting state.discarders search .log
    have discarded := tally_update DiscarderPc.discarded state.discarders search .log
    rw [waits] at waiting discarded
    simp only [DiscarderPc.waiting, DiscarderPc.discarded] at waiting discarded
    have launched : state.discarders search ≠ .notLaunched := by rw [waits]; exact nofun
    -- Somebody has been launched to discard, so the loop is on.
    have started : state.submit ≠ .range := by
      intro at_
      have none_ : state.rounds = 0 := by rw [State.rounds, at_, SubmitPc.rounds]
      exact launched (invariant.fresh search (none_.trans_le (Nat.zero_le _)))
    exact {
      launched := fun _ => invariant.launched_update started s
      bound := invariant.bound
      receives := invariant.receives
      fresh := invariant.fresh_update launched .log
      arrivals := invariant.count_arrivals sends
      total := by
        show tally DiscarderPc.waiting (Function.update state.discarders search .log) +
          tally DiscarderPc.discarded (Function.update state.discarders search .log) =
            discarding first state.rounds
        omega
      length := by
        show (state.arrivals ++ [s]).length = received first state.rounds +
          tally DiscarderPc.discarded (Function.update state.discarders search .log)
        rw [List.length_append, List.length_singleton]
        omega
      used := by
        show state.used = (state.arrivals ++ [s]).take (received first state.rounds)
        rw [List.take_append_of_le_length (by omega)]
        exact invariant.used
      results := invariant.results }
  · exact nomatch stepped

/-- A goroutine that ends after discarding a result keeps the invariant. -/
theorem Invariant.logDiscarded (invariant : Invariant slice first state)
    {search : Fin (Fintype.card Searcher)}
    (stepped : Search.logDiscarded state search = some next) : Invariant slice first next := by
  unfold Search.logDiscarded at stepped
  split at stepped
  next logs =>
    obtain rfl := Option.some.inj stepped
    have total := invariant.total
    have length := invariant.length
    -- The goroutine that logs has received already: it is counted under what was discarded.
    have waiting := tally_update DiscarderPc.waiting state.discarders search .ended
    have discarded := tally_update DiscarderPc.discarded state.discarders search .ended
    rw [logs] at waiting discarded
    simp only [DiscarderPc.waiting, DiscarderPc.discarded] at waiting discarded
    exact {
      launched := invariant.launched
      bound := invariant.bound
      receives := invariant.receives
      fresh := invariant.fresh_update (by rw [logs]; exact nofun) .ended
      arrivals := invariant.arrivals
      total := by
        show tally DiscarderPc.waiting (Function.update _ _ _) +
          tally DiscarderPc.discarded (Function.update _ _ _) = discarding first state.rounds
        omega
      length := by
        show state.arrivals.length = received first state.rounds +
          tally DiscarderPc.discarded (Function.update _ _ _)
        omega
      used := invariant.used
      results := invariant.results }
  · exact nomatch stepped

/-- Every step keeps the invariant. -/
theorem Invariant.step (invariant : Invariant slice first state) {action : Action Searcher}
    (stepped : (machine duration slice first).step state action = some next) :
    Invariant slice first next := by
  -- One case for each action, by the lemma about the part that it moves.
  cases action with
  | submit => exact invariant.submitStep stepped
  | receive s => exact invariant.receive stepped
  | discard s search => exact invariant.discard stepped
  | log search => exact invariant.logDiscarded stepped
  | launch s =>
    simp only [machine, launch] at stepped
    split at stepped
    next ready =>
      obtain rfl := Option.some.inj stepped
      -- A searcher that is launched or that goes on searching has sent nothing yet.
      exact invariant.searcherAt nofun (by rw [ready.2]; rfl)
    · exact nomatch stepped
  | searcher s =>
    simp only [machine, searcherStep] at stepped
    split at stepped
    next at_ =>
      obtain rfl := Option.some.inj stepped
      exact invariant.searcherAt nofun (by rw [at_]; rfl)
    next steps at_ =>
      obtain rfl := Option.some.inj stepped
      exact invariant.searcherAt nofun (by rw [at_]; rfl)
    · exact nomatch stepped
    · exact nomatch stepped
    · exact nomatch stepped

/-- What holds after any number of steps. -/
theorem invariant_run {actions : List (Action Searcher)}
    (ran : (machine duration slice first).run initial actions = some state) :
    Invariant slice first state := by
  -- The invariant of a step, along the run.
  have preserved : ∀ state action next, Invariant slice first state →
      (machine duration slice first).step state action = some next →
        Invariant slice first next := by
    intro state action next before stepped
    exact before.step stepped
  exact Machine.run_invariant preserved invariant_initial ran

/-- As many slices have arrived as there are searchers that have ended. -/
theorem Invariant.length_eq_tally (invariant : Invariant slice first state) :
    state.arrivals.length = tally SearcherPc.sent state.searchers := by
  -- The arrivals are counted by the searcher from whom they are.
  have counts : ∑ s, (state.arrivals : Multiset Searcher).count s = state.arrivals.length :=
    Multiset.sum_count_eq_card fun s _ => Finset.mem_univ s
  rw [← counts]
  refine Finset.sum_congr rfl fun s _ => ?_
  rw [Multiset.coe_count, invariant.arrivals s]

/-- The searcher has ended, or it has not sent anything. -/
theorem SearcherPc.ended_or_sent (pc : SearcherPc) : pc = .ended ∨ pc.sent = 0 := by
  cases pc with
  | ended => exact .inl rfl
  | notLaunched | searching | send => exact .inr rfl

/-- If fewer slices have arrived than there are searchers, one of them has not ended. -/
theorem Invariant.exists_unended (invariant : Invariant slice first state)
    (fewer : state.arrivals.length < Fintype.card Searcher) :
    ∃ s, state.searchers s ≠ .ended := by
  -- If all had ended, all their results would have arrived.
  by_contra all
  have ended : ∀ s, (state.searchers s).sent = 1 := by
    intro s
    rw [Classical.not_not.mp (not_exists.mp all s)]
    rfl
  have length := invariant.length_eq_tally
  rw [tally_eq_card ended] at length
  omega

/-- If some searcher has not ended, fewer slices have arrived than there are searchers. -/
theorem Invariant.length_lt (invariant : Invariant slice first state) {s : Searcher}
    (unended : state.searchers s ≠ .ended) :
    state.arrivals.length < Fintype.card Searcher := by
  have each : ∀ s, (state.searchers s).sent ≤ 1 := by
    intro s
    cases state.searchers s <;> simp [SearcherPc.sent]
  -- If it ended now, it would count for one more.
  have moved := tally_update SearcherPc.sent state.searchers s .ended
  have most : tally SearcherPc.sent (Function.update state.searchers s .ended) ≤
      Fintype.card Searcher := by
    refine tally_le_card fun other => ?_
    by_cases same : other = s
    · subst same
      rw [Function.update_self]
      rfl
    · rw [Function.update_of_ne same]
      exact each other
  have zero := (state.searchers s).ended_or_sent.resolve_left unended
  rw [invariant.length_eq_tally]
  have one : SearcherPc.ended.sent = 1 := rfl
  omega

/-- How many steps the longest search takes. -/
def longest (duration : Searcher → Nat) : Nat :=
  Finset.univ.sup duration

/-- How many steps `Submit` has to go, with two for each goroutine that it is yet to launch. -/
def SubmitPc.toGo (count : Nat) : SubmitPc → Nat
  | .range => 4 * count + 2
  | .loop search => 4 * (count - search) + 1
  | .receive search => 4 * (count - search)
  | .returned => 0

/-- How many steps a searcher has to go at most. -/
def SearcherPc.toGo (longest : Nat) : SearcherPc → Nat
  | .notLaunched => longest + 3
  | .searching steps => steps + 2
  | .send => 1
  | .ended => 0

/-- How many steps a goroutine that discards a slice has to go, once it has been launched. -/
def DiscarderPc.toGo : DiscarderPc → Nat
  | .receive => 2
  | .log => 1
  | .notLaunched | .ended => 0

/-- How many steps there are to go at most. -/
def State.toGo (duration : Searcher → Nat) (state : State Searcher Result) : Nat :=
  state.submit.toGo (Fintype.card Searcher) +
    tally (SearcherPc.toGo (longest duration)) state.searchers +
      tally DiscarderPc.toGo state.discarders

/-- Every step leaves fewer steps to go. -/
theorem Invariant.toGo_step (invariant : Invariant slice first state) {action : Action Searcher}
    (stepped : (machine duration slice first).step state action = some next) :
    next.toGo duration < state.toGo duration := by
  cases action with
  | submit =>
    simp only [machine, Search.submitStep] at stepped
    split at stepped
    next at_ =>
      split at stepped
      · obtain rfl := Option.some.inj stepped
        simp only [State.toGo, at_, SubmitPc.toGo]
        omega
      · cases stepped
    next search at_ =>
      split at stepped
      next more =>
        split at stepped
        · -- The goroutine that is launched costs less than the round it takes the place of.
          obtain rfl := Option.some.inj stepped
          have rounds := State.rounds_loop at_
          have fresh := invariant.fresh ⟨search, more⟩ rounds.le
          have moved := tally_update DiscarderPc.toGo state.discarders ⟨search, more⟩ .receive
          rw [fresh] at moved
          simp only [State.toGo, at_, SubmitPc.toGo, DiscarderPc.toGo] at moved ⊢
          omega
        · obtain rfl := Option.some.inj stepped
          simp only [State.toGo, at_, SubmitPc.toGo]
          omega
      · obtain rfl := Option.some.inj stepped
        simp only [State.toGo, at_, SubmitPc.toGo]
        omega
    · cases stepped
    · cases stepped
  | launch s =>
    simp only [machine, Search.launch] at stepped
    split at stepped
    next ready =>
      obtain rfl := Option.some.inj stepped
      -- The search has as many steps to go as it takes, at most the longest.
      have within : duration s ≤ longest duration := Finset.le_sup (Finset.mem_univ s)
      have moved := tally_update (SearcherPc.toGo (longest duration)) state.searchers s
        (.searching (duration s))
      rw [ready.2] at moved
      simp only [State.toGo, State.searcherAt, SearcherPc.toGo] at moved ⊢
      omega
    · cases stepped
  | searcher s =>
    simp only [machine, Search.searcherStep] at stepped
    split at stepped
    next at_ =>
      obtain rfl := Option.some.inj stepped
      have moved := tally_update (SearcherPc.toGo (longest duration)) state.searchers s .send
      rw [at_] at moved
      simp only [State.toGo, State.searcherAt, SearcherPc.toGo] at moved ⊢
      omega
    next steps at_ =>
      obtain rfl := Option.some.inj stepped
      have moved := tally_update (SearcherPc.toGo (longest duration)) state.searchers s
        (.searching steps)
      rw [at_] at moved
      simp only [State.toGo, State.searcherAt, SearcherPc.toGo] at moved ⊢
      omega
    · cases stepped
    · cases stepped
    · cases stepped
  | receive s =>
    simp only [machine, Search.receive] at stepped
    split at stepped
    next search at_ sends =>
      obtain rfl := Option.some.inj stepped
      have more := (invariant.receives search at_).1
      have moved := tally_update (SearcherPc.toGo (longest duration)) state.searchers s .ended
      rw [sends] at moved
      simp only [State.toGo, State.searcherAt, at_, SubmitPc.toGo, SearcherPc.toGo] at moved ⊢
      omega
    · cases stepped
  | discard s search =>
    simp only [machine, Search.discard] at stepped
    split at stepped
    next ready =>
      obtain rfl := Option.some.inj stepped
      have sent := tally_update (SearcherPc.toGo (longest duration)) state.searchers s .ended
      have taken := tally_update DiscarderPc.toGo state.discarders search .log
      rw [ready.1] at sent
      rw [ready.2] at taken
      simp only [State.toGo, State.searcherAt, State.discarderAt, SearcherPc.toGo,
        DiscarderPc.toGo] at sent taken ⊢
      omega
    · cases stepped
  | log search =>
    simp only [machine, Search.logDiscarded] at stepped
    split at stepped
    next logs =>
      obtain rfl := Option.some.inj stepped
      have moved := tally_update DiscarderPc.toGo state.discarders search .ended
      rw [logs] at moved
      simp only [State.toGo, State.discarderAt, DiscarderPc.toGo] at moved ⊢
      omega
    · cases stepped

/-- `Submit` has returned, and no goroutine that it has launched is left. -/
def State.Done (state : State Searcher Result) : Prop :=
  state.submit = .returned ∧ (∀ s, state.searchers s = .ended) ∧
    ∀ search, state.discarders search = .notLaunched ∨ state.discarders search = .ended

/-- A searcher that has been launched ends, sends or goes on. -/
theorem searcher_goesOn {s : Searcher} (launched : state.searchers s ≠ .notLaunched)
    (unended : state.searchers s ≠ .ended) :
    state.searchers s = .send ∨ (searcherStep state s).isSome := by
  -- A searcher that searches goes on by itself; one that sends waits for a receiver.
  cases at_ : state.searchers s with
  | notLaunched => exact absurd at_ launched
  | ended => exact absurd at_ unended
  | send => exact .inl rfl
  | searching steps =>
    right
    cases steps with
    | zero => simp [searcherStep, at_]
    | succ steps => simp [searcherStep, at_]

/-- If some searcher sends after `Submit` has returned, a goroutine waits to discard that. -/
theorem Invariant.exists_waiting (invariant : Invariant slice first state)
    (returned : state.submit = .returned) {s : Searcher} (unended : state.searchers s ≠ .ended) :
    ∃ search, state.discarders search = .receive := by
  have rounds := State.rounds_returned returned
  have total := invariant.total
  have length := invariant.length
  have fewer := invariant.length_lt unended
  rw [rounds] at total length
  have waits : 0 < tally DiscarderPc.waiting state.discarders := by
    cases first with
    | false =>
      -- `Submit` has received as many slices as there are searchers.
      rw [received_all] at length
      omega
    | true =>
      rw [received_first] at length
      rw [discarding_first] at total
      omega
  obtain ⟨search, weighs⟩ := exists_of_tally_pos waits
  refine ⟨search, ?_⟩
  cases at_ : state.discarders search with
  | receive => rfl
  | notLaunched | log | ended =>
    rw [at_] at weighs
    exact nomatch weighs

/-- If all searchers have ended, nobody waits to discard anything. -/
theorem Invariant.not_waiting (invariant : Invariant slice first state)
    (returned : state.submit = .returned) (ended : ∀ s, state.searchers s = .ended)
    (search : Fin (Fintype.card Searcher)) : state.discarders search ≠ .receive := by
  intro waits
  have rounds := State.rounds_returned returned
  have total := invariant.total
  have length := invariant.length
  have weighs := le_tally DiscarderPc.waiting state.discarders search
  -- All searchers have sent, so all results have arrived.
  have sent : ∀ s, (state.searchers s).sent = 1 := by
    intro s
    rw [ended s]
    rfl
  rw [rounds] at total length
  rw [waits] at weighs
  rw [invariant.length_eq_tally, tally_eq_card sent] at length
  simp only [DiscarderPc.waiting] at weighs
  have positive := search.pos
  -- A goroutine that waits would be one too many for the results that are left.
  cases first with
  | false =>
    rw [discarding_all] at total
    omega
  | true =>
    rw [received_first] at length
    rw [discarding_first] at total
    omega

/-- Until everything is done, some goroutine can go on. -/
theorem Invariant.alive (invariant : Invariant slice first state) (more : ¬ state.Done) :
    ∃ action next, (machine duration slice first).step state action = some next := by
  cases at_ : state.submit with
  | range =>
    by_cases all : ∀ s, state.searchers s ≠ .notLaunched
    · apply Machine.exists_step .submit
      simp [machine, Search.submitStep, at_, all]
    · obtain ⟨s, fresh⟩ := not_forall.mp all
      apply Machine.exists_step (.launch s)
      simp [machine, Search.launch, at_, Classical.not_not.mp fresh]
  | loop search =>
    apply Machine.exists_step .submit
    simp only [machine, Search.submitStep, at_]
    split
    · split <;> rfl
    · rfl
  | receive search =>
    -- Somebody has yet to send, since nothing has arrived but what `Submit` has received.
    obtain ⟨within, only⟩ := invariant.receives search at_
    have rounds := State.rounds_receive at_
    have total := invariant.total
    have length := invariant.length
    rw [rounds] at total length
    have fewer : state.arrivals.length < Fintype.card Searcher := by
      cases first with
      | false =>
        rw [received_all] at length
        rw [discarding_all] at total
        omega
      | true =>
        rw [received_first, only rfl] at length
        rw [discarding_first, only rfl] at total
        omega
    obtain ⟨s, unended⟩ := invariant.exists_unended fewer
    have launched := invariant.launched (by rw [at_]; exact nofun) s
    rcases searcher_goesOn launched unended with sends | able
    · apply Machine.exists_step (.receive s)
      simp [machine, Search.receive, at_, sends]
    · exact Machine.exists_step (.searcher s) able
  | returned =>
    by_cases ended : ∀ s, state.searchers s = .ended
    · -- Only a goroutine can be left that has received a slice and discards it.
      have left : ¬ ∀ search, state.discarders search = .notLaunched ∨
          state.discarders search = .ended := fun none_ => more ⟨at_, ended, none_⟩
      obtain ⟨search, busy⟩ := not_forall.mp left
      apply Machine.exists_step (.log search)
      have notWaiting := invariant.not_waiting at_ ended search
      cases here : state.discarders search with
      | log => simp [machine, Search.logDiscarded, here]
      | notLaunched => exact absurd (.inl here) busy
      | ended => exact absurd (.inr here) busy
      | receive => exact absurd here notWaiting
    · obtain ⟨s, unended⟩ := not_forall.mp ended
      have launched := invariant.launched (by rw [at_]; exact nofun) s
      rcases searcher_goesOn launched unended with sends | able
      · obtain ⟨search, waits⟩ := invariant.exists_waiting at_ unended
        apply Machine.exists_step (.discard s search)
        simp [machine, Search.discard, sends, waits]
      · exact Machine.exists_step (.searcher s) able

/-- What is promised of `Submit` and of its goroutines after so many steps. -/
structure Correct (duration : Searcher → Nat) (slice : Searcher → List Result) (first : Bool)
    (state : State Searcher Result) (steps : Nat) : Prop where
  /-- Every slice is received once at most. -/
  once : state.arrivals.Nodup
  /-- All slices are returned in the order in which they have arrived. -/
  all : first = false → state.submit = .returned →
    state.results = state.arrivals.flatMap slice ∧ ∀ s, state.arrivals.count s = 1
  /-- The first slice is returned, which `Submit` has received. -/
  only : first = true → 0 < Fintype.card Searcher → state.submit = .returned →
    ∃ s later, state.used = [s] ∧ state.arrivals = s :: later ∧ state.results = slice s
  /-- Nobody waits forever, since some step is possible, and there are only so many. -/
  alive : ¬ state.Done →
    ∃ action next, (machine duration slice first).step state action = some next
  bounded : steps ≤ (initial : State Searcher Result).toGo duration

/-- Without `OnlyFirst`, every searcher has sent its slice when `Submit` returns. -/
theorem Invariant.all (invariant : Invariant slice false state)
    (returned : state.submit = .returned) :
    state.results = state.arrivals.flatMap slice ∧ ∀ s, state.arrivals.count s = 1 := by
  -- Submit has returned, so it has received one result for each searcher.
  have rounds := State.rounds_returned returned
  have length := invariant.length
  have total := invariant.total
  have used := invariant.used
  rw [rounds, received_all] at length used
  rw [discarding_all] at total
  constructor
  · rw [invariant.results, used, List.take_of_length_le (by omega)]
  · intro s
    -- A searcher that had not ended would be missing among the arrivals.
    have ended : state.searchers s = .ended := by
      by_contra unended
      have fewer := invariant.length_lt unended
      omega
    rw [invariant.arrivals s, ended]
    rfl

/-- With `OnlyFirst`, `Submit` returns what arrives first. -/
theorem Invariant.only (invariant : Invariant slice true state)
    (some_ : 0 < Fintype.card Searcher) (returned : state.submit = .returned) :
    ∃ s later, state.used = [s] ∧ state.arrivals = s :: later ∧ state.results = slice s := by
  have rounds := State.rounds_returned returned
  have length := invariant.length
  have used := invariant.used
  -- The first round receives, and no other does.
  have one : min 1 (Fintype.card Searcher) = 1 := by omega
  rw [rounds, received_first, one] at length used
  cases arrived : state.arrivals with
  | nil =>
    rw [arrived, List.length_nil] at length
    omega
  | cons s later =>
    rw [arrived, List.take_succ_cons, List.take_zero] at used
    refine ⟨s, later, used, rfl, ?_⟩
    rw [invariant.results, used, List.flatMap_singleton]

/-- All slices or the first one are returned, and all goroutines come to an end. -/
theorem machine_correct {actions : List (Action Searcher)}
    (ran : (machine duration slice first).run initial actions = some state) :
    Correct duration slice first state actions.length := by
  have invariant := invariant_run ran
  have preserved : ∀ state action next, Invariant slice first state →
      (machine duration slice first).step state action = some next →
        Invariant slice first next := by
    intro state action next before stepped
    exact before.step stepped
  -- Each step costs one, so there are no more steps than there are to go at the start.
  have lowered : ∀ state action next, Invariant slice first state →
      (machine duration slice first).step state action = some next →
        next.toGo duration < state.toGo duration := by
    intro state action next before stepped
    exact before.toGo_step stepped
  have paid : actions.length + state.toGo duration ≤
      (initial : State Searcher Result).toGo duration :=
    Machine.run_length_le preserved lowered invariant_initial ran
  exact {
    once := by
      refine List.nodup_iff_count_le_one.mpr fun s => ?_
      rw [invariant.arrivals s]
      cases state.searchers s <;> simp [SearcherPc.sent]
    all := by
      intro whole returned
      rw [whole] at invariant
      exact invariant.all returned
    only := by
      intro one some_ returned
      rw [one] at invariant
      exact invariant.only some_ returned
    alive := invariant.alive
    bounded := by omega }

/-- `Submit` returns all slices or the first one, whatever the options select. -/
theorem submit_correct (duration : String → Nat) (slice : String → List Result)
    (options : List (SearchSession → SearchSession))
    (actions : List (Action (session options).Selected))
    (state : State (session options).Selected Result)
    (ran : (submit duration slice options).run initial actions = some state) :
    Correct (fun s : (session options).Selected => duration s.val) (fun s => slice s.val)
      (session options).first state actions.length :=
  machine_correct ran

/-- Google and Bing are asked, and Bing is first. -/
def bingFirst : List (Action (session [onlyFirst, google, bing]).Selected) :=
  let google_ := ⟨"google", by decide⟩
  let bing_ := ⟨"bing", by decide⟩
  [.launch google_, .launch bing_, .submit, .submit, .searcher google_, .searcher bing_,
    .receive bing_, .submit, .submit, .discard google_ ⟨1, by decide⟩, .log ⟨1, by decide⟩]

/-- What Bing has found is returned, and what Google has found is discarded. -/
theorem submit_correct_bingFirst :
    ∃ state, (submit (fun _ => 0) (fun s => [s.length]) [onlyFirst, google, bing]).run initial
        bingFirst = some state ∧ (state.submit, state.results) = (.returned, [4]) ∧
      Correct (fun _ : (session [onlyFirst, google, bing]).Selected => 0)
        (fun s => [s.val.length]) true state bingFirst.length := by
  -- The first result is that of bing, and google's is discarded.
  have shown : ((submit (fun _ => 0) (fun s => [s.length]) [onlyFirst, google, bing]).run initial
      bingFirst).map (fun state => (state.submit, state.results)) =
        some (.returned, [4]) := by decide +kernel
  obtain ⟨state, ran, facts⟩ := Option.map_eq_some_iff.mp shown
  exact ⟨state, ran, facts, submit_correct _ _ [onlyFirst, google, bing] bingFirst state ran⟩

end SysProg.GoPatterns.Search
