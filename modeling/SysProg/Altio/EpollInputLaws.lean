import SysProg.Altio.EpollInput

/-! All input is read before the descriptors are closed, each of which is closed once. -/

namespace SysProg.Altio.EpollInput

variable {fds fifos : Nat} {file : Fin fds → Fin fifos} {room : Nat}
  {inputs : Fin fifos → List UInt8} {later : Fin fifos → List (List UInt8)}
  {state next : State fds fifos} {index : Fin fifos} {fd : Fin fds} {fifo : Fifo}
  {rest : List (Fin fds × Bool)}

/-- Nobody has the FIFO open for writing, and all that has been written has been read. -/
def Fifo.Over (fifo : Fifo) : Prop := fifo.writing = none ∧ fifo.buffer = []

/-- What has not been read from a FIFO yet. -/
def Fifo.content (fifo : Fifo) : List UInt8 :=
  fifo.buffer ++ (fifo.writing.getD [] ++ fifo.later.flatten)

/-- The entries of `evlist` that have not been dealt with. -/
def State.events (state : State fds fifos) : List (Fin fds × Bool) :=
  match state.pc with
  | .handling evlist => evlist
  | _ => []

/-- How many of the descriptors are open. -/
def State.openFds (state : State fds fifos) : Nat :=
  tally (fun isOpen => if isOpen then 1 else 0) state.isOpen

/-- What each step does, and when it can be taken. -/
inductive Steps (file : Fin fds → Fin fifos) (state : State fds fifos) :
    Action fds fifos → State fds fifos → Prop
  | write {index : Fin fifos} {count : Nat} {bytes : List UInt8}
    (writing : (state.fifos index).writing = some bytes) (some_ : 0 < count)
    (there : count ≤ bytes.length) :
    Steps file state (.write index count) (state.fifoAt index { state.fifos index with
      buffer := (state.fifos index).buffer ++ bytes.take count
      writing := some (bytes.drop count) })
  | hangUp {index : Fin fifos} (writing : (state.fifos index).writing = some []) :
    Steps file state (.hangUp index)
      (state.fifoAt index { state.fifos index with writing := none })
  | reopen {index : Fin fifos} {bytes : List UInt8} {others : List (List UInt8)}
    (writing : (state.fifos index).writing = none)
    (first : (state.fifos index).later = bytes :: others) :
    Steps file state (.reopen index)
      (state.fifoAt index { state.fifos index with writing := some bytes, later := others })
  | wait {ready : List (Fin fds)} (waits : state.pc = .waiting) (some_ : ready ≠ [])
    (few : ready.length ≤ maxEvents) (once : ready.Nodup)
    (all : ∀ fd ∈ ready, state.isOpen fd = true ∧
      ((state.fifos (file fd)).epollin || (state.fifos (file fd)).epollhup) = true) :
    Steps file state (.wait ready)
      { state with pc := .handling (ready.map fun fd => (fd, (state.fifos (file fd)).epollin)) }
  | interrupted (waits : state.pc = .waiting) : Steps file state .interrupted state
  | read {fd : Fin fds} {rest : List (Fin fds × Bool)}
    (here : state.pc = .handling ((fd, true) :: rest)) :
    Steps file state .handle ((state.fifoAt (file fd) { state.fifos (file fd) with
      buffer := (state.fifos (file fd)).buffer.drop maxBuf }).after rest
        (.read fd ((state.fifos (file fd)).buffer.take maxBuf)))
  | close {fd : Fin fds} {rest : List (Fin fds × Bool)}
    (here : state.pc = .handling ((fd, false) :: rest)) :
    Steps file state .handle ({ state with
      isOpen := Function.update state.isOpen fd false
      numOpenFds := state.numOpenFds - 1 }.after rest (.closing fd))
  | exit (waits : state.pc = .waiting) (none_ : ¬ 0 < state.numOpenFds) :
    Steps file state .exit { state with pc := .exited }

theorem steps_of_step {action : Action fds fifos}
    (stepped : (machine file room).step state action = some next) :
    Steps file state action next := by
  -- For each action, the step is made exactly under the conditions of its rule.
  cases action with
  | write index count =>
    simp only [machine, step] at stepped
    split at stepped
    next bytes writing =>
      split at stepped
      next able =>
        obtain rfl := Option.some.inj stepped
        exact .write writing able.1 able.2.1
      · simp at stepped
    · simp at stepped
  | hangUp index =>
    simp only [machine, step] at stepped
    split at stepped
    next writing =>
      obtain rfl := Option.some.inj stepped
      exact .hangUp writing
    · simp at stepped
  | reopen index =>
    simp only [machine, step] at stepped
    split at stepped
    next bytes others writing first =>
      split at stepped
      · obtain rfl := Option.some.inj stepped
        exact .reopen writing first
      · simp at stepped
    · simp at stepped
  | wait ready =>
    simp only [machine, step] at stepped
    split at stepped
    next able =>
      obtain rfl := Option.some.inj stepped
      exact .wait able.1 able.2.2.1 able.2.2.2.1 able.2.2.2.2.1 able.2.2.2.2.2
    · simp at stepped
  | interrupted =>
    simp only [machine, step] at stepped
    split at stepped
    next able =>
      obtain rfl := Option.some.inj stepped
      exact .interrupted able.1
    · simp at stepped
  | handle =>
    simp only [machine, step, handleStep] at stepped
    split at stepped
    next fd rest here =>
      split at stepped
      · simp at stepped
      · obtain rfl := Option.some.inj stepped
        exact .read here
    next fd rest here =>
      obtain rfl := Option.some.inj stepped
      exact .close here
    · simp at stepped
  | exit =>
    simp only [machine, step] at stepped
    split at stepped
    next able =>
      obtain rfl := Option.some.inj stepped
      exact .exit able.1 able.2
    · simp at stepped

section Input

/-- What is true of the input in every state. -/
structure Invariant (file : Fin fds → Fin fifos) (inputs : Fin fifos → List UInt8)
    (later : Fin fifos → List (List UInt8)) (state : State fds fifos) : Prop where
  balance : state.numOpenFds = state.openFds
  counted : ∀ fd, state.output.count (.closing fd) = if state.isOpen fd then 0 else 1
  /-- Nothing is lost or read twice. -/
  account : ∀ index, state.taken file index ++ (state.fifos index).content =
    inputs index ++ (later index).flatten
  settled : ∀ index, later index = [] → (state.fifos index).later = []
  /-- A FIFO that nobody opens again is over when one of its descriptors has been closed. -/
  closed : ∀ fd, state.isOpen fd = false → later (file fd) = [] → (state.fifos (file fd)).Over
  once : (state.events.map Prod.fst).Nodup
  opened : ∀ entry ∈ state.events, state.isOpen entry.1 = true
  /-- Nor is there anything left when an event without `EPOLLIN` has been reported. -/
  hungUp : ∀ fd, (fd, false) ∈ state.events → later (file fd) = [] →
    (state.fifos (file fd)).Over
  some_ : ∀ evlist, state.pc = .handling evlist → evlist ≠ []
  ended : state.pc = .exited → ¬ 0 < state.numOpenFds

theorem invariant_initial : Invariant file inputs later (initial fds inputs later) where
  balance := by
    -- Every file descriptor is open.
    have all : tally (fun isOpen => if isOpen then 1 else 0) (fun _ : Fin fds => true) = fds :=
      (tally_eq_card fun _ => rfl).trans (Fintype.card_fin fds)
    show (fds : Int) = (tally _ _ : Nat)
    exact congrArg Nat.cast all.symm
  counted _ := rfl
  account _ := rfl
  settled _ quiet := quiet
  closed _ shut := nomatch shut
  once := List.nodup_nil
  opened _ mem := absurd mem List.not_mem_nil
  hungUp _ mem := absurd mem List.not_mem_nil
  some_ := nofun
  ended := nofun

/-- A FIFO that is over stays so when another one changes, or this one does not come to life. -/
theorem over_fifoAt (stays : (state.fifos index).Over → fifo.Over) {other : Fin fifos}
    (over_ : (state.fifos other).Over) : ((state.fifoAt index fifo).fifos other).Over := by
  show (Function.update state.fifos index fifo other).Over
  -- The FIFO at the index stays over by assumption, and the others are untouched.
  by_cases same : other = index
  · rw [same, Function.update_self]
    exact stays (same ▸ over_)
  · rw [Function.update_of_ne same]
    exact over_

/-- What is in the FIFOs, when one of them has changed. -/
theorem content_fifoAt (same : fifo.content = (state.fifos index).content) (other : Fin fifos) :
    ((state.fifoAt index fifo).fifos other).content = (state.fifos other).content := by
  show (Function.update state.fifos index fifo other).content = _
  -- The FIFO at the index has the same content, and the others are untouched.
  by_cases here : other = index
  · rw [here, Function.update_self, same]
  · rw [Function.update_of_ne here]

/-- Those who write to a FIFO keep what is true, if they do not open it again. -/
theorem Invariant.fifoAt (invariant : Invariant file inputs later state)
    (same : fifo.content = (state.fifos index).content)
    (stays : later index = [] → (state.fifos index).Over → fifo.Over)
    (quiet : later index = [] → fifo.later = []) :
    Invariant file inputs later (state.fifoAt index fifo) := by
  -- Only this FIFO changes, and one that is over stays so.
  have over_ : ∀ other, later other = [] → (state.fifos other).Over →
      ((state.fifoAt index fifo).fifos other).Over := by
    intro other none_ ended
    by_cases here : other = index
    · subst here
      exact over_fifoAt (stays none_) ended
    · show (Function.update state.fifos index fifo other).Over
      rw [Function.update_of_ne here]
      exact ended
  refine ⟨invariant.balance, invariant.counted, fun other => ?_, fun other none_ => ?_,
    fun fd shut none_ => over_ _ none_ (invariant.closed fd shut none_), invariant.once,
    invariant.opened, fun fd mem none_ => over_ _ none_ (invariant.hungUp fd mem none_),
    invariant.some_, invariant.ended⟩
  · rw [content_fifoAt same]
    exact invariant.account other
  · show (Function.update state.fifos index fifo other).later = []
    by_cases here : other = index
    · subst here
      rw [Function.update_self]
      exact quiet none_
    · rw [Function.update_of_ne here]
      exact invariant.settled other none_

/-- The entries that are left after one has been dealt with. -/
theorem events_after (line : Line fds) : (state.after rest line).events = rest := by
  unfold State.events State.after
  -- Without further events the loop ends, and there are none.
  by_cases none_ : rest = []
  · simp [none_]
  · simp [none_]

/-- What has been read, with one more line of output. -/
theorem taken_after (line : Line fds) : (state.after rest line).taken file index =
    state.taken file index ++ match line with
      | .read fd bytes => if file fd = index then bytes else []
      | .closing _ => [] := by
  -- What was taken out of a FIFO is what was printed of it, the new line included.
  show List.flatMap _ (state.output ++ [line]) = _
  rw [List.flatMap_append, List.flatMap_singleton]
  rfl

/-- After an entry has been dealt with, the loop goes on, and does not exit. -/
theorem pc_after (line : Line fds) : (state.after rest line).pc ≠ .exited ∧
    ∀ evlist, (state.after rest line).pc = .handling evlist → evlist ≠ [] := by
  -- The loop over the events goes on while there are any, and then epoll_wait() is called again.
  unfold State.after
  by_cases none_ : rest = []
  · simp [none_]
  · simp only [none_, if_false]
    refine ⟨nofun, fun evlist same => ?_⟩
    obtain rfl := Pc.handling.inj same
    exact none_

/-- A part of what is in a FIFO is read. -/
theorem Invariant.read (invariant : Invariant file inputs later state)
    (here : state.pc = .handling ((fd, true) :: rest)) :
    Invariant file inputs later ((state.fifoAt (file fd) { state.fifos (file fd) with
      buffer := (state.fifos (file fd)).buffer.drop maxBuf }).after rest
        (.read fd ((state.fifos (file fd)).buffer.take maxBuf))) := by
  have events : state.events = (fd, true) :: rest := by rw [State.events, here]
  have once := invariant.once
  have opened := invariant.opened
  have hungUp := invariant.hungUp
  rw [events] at once opened hungUp
  have stays : (state.fifos (file fd)).Over →
      Fifo.Over { state.fifos (file fd) with
        buffer := (state.fifos (file fd)).buffer.drop maxBuf } :=
    fun over_ => ⟨over_.1, by rw [over_.2, List.drop_nil]⟩
  have going := @pc_after _ _ (state.fifoAt (file fd) { state.fifos (file fd) with
    buffer := (state.fifos (file fd)).buffer.drop maxBuf }) rest
    (.read fd ((state.fifos (file fd)).buffer.take maxBuf))
  refine ⟨invariant.balance, fun other => ?_, fun index => ?_, fun index none_ => ?_,
    fun other shut none_ => over_fifoAt stays (invariant.closed other shut none_), ?_, ?_, ?_,
    going.2, fun ended => absurd ended going.1⟩
  · show (state.output ++ [_]).count _ = _
    rw [List.count_append, List.count_singleton, invariant.counted]
    rfl
  · rw [taken_after, ← invariant.account index]
    show state.taken file index ++ (if file fd = index then _ else _) ++
      (Function.update state.fifos (file fd) _ index).content = _
    by_cases same : file fd = index
    · -- What has been taken out of the buffer comes before what is left in it.
      subst same
      rw [if_pos rfl, Function.update_self]
      simp only [Fifo.content]
      rw [List.append_assoc, ← List.append_assoc (List.take maxBuf _), List.take_append_drop]
    · rw [if_neg same, Function.update_of_ne (Ne.symm same), List.append_nil]
  · show (Function.update state.fifos (file fd) _ index).later = []
    by_cases same : index = file fd
    · subst same
      rw [Function.update_self]
      exact invariant.settled _ none_
    · rw [Function.update_of_ne same]
      exact invariant.settled index none_
  · rw [events_after]
    exact (List.nodup_cons.mp once).2
  · rw [events_after]
    exact fun entry mem => opened entry (List.mem_cons_of_mem _ mem)
  · rw [events_after]
    exact fun other mem none_ =>
      over_fifoAt stays (hungUp other (List.mem_cons_of_mem _ mem) none_)

/-- A descriptor is closed when its FIFO is over. -/
theorem Invariant.close (invariant : Invariant file inputs later state)
    (here : state.pc = .handling ((fd, false) :: rest)) :
    Invariant file inputs later ({ state with
      isOpen := Function.update state.isOpen fd false
      numOpenFds := state.numOpenFds - 1 }.after rest (.closing fd)) := by
  -- The event at hand is the first of the list, and its descriptor is open.
  have events : state.events = (fd, false) :: rest := by rw [State.events, here]
  have once := invariant.once
  have opened := invariant.opened
  have hungUp := invariant.hungUp
  rw [events] at once opened hungUp
  have there : state.isOpen fd = true := opened _ List.mem_cons_self
  -- One descriptor less is open, as the counter says.
  have total := tally_update (fun isOpen => if isOpen then 1 else 0) state.isOpen fd false
  have going := @pc_after _ _ { state with
    isOpen := Function.update state.isOpen fd false
    numOpenFds := state.numOpenFds - 1 } rest (.closing fd)
  refine ⟨?_, fun other => ?_, fun index => ?_, invariant.settled, fun other shut none_ => ?_, ?_,
    ?_, ?_, going.2, fun ended => absurd ended going.1⟩
  · show state.numOpenFds - 1 =
      (tally (fun isOpen => if isOpen then 1 else 0) (Function.update state.isOpen fd false) : Nat)
    rw [invariant.balance, State.openFds]
    simp only [there, if_true] at total
    simp only [Bool.false_eq_true, if_false] at total
    omega
  · show (state.output ++ [_]).count _ =
      if Function.update state.isOpen fd false other then 0 else 1
    rw [List.count_append, List.count_singleton, invariant.counted]
    by_cases same : other = fd
    · subst same
      simp [there]
    · have different : ¬ fd = other := Ne.symm same
      simp [Function.update_of_ne same, different]
  -- Closing takes nothing out of a FIFO.
  · rw [taken_after, List.append_nil]
    exact invariant.account index
  · by_cases same : other = fd
    · subst same
      -- The FIFO of the descriptor that is closed is over.
      exact hungUp other List.mem_cons_self none_
    · refine invariant.closed other ?_ none_
      rw [← shut]
      exact (Function.update_of_ne same _ _).symm
  · rw [events_after]
    exact (List.nodup_cons.mp once).2
  · rw [events_after]
    intro entry mem
    show Function.update state.isOpen fd false entry.1 = true
    -- The descriptors of one epoll_wait() are different, so the others are still open.
    have different : entry.1 ≠ fd := by
      rintro rfl
      exact (List.nodup_cons.mp once).1 (List.mem_map.mpr ⟨entry, mem, rfl⟩)
    rw [Function.update_of_ne different]
    exact opened entry (List.mem_cons_of_mem _ mem)
  · rw [events_after]
    exact fun other mem none_ => hungUp other (List.mem_cons_of_mem _ mem) none_

/-- Every step keeps what is true. -/
theorem Invariant.steps {action : Action fds fifos} (invariant : Invariant file inputs later state)
    (steps : Steps file state action next) : Invariant file inputs later next := by
  cases steps with
  | @write index count bytes writing some_ there =>
    refine invariant.fifoAt ?_ ?_ (invariant.settled index)
    · simp only [Fifo.content, writing, Option.getD_some]
      rw [List.append_assoc, ← List.append_assoc (List.take count bytes), List.take_append_drop]
    · intro _ over_
      exact absurd (over_.1.symm.trans writing) nofun
  | @hangUp index writing =>
    refine invariant.fifoAt ?_ ?_ (invariant.settled index)
    · simp [Fifo.content, writing]
    · intro _ over_
      exact absurd (over_.1.symm.trans writing) nofun
  | @reopen index bytes others writing first =>
    have not_quiet : later index ≠ [] := by
      intro none_
      have settled := invariant.settled index none_
      rw [first] at settled
      exact absurd settled (List.cons_ne_nil _ _)
    refine invariant.fifoAt ?_ (fun none_ => absurd none_ not_quiet)
      (fun none_ => absurd none_ not_quiet)
    simp [Fifo.content, writing, first]
  | @wait ready waits some_ few once all =>
    have names : (ready.map fun fd => (fd, (state.fifos (file fd)).epollin)).map Prod.fst =
        ready := by
      rw [List.map_map]
      exact List.map_id ready
    refine ⟨invariant.balance, invariant.counted, invariant.account, invariant.settled,
      invariant.closed, ?_, ?_, ?_, ?_, nofun⟩
    · exact (congrArg List.Nodup names).mpr once
    · intro entry mem
      obtain ⟨fd, there, rfl⟩ := List.mem_map.mp mem
      exact (all fd there).1
    · intro fd mem none_
      obtain ⟨other, there, same⟩ := List.mem_map.mp mem
      obtain ⟨rfl, empty⟩ := Prod.mk.inj same
      -- A FIFO that is ready without anything to be read has no writers.
      have hup := (all other there).2
      rw [empty, Bool.false_or] at hup
      exact ⟨by simpa [Fifo.epollhup] using hup, by simpa [Fifo.epollin] using empty⟩
    · intro evlist same
      obtain rfl := Pc.handling.inj same
      simpa using some_
  | interrupted => exact invariant
  | read here => exact invariant.read here
  | close here => exact invariant.close here
  | exit waits none_ =>
    exact ⟨invariant.balance, invariant.counted, invariant.account, invariant.settled,
      invariant.closed, List.nodup_nil, fun _ mem => absurd mem List.not_mem_nil,
      fun _ mem => absurd mem List.not_mem_nil, nofun, fun _ => none_⟩

end Input

section Progress

/-- How many steps a FIFO can still give occasion for. -/
def Fifo.left (fifo : Fifo) : Nat :=
  7 * fifo.buffer.length + 8 * (fifo.writing.getD []).length + 8 * fifo.later.flatten.length +
    2 * fifo.later.length + if fifo.writing.isSome then 1 else 0

/-- Dealing with this entry reads something, or closes a descriptor. -/
def Live (file : Fin fds → Fin fifos) (fifos_ : Fin fifos → Fifo) (entry : Fin fds × Bool) : Bool :=
  !entry.2 || (fifos_ (file entry.1)).epollin

/-- How many steps the FIFOs, the open descriptors and the entries of `evlist` give occasion for. -/
def weight (file : Fin fds → Fin fifos) (fifos_ : Fin fifos → Fifo) (openFds : Nat)
    (events : List (Fin fds × Bool)) : Nat :=
  tally Fifo.left fifos_ + 7 * openFds + events.length +
    -- A round of the loop is paid for by the first entry that is alive.
    if events.any (Live file fifos_) then 0 else 6

/-- How many steps may still be taken, but for those that are interrupted. -/
def State.left (file : Fin fds → Fin fifos) (state : State fds fifos) : Nat :=
  weight file state.fifos state.openFds state.events + if state.pc = .exited then 0 else 1

/-- After an entry has been dealt with, the program has not exited. -/
theorem left_after (line : Line fds) :
    (state.after rest line).left file = weight file state.fifos state.openFds rest + 1 := by
  have going := (@pc_after _ _ state rest line).1
  rw [State.left, events_after, if_neg going]
  rfl

/-- What is left, when one of the FIFOs has changed. -/
theorem weight_update {fifos_ : Fin fifos → Fifo} {events : List (Fin fds × Bool)} (openFds : Nat)
    (less : fifo.left < (fifos_ index).left)
    (more : (fifos_ index).epollin = true → fifo.epollin = true) :
    weight file (Function.update fifos_ index fifo) openFds events <
      weight file fifos_ openFds events := by
  have total := tally_update Fifo.left fifos_ index fifo
  -- An event that has work to do has it still after the FIFO has got less.
  have live : events.any (Live file fifos_) = true →
      events.any (Live file (Function.update fifos_ index fifo)) = true := by
    intro any
    obtain ⟨entry, mem, holds⟩ := List.any_eq_true.mp any
    refine List.any_eq_true.mpr ⟨entry, mem, ?_⟩
    rw [Live, Bool.or_eq_true] at holds ⊢
    refine holds.imp_right fun there => ?_
    by_cases same : file entry.1 = index
    · rw [same, Function.update_self]
      exact more (same ▸ there)
    · rw [Function.update_of_ne same]
      exact there
  simp only [weight]
  -- The weight counts what the FIFOs hold and whether the loop is on the way to it.
  split
  · omega
  next none_ =>
    rw [if_neg fun any => none_ (live any)]
    omega

/-- Reading something is worth more than a round of the loop. -/
theorem left_drop (there : fifo.buffer ≠ []) :
    Fifo.left { fifo with buffer := fifo.buffer.drop maxBuf } + 7 ≤ fifo.left := by
  -- read() takes a byte at least, and each byte counts for more than the steps around it.
  have positive := List.length_pos_of_ne_nil there
  have some_ : maxBuf = 1000 := rfl
  simp only [Fifo.left, List.length_drop]
  omega

/-- What is left after something has been read, and the list has become shorter. -/
theorem weight_read {fifos_ : Fin fifos → Fifo} {events events_ : List (Fin fds × Bool)}
    (openFds : Nat) (less : fifo.left + 7 ≤ (fifos_ index).left)
    (fewer : events_.length < events.length) :
    weight file (Function.update fifos_ index fifo) openFds events_ <
      weight file fifos_ openFds events := by
  -- What is taken out of the FIFO outweighs what the loop has to do again.
  have total := tally_update Fifo.left fifos_ index fifo
  simp only [weight]
  split <;> split <;> omega

/-- What is left after a FIFO has changed while the program waits. -/
theorem left_fifoAt (less : fifo.left < (state.fifos index).left)
    (more : (state.fifos index).epollin = true → fifo.epollin = true) :
    (state.fifoAt index fifo).left file + 1 ≤ state.left file :=
  Nat.add_lt_add_right (weight_update _ less more) _

/-- Every step but for those that are interrupted leaves fewer to be taken. -/
theorem Invariant.left_lt {action : Action fds fifos}
    (invariant : Invariant file inputs later state)
    (steps : Steps file state action next) :
    next.left file + (if action.goesOn then 1 else 0) ≤ state.left file := by
  cases steps with
  | @write index count bytes writing some_ there =>
    refine left_fifoAt ?_ ?_
    · simp only [Fifo.left, writing, Option.getD_some, List.length_append, List.length_drop,
        List.length_take_of_le there, Option.isSome_some, if_true]
      omega
    · intro some_
      simp only [Fifo.epollin, Bool.not_eq_true', List.isEmpty_eq_false_iff] at some_ ⊢
      exact List.append_ne_nil_of_left_ne_nil some_ _
  | @hangUp index writing =>
    refine left_fifoAt ?_ id
    simp [Fifo.left, writing]
  | @reopen index bytes others writing first =>
    refine left_fifoAt ?_ id
    simp [Fifo.left, writing, first]
    omega
  | @wait ready waits some_ few once all =>
    -- All entries of the new list are alive.
    have live : (ready.map fun fd => (fd, (state.fifos (file fd)).epollin)).any
        (Live file state.fifos) = true := by
      obtain ⟨fd, mem⟩ := List.exists_mem_of_ne_nil ready some_
      refine List.any_eq_true.mpr ⟨_, List.mem_map_of_mem mem, ?_⟩
      simp [Live]
    have before : state.left file = weight file state.fifos state.openFds [] + 1 := by
      simp [State.left, State.events, waits]
    have most : maxEvents = 5 := rfl
    rw [before]
    show weight file state.fifos state.openFds (ready.map _) + 1 + 1 ≤ _
    simp only [weight, live, List.length_map]
    simp
    omega
  | interrupted waits => exact le_rfl
  | @read fd rest here =>
    have before : state.left file =
        weight file state.fifos state.openFds ((fd, true) :: rest) + 1 := by
      simp [State.left, State.events, here]
    rw [left_after, before]
    by_cases empty : (state.fifos (file fd)).buffer = []
    · -- Nothing is read, and nothing changes but for the list.
      have same : (state.fifoAt (file fd) { state.fifos (file fd) with
          buffer := (state.fifos (file fd)).buffer.drop maxBuf }).fifos = state.fifos := by
        refine Function.update_eq_self_iff.mpr ?_
        rw [empty, List.drop_nil, ← empty]
      rw [same]
      show weight file state.fifos state.openFds rest + 1 + 1 ≤ _
      simp [weight, Live, Fifo.epollin, empty]
    · exact Nat.succ_le_succ (weight_read _ (left_drop empty) (Nat.lt_succ_self _))
  | @close fd rest here =>
    have before : state.left file =
        weight file state.fifos state.openFds ((fd, false) :: rest) + 1 := by
      simp [State.left, State.events, here]
    have there : state.isOpen fd = true := by
      refine invariant.opened (fd, false) ?_
      rw [State.events, here]
      exact List.mem_cons_self
    have total := tally_update (fun isOpen => if isOpen then 1 else 0) state.isOpen fd false
    simp only [there, if_true, Bool.false_eq_true, if_false] at total
    rw [left_after, before]
    simp only [weight, State.openFds, List.length_cons]
    show _ ≤ tally Fifo.left state.fifos + _ + _ + (if List.any _ _ then 0 else 6) + 1
    split <;> split <;> simp_all <;> omega
  | exit waits none_ =>
    simp [State.left, State.events, waits, State.openFds, Action.goesOn]

/-- Whoever has a FIFO open for writing can write to it, or close it, when it is empty. -/
theorem able_writer {bytes : List UInt8} (space : 0 < room) (reader : state.HasReader file index)
    (empty : (state.fifos index).buffer = []) (writing : (state.fifos index).writing = some bytes) :
    ∃ action next, action.goesOn = true ∧ (machine file room).step state action = some next := by
  -- A writer that has written all hangs up.
  cases bytes with
  | nil =>
    refine ⟨.hangUp index,
      state.fifoAt index { state.fifos index with writing := none }, rfl, ?_⟩
    simp only [machine, step]
    exact if_pos writing
  | cons byte bytes =>
    -- Otherwise it writes a byte, as the FIFO is empty.
    refine ⟨.write index 1, state.fifoAt index { state.fifos index with
      buffer := (state.fifos index).buffer ++ (byte :: bytes).take 1
      writing := some ((byte :: bytes).drop 1) }, rfl, ?_⟩
    simp only [machine, step, writing]
    refine if_pos ⟨one_pos, by simp, ?_, reader⟩
    rw [empty, List.length_nil]
    omega

/-- Until the program exits, it can go on, or someone can write. -/
theorem Invariant.progress (invariant : Invariant file inputs later state) (space : 0 < room) :
    state.pc = .exited ∨
      ∃ action next, action.goesOn = true ∧ (machine file room).step state action = some next := by
  cases here : state.pc with
  | exited => exact .inl rfl
  | handling evlist =>
    right
    have opened := invariant.opened
    rw [show state.events = evlist by rw [State.events, here]] at opened
    cases evlist with
    | nil => exact absurd rfl (invariant.some_ [] here)
    | cons entry rest =>
      obtain ⟨fd, isIn⟩ := entry
      have reader : state.HasReader file (file fd) := ⟨fd, rfl, opened _ List.mem_cons_self⟩
      cases isIn with
      | false =>
        refine ⟨.handle, { state with
          isOpen := Function.update state.isOpen fd false
          numOpenFds := state.numOpenFds - 1 }.after rest (.closing fd), rfl, ?_⟩
        simp only [machine, step, handleStep, here]
      | true =>
        by_cases blocked : (state.fifos (file fd)).buffer = [] ∧
            (state.fifos (file fd)).writing.isSome
        · obtain ⟨bytes, writing⟩ := Option.isSome_iff_exists.mp blocked.2
          exact able_writer space reader blocked.1 writing
        · refine ⟨.handle, (state.fifoAt (file fd) { state.fifos (file fd) with
            buffer := (state.fifos (file fd)).buffer.drop maxBuf }).after rest
              (.read fd ((state.fifos (file fd)).buffer.take maxBuf)), rfl, ?_⟩
          simp only [machine, step, handleStep, here]
          exact if_neg blocked
  | waiting =>
    right
    by_cases going : 0 < state.numOpenFds
    · -- One of the descriptors is open, and if it is not ready, someone can write.
      have positive : 0 < tally (fun isOpen => if isOpen then 1 else 0) state.isOpen := by
        rw [invariant.balance] at going
        exact Int.ofNat_lt.mp going
      obtain ⟨fd, some_⟩ := exists_of_tally_pos positive
      have isOpen : state.isOpen fd = true := by
        by_contra shut
        simp [shut] at some_
      by_cases ready : ((state.fifos (file fd)).epollin || (state.fifos (file fd)).epollhup) = true
      · refine ⟨.wait [fd], { state with
          pc := .handling ([fd].map fun fd => (fd, (state.fifos (file fd)).epollin)) }, rfl, ?_⟩
        simp only [machine, step]
        refine if_pos ⟨here, going, List.cons_ne_nil _ _, by simp [maxEvents],
          List.nodup_singleton _, ?_⟩
        intro other mem
        rw [List.mem_singleton.mp mem]
        exact ⟨isOpen, ready⟩
      · simp only [Bool.or_eq_true, not_or, Fifo.epollin, Fifo.epollhup, Bool.not_eq_true',
          Bool.not_eq_false, List.isEmpty_iff, Option.isNone_iff_eq_none] at ready
        obtain ⟨bytes, writing⟩ := Option.ne_none_iff_exists'.mp ready.2
        exact able_writer space ⟨fd, rfl, isOpen⟩ ready.1 writing
    · refine ⟨.exit, { state with pc := .exited }, rfl, ?_⟩
      simp only [machine, step]
      exact if_pos ⟨here, going⟩

end Progress

/-- What the program does with its input, whatever the order of the steps. -/
structure Delivers (file : Fin fds → Fin fifos) (room : Nat) (inputs : Fin fifos → List UInt8)
    (later : Fin fifos → List (List UInt8)) (state : State fds fifos) : Prop where
  /-- What has been read from a FIFO is the beginning of what is written to it. -/
  partly : ∀ index, state.taken file index <+: inputs index ++ (later index).flatten
  /-- All input is read before the descriptor is closed, unless the FIFO is opened again. -/
  whole : ∀ fd, state.isOpen fd = false → later (file fd) = [] →
    state.taken file (file fd) = inputs (file fd)
  /-- No descriptor is closed more than once. -/
  once : ∀ fd, state.output.count (.closing fd) = if state.isOpen fd then 0 else 1
  /-- At the end all of them have been closed. -/
  all : state.pc = .exited → ∀ fd, state.isOpen fd = false
  /-- The program never waits for something that cannot happen. -/
  progress : state.pc = .exited ∨
    ∃ action next, action.goesOn = true ∧ (machine file room).step state action = some next

/-- All input is read, all descriptors are closed, and the program comes to an end. -/
theorem epollInput_delivers (file : Fin fds → Fin fifos) (room : Nat) (space : 0 < room)
    (inputs : Fin fifos → List UInt8) (later : Fin fifos → List (List UInt8))
    (actions : List (Action fds fifos)) (state : State fds fifos)
    (ran : (machine file room).run (initial fds inputs later) actions = some state) :
    Delivers file room inputs later state ∧ actions.countP Action.goesOn ≤
      (∑ index, (8 * (inputs index ++ (later index).flatten).length +
        2 * (later index).length + 1)) + 7 * fds + 7 := by
  have preserved : ∀ before action after, Invariant file inputs later before →
      (machine file room).step before action = some after → Invariant file inputs later after :=
    fun before action after invariant stepped => invariant.steps (steps_of_step stepped)
  have lowered : ∀ before action after, Invariant file inputs later before →
      (machine file room).step before action = some after →
        after.left file + (if action.goesOn then 1 else 0) ≤ before.left file :=
    fun before action after invariant stepped => invariant.left_lt (steps_of_step stepped)
  have invariant := Machine.run_invariant preserved invariant_initial ran
  refine ⟨⟨fun index => ?_, fun fd shut none_ => ?_, invariant.counted, fun ended fd => ?_,
    invariant.progress space⟩, ?_⟩
  · exact ⟨_, invariant.account index⟩
  · have account := invariant.account (file fd)
    obtain ⟨closed, empty⟩ := invariant.closed fd shut none_
    have quiet := invariant.settled (file fd) none_
    rw [none_, Fifo.content, closed, empty, quiet] at account
    simpa using account
  · -- The descriptors that are open are counted, and there are none.
    have none_ := invariant.ended ended
    rw [invariant.balance] at none_
    have zero : tally (fun isOpen => if isOpen then 1 else 0) state.isOpen = 0 := by
      have count : ¬ 0 < state.openFds := fun some_ => none_ (Int.ofNat_lt.mpr some_)
      exact Nat.eq_zero_of_not_pos count
    have shut := tally_eq_zero_iff.mp zero fd
    by_contra isOpen
    simp [isOpen] at shut
  · have bound := Machine.run_progress_le preserved lowered invariant_initial ran
    have opened : (initial fds inputs later).openFds = fds :=
      (tally_eq_card fun _ => rfl).trans (Fintype.card_fin fds)
    have start : (initial fds inputs later).left file =
        (∑ index, (8 * (inputs index ++ (later index).flatten).length +
          2 * (later index).length + 1)) + 7 * fds + 7 := by
      have each : tally Fifo.left (initial fds inputs later).fifos = ∑ index,
          (8 * (inputs index ++ (later index).flatten).length + 2 * (later index).length + 1) := by
        refine Finset.sum_congr rfl fun index _ => ?_
        simp [Fifo.left, initial]
        omega
      rw [State.left, weight, each, opened]
      simp [State.events, initial]
    omega

/-- Two descriptors, with one FIFO each. -/
theorem epollInput_delivers_two : ∃ state : State 2 2,
    state.pc = .exited ∧ state.taken id 1 = [98] ∧
      Delivers id 8 ![[97], [98]] (fun _ => []) state :=
  -- Writer 1 hangs up before writer 0 has written, and epoll_wait() is interrupted once.
  ⟨_, rfl, rfl, (epollInput_delivers id 8 (by decide) ![[97], [98]] (fun _ => [])
    [.write 1 1, .hangUp 1, .wait [1], .handle, .write 0 1, .wait [0, 1], .handle, .handle,
      .interrupted, .hangUp 0, .wait [0], .handle, .exit] _ rfl).1⟩

/-- When a FIFO is opened again, what is written to it then can be lost. -/
theorem not_delivers_all : ∃ actions, ∃ state : State 1 1,
    (machine id 8).run (initial 1 (fun _ => []) fun _ => [[97]]) actions = some state ∧
      state.pc = .exited ∧ state.taken id 0 = [] :=
  ⟨[.hangUp 0, .wait [0], .reopen 0, .write 0 1, .handle, .exit], _, rfl, rfl, rfl⟩

end SysProg.Altio.EpollInput
