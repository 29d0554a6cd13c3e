import SysProg.Sockets.UsXfr

/-! The server writes the whole input of each client, in the order of their connections. -/

namespace SysProg.Sockets.UsXfr

open Pipeline

variable {count room backlog : Nat} {inputs : Fin count → List UInt8} {state next : State count}
  {served : List (Fin count)} {index : Fin count} {move : Move}

/-- What a client has not yet handed over to the server. -/
def Client.content (client : Client) : List UInt8 :=
  client.loop.out ++ (client.loop.held ++ client.stdin)

/-- What is true of each client at any time. -/
structure Client.Sound (room : Nat) (client : Client) : Prop where
  stage : client.loop.stage = usXfrCl room
  /-- A client that has closed its socket has written everything. -/
  ended : client.loop.finished = true → client.loop.held = [] ∧ client.stdin = []

/-- A client hands over what it has read, and nothing else. -/
theorem Client.Sound.moves {client : Client} {stdin : List UInt8} {loop : Segment UInt8}
    (sound : client.Sound room) (moves : Moves client.stdin true client.loop move stdin loop) :
    Client.Sound room ⟨stdin, loop⟩ ∧ Client.content ⟨stdin, loop⟩ = client.content ∧
      client.loop.finished = false := by
  -- The client reads from its standard input, or writes to the socket, or closes it.
  cases moves with
  | @read count empty going some_ fits there =>
    refine ⟨⟨sound.stage, fun finished => ?_⟩, ?_, going⟩
    · exact absurd (going.symm.trans finished) nofun
    -- What is read is held as it is.
    · have same : client.loop.stage.transform (client.stdin.take count) =
          client.stdin.take count := by
        rw [sound.stage]
        rfl
      simp [Client.content, same, empty]
  | @write count some_ there fits =>
    -- A client that has finished holds nothing, so it writes nothing.
    have going : client.loop.finished = false := by
      by_contra finished
      rw [(sound.ended (by simpa using finished)).1] at there
      simp at there
      omega
    refine ⟨⟨sound.stage, fun finished => ?_⟩, ?_, going⟩
    · exact absurd (going.symm.trans finished) nofun
    · simp only [Client.content]
      rw [List.append_assoc, ← List.append_assoc (client.loop.held.take count),
        List.take_append_drop]
  -- At the end of the input nothing is held, and the socket is closed.
  | eof empty going over_ ended =>
    exact ⟨⟨sound.stage, fun _ => ⟨empty, over_⟩⟩, rfl, going⟩

/-- Where the server is, when it has served these clients. -/
inductive Stands (inputs : Fin count → List UInt8) (state : State count) :
    List (Fin count) → Prop
  | accepting {served : List (Fin count)} (free : state.serving = none)
    (order : state.connected = served ++ state.pending) (empty : state.server.held = [])
    (whole : state.stdout = served.flatMap inputs) : Stands inputs state served
  | serving {served : List (Fin count)} {index : Fin count} (here : state.serving = some index)
    (order : state.connected = served ++ index :: state.pending)
    (partly : state.stdout ++ (state.server.held ++ (state.clients index).content) =
      served.flatMap inputs ++ inputs index)
    (ended : state.server.finished = true → state.server.held = [] ∧
      (state.clients index).loop.out = [] ∧ (state.clients index).loop.finished = true) :
    Stands inputs state served

/-- What is true in every state. -/
structure Invariant (room : Nat) (inputs : Fin count → List UInt8) (state : State count) :
    Prop where
  once : state.connected.Nodup
  stage : state.server.stage = usXfrSv
  sound : ∀ index, (state.clients index).Sound room
  /-- Nothing of what these clients have to send has been read by the server. -/
  waiting : ∀ index, index ∉ state.connected ∨ index ∈ state.pending →
    (state.clients index).content = inputs index
  stands : ∃ served, Stands inputs state served ∧
    ∀ index ∈ served, (state.clients index).loop.finished = true

theorem invariant_initial : Invariant room inputs (initial room inputs) where
  -- Nobody has connected.
  once := List.nodup_nil
  stage := rfl
  sound _ := ⟨rfl, nofun⟩
  waiting _ _ := rfl
  stands := ⟨[], .accepting rfl rfl rfl rfl, fun _ mem => absurd mem List.not_mem_nil⟩

/-- A client that waits is neither being served nor has been. -/
theorem Invariant.apart (invariant : Invariant room inputs state)
    (stands : Stands inputs state served)
    (waits : index ∉ state.connected ∨ index ∈ state.pending) :
    index ∉ served ∧ state.serving ≠ some index := by
  -- The served clients, the one being served and the pending ones stand in one list without
  -- repetition.
  have once := invariant.once
  cases stands with
  | accepting free order empty whole =>
    rw [order] at once waits
    have disjoint := List.disjoint_of_nodup_append once
    refine ⟨fun mem => ?_, by simp [free]⟩
    -- Such a client would stand in the list twice, or would have connected.
    rcases waits with out | mem_
    · exact out (List.mem_append_left _ mem)
    · exact disjoint mem mem_
  | @serving other here order partly ended =>
    rw [order] at once waits
    have disjoint := List.disjoint_of_nodup_append once
    have single := (List.nodup_append.mp once).2.1
    refine ⟨fun mem => ?_, fun same => ?_⟩
    · rcases waits with out | mem_
      · exact out (List.mem_append_left _ mem)
      · exact disjoint mem (List.mem_cons_of_mem _ mem_)
    · obtain rfl := Option.some.inj (here.symm.trans same)
      rcases waits with out | mem_
      · exact out (by simp)
      · exact (List.nodup_cons.mp single).1 mem_

/-- A connection is added to those that wait. -/
theorem Invariant.connect (invariant : Invariant room inputs state)
    (new : index ∉ state.connected) :
    Invariant room inputs { state with
      connected := state.connected ++ [index]
      pending := state.pending ++ [index] } where
  -- The new client goes to the end of both lists, and nothing else changes.
  once := by
    rw [List.nodup_append]
    refine ⟨invariant.once, List.nodup_singleton index, ?_⟩
    intro one mem two mem_
    rw [List.mem_singleton.mp mem_]
    rintro rfl
    exact new mem
  stage := invariant.stage
  sound := invariant.sound
  waiting := by
    intro other waits
    apply invariant.waiting
    rcases waits with out | mem
    · exact .inl fun there => out (List.mem_append_left _ there)
    · rcases List.mem_append.mp mem with old | last
      · exact .inr old
      · rw [List.mem_singleton.mp last]
        exact .inl new
  stands := by
    obtain ⟨served, stands, finished⟩ := invariant.stands
    refine ⟨served, ?_, finished⟩
    -- It waits behind the others, whether or not the server has a client.
    cases stands with
    | accepting free order empty whole =>
      refine .accepting free ?_ empty whole
      show state.connected ++ [index] = served ++ (state.pending ++ [index])
      rw [order, List.append_assoc]
    | @serving other here order partly ended =>
      refine .serving here ?_ partly ended
      show state.connected ++ [index] = served ++ other :: (state.pending ++ [index])
      rw [order, List.append_assoc, List.cons_append]

/-- A client reads, writes or closes its socket. -/
theorem Invariant.client (invariant : Invariant room inputs state) {stdin : List UInt8}
    {loop : Segment UInt8}
    (moves : Moves (state.clients index).stdin true (state.clients index).loop move stdin loop) :
    Invariant room inputs
      { state with clients := Function.update state.clients index ⟨stdin, loop⟩ } := by
  obtain ⟨sound, content, going⟩ := (invariant.sound index).moves moves
  have contents : ∀ other, (Function.update state.clients index ⟨stdin, loop⟩ other).content =
      (state.clients other).content := by
    intro other
    by_cases same : other = index
    · rw [same, Function.update_self, content]
    · rw [Function.update_of_ne same]
  -- Nobody who has closed the socket does anything.
  have others : ∀ other, (state.clients other).loop.finished = true →
      Function.update state.clients index ⟨stdin, loop⟩ other = state.clients other := by
    intro other finished
    refine Function.update_of_ne ?_ _ _
    rintro rfl
    rw [finished] at going
    exact nomatch going
  refine ⟨invariant.once, invariant.stage, fun other => ?_, fun other waits => ?_, ?_⟩
  · show (Function.update state.clients index _ other).Sound room
    by_cases same : other = index
    · rw [same, Function.update_self]
      exact sound
    · rw [Function.update_of_ne same]
      exact invariant.sound other
  · exact (contents other).trans (invariant.waiting other waits)
  · obtain ⟨served, stands, finished⟩ := invariant.stands
    refine ⟨served, ?_, fun other mem => ?_⟩
    · cases stands with
      | accepting free order empty whole => exact .accepting free order empty whole
      | @serving other here order partly ended =>
        refine .serving here order ?_ fun closed => ?_
        · show _ ++ (_ ++ (Function.update state.clients index _ other).content) = _
          rw [contents]
          exact partly
        · show _ ∧ (Function.update state.clients index _ other).loop.out = [] ∧
            (Function.update state.clients index _ other).loop.finished = true
          rw [others other (ended closed).2.2]
          exact ended closed
    · show (Function.update state.clients index _ other).loop.finished = true
      rw [others other (finished other mem)]
      exact finished other mem

/-- The server turns to the first of the connections that wait. -/
theorem Invariant.accept (invariant : Invariant room inputs state) {rest : List (Fin count)}
    (free : state.serving = none) (first : state.pending = index :: rest) :
    Invariant room inputs { state with
      pending := rest
      serving := some index
      server := { state.server with finished := false } } where
  -- The first pending client becomes the one that is served.
  once := invariant.once
  stage := invariant.stage
  sound := invariant.sound
  waiting := by
    intro other waits
    apply invariant.waiting
    rcases waits with out | mem
    · exact .inl out
    · exact .inr (first ▸ List.mem_cons_of_mem _ mem)
  stands := by
    obtain ⟨served, stands, finished⟩ := invariant.stands
    refine ⟨served, ?_, finished⟩
    cases stands with
    | accepting _ order empty whole =>
      refine .serving rfl (first ▸ order) ?_ nofun
      -- It has sent nothing that was read, so all its input is still to come.
      have content := invariant.waiting index (.inr (first ▸ List.mem_cons_self))
      show state.stdout ++ (state.server.held ++ (state.clients index).content) = _
      rw [whole, empty, content, List.nil_append]
    | serving here => exact absurd (here.symm.trans free) nofun

/-- The server reads from the connection, writes, or comes to the end of it. -/
theorem Invariant.server (invariant : Invariant room inputs state)
    (here : state.serving = some index)
    {out : List UInt8} {server : Segment UInt8}
    (moves : Moves (state.clients index).loop.out (state.clients index).loop.finished state.server
      move out server) :
    Invariant room inputs { state with
      clients := Function.update state.clients index { state.clients index with
        loop := { (state.clients index).loop with out } }
      server } := by
  obtain ⟨served, stands, finished⟩ := invariant.stands
  -- The clients that wait are others than the one that is served.
  have apart : ∀ other, other ∉ state.connected ∨ other ∈ state.pending →
      other ∉ served ∧ state.serving ≠ some other :=
    fun other waits => invariant.apart stands waits
  -- The server has a client, so it is not accepting.
  cases stands with
  | accepting free => exact absurd (here.symm.trans free) nofun
  | @serving index_ here_ order partly ended =>
    obtain rfl := Option.some.inj (here.symm.trans here_)
    have sound := invariant.sound index
    refine ⟨invariant.once, ?_, fun other => ?_, fun other waits => ?_, served, ?_,
      fun other mem => ?_⟩
    · cases moves with
      | read | write | eof => exact invariant.stage
    · show (Function.update state.clients index _ other).Sound room
      by_cases same : other = index
      · rw [same, Function.update_self]
        exact ⟨sound.stage, sound.ended⟩
      · rw [Function.update_of_ne same]
        exact invariant.sound other
    · show (Function.update state.clients index _ other).content = inputs other
      -- A waiting client is not touched.
      have different : other ≠ index := by
        rintro rfl
        exact (apart other waits).2 here
      rw [Function.update_of_ne different]
      exact invariant.waiting other waits
    · refine @Stands.serving _ _ _ _ index here order ?_ ?_
      · show server.out ++
          (server.held ++ (Function.update state.clients index _ index).content) = _
        rw [Function.update_self, ← partly]
        simp only [Client.content, State.stdout]
        cases moves with
        | @read count empty going some_ fits there =>
          -- What is read is held, and what is held is written: together they stay the same.
          have same : state.server.stage.transform ((state.clients index).loop.out.take count) =
              (state.clients index).loop.out.take count := by
            rw [invariant.stage]
            rfl
          simp only
          rw [same, empty, List.nil_append, ← List.append_assoc (List.take count _),
            List.take_append_drop]
        | @write count some_ there fits =>
          simp only
          rw [List.append_assoc, ← List.append_assoc (state.server.held.take count),
            List.take_append_drop]
        | eof => rfl
      · show server.finished = true → server.held = [] ∧
          (Function.update state.clients index _ index).loop.out = [] ∧
          (Function.update state.clients index _ index).loop.finished = true
        rw [Function.update_self]
        cases moves with
        -- The connection is left only after the client has closed it and all was read.
        | read empty going => exact fun closed => absurd (going.symm.trans closed) nofun
        | write some_ there =>
          intro closed
          rw [(ended closed).1] at there
          simp at there
          omega
        | eof empty going over_ closed => exact fun _ => ⟨empty, over_, closed⟩
    -- The clients served before have finished, and that stays.
    · show (Function.update state.clients index _ other).loop.finished = true
      by_cases same : other = index
      · rw [same, Function.update_self]
        exact same ▸ finished other mem
      · rw [Function.update_of_ne same]
        exact finished other mem

/-- The server closes a connection that it has come to the end of. -/
theorem Invariant.close (invariant : Invariant room inputs state)
    (here : state.serving = some index) (over_ : state.server.finished = true) :
    Invariant room inputs { state with serving := none } where
  once := invariant.once
  stage := invariant.stage
  sound := invariant.sound
  waiting := invariant.waiting
  stands := by
    obtain ⟨served, stands, finished⟩ := invariant.stands
    cases stands with
    | accepting free => exact absurd (here.symm.trans free) nofun
    | @serving index_ here_ order partly ended =>
      obtain rfl := Option.some.inj (here.symm.trans here_)
      -- The server has seen the end of the connection, so all of it was written.
      obtain ⟨empty, none_, closed⟩ := ended over_
      obtain ⟨held, stdin⟩ := (invariant.sound index).ended closed
      refine ⟨served ++ [index], .accepting rfl ?_ empty ?_, fun other mem => ?_⟩
      · show state.connected = (served ++ [index]) ++ state.pending
        rw [order, List.append_assoc, List.singleton_append]
      · show state.stdout = _
        -- The output is what the clients served so far have sent, whole.
        rw [Client.content, empty, none_, held, stdin] at partly
        simpa using partly
      · rcases List.mem_append.mp mem with old | last
        · exact finished other old
        · rw [List.mem_singleton.mp last]
          exact closed

/-- What each step does, and when it can be taken. -/
inductive Steps (backlog : Nat) (state : State count) : State count → Prop
  | connect {index : Fin count} (new : index ∉ state.connected) :
    Steps backlog state { state with
      connected := state.connected ++ [index]
      pending := state.pending ++ [index] }
  | client {index : Fin count} {move : Move} {stdin : List UInt8} {loop : Segment UInt8}
    (moves : Moves (state.clients index).stdin true (state.clients index).loop move stdin loop) :
    Steps backlog state
      { state with clients := Function.update state.clients index ⟨stdin, loop⟩ }
  | accept {index : Fin count} {rest : List (Fin count)} (free : state.serving = none)
    (first : state.pending = index :: rest) :
    Steps backlog state { state with
      pending := rest
      serving := some index
      server := { state.server with finished := false } }
  | server {index : Fin count} {move : Move} {out : List UInt8} {server : Segment UInt8}
    (here : state.serving = some index)
    (moves : Moves (state.clients index).loop.out (state.clients index).loop.finished state.server
      move out server) :
    Steps backlog state { state with
      clients := Function.update state.clients index { state.clients index with
        loop := { (state.clients index).loop with out } }
      server }
  | close {index : Fin count} (here : state.serving = some index)
    (over_ : state.server.finished = true) : Steps backlog state { state with serving := none }

theorem steps_of_step {action : Action count}
    (stepped : (machine count backlog).step state action = some next) :
    Steps backlog state next := by
  -- For each action, the step is made exactly under the conditions of its rule.
  cases action with
  | connect index =>
    simp only [machine, step] at stepped
    split at stepped
    next able =>
      obtain rfl := Option.some.inj stepped
      exact .connect fun mem => able.1 (List.contains_iff_mem.mpr mem)
    · simp at stepped
  | client index move =>
    simp only [machine, step] at stepped
    split at stepped
    next able =>
      obtain ⟨⟨stdin, loop⟩, moved, same⟩ := Option.bind_eq_some_iff.mp stepped
      obtain rfl := Option.some.inj same
      exact .client (moves_of_step moved)
    · simp at stepped
  | accept =>
    simp only [machine, step] at stepped
    split at stepped
    next free first =>
      obtain rfl := Option.some.inj stepped
      exact .accept free first
    · simp at stepped
  | server move =>
    obtain ⟨index, here, moved⟩ := Option.bind_eq_some_iff.mp stepped
    obtain ⟨⟨out, server⟩, moved_, same⟩ := Option.bind_eq_some_iff.mp moved
    obtain rfl := Option.some.inj same
    exact .server here (moves_of_step moved_)
  | close =>
    simp only [machine, step] at stepped
    split at stepped
    next able =>
      obtain rfl := Option.some.inj stepped
      obtain ⟨index, here⟩ := Option.isSome_iff_exists.mp able.1
      exact .close here able.2
    · simp at stepped

theorem Invariant.steps (invariant : Invariant room inputs state)
    (steps : Steps backlog state next) : Invariant room inputs next := by
  -- One lemma for each kind of step.
  cases steps with
  | connect new => exact invariant.connect new
  | client moves => exact invariant.client moves
  | accept free first => exact invariant.accept free first
  | server here moves => exact invariant.server here moves
  | close here over_ => exact invariant.close here over_

/-- How many steps a client and the server may still need for what the client has to send. -/
def Client.left (client : Client) : Nat :=
  4 * client.stdin.length + 3 * client.loop.held.length + 2 * client.loop.out.length +
    if client.loop.finished then 0 else 1

/-- How many steps may still be taken. -/
def State.left (state : State count) : Nat :=
  tally Client.left state.clients + state.server.held.length +
    4 * (count - state.connected.length) + 3 * state.pending.length +
      if state.serving = none then 0 else if state.server.finished then 1 else 2

/-- Every step leaves fewer to be taken. -/
theorem Invariant.left_lt (invariant : Invariant room inputs state)
    (steps : Steps backlog state next) : next.left < state.left := by
  have after := invariant.steps steps
  -- Every client connects once at most, so there are at most count of them.
  have few : next.connected.length ≤ count := by
    simpa using after.once.length_le_card
  -- What each step uses up: a connection to be made, bytes to be moved, a pending client, an end.
  cases steps with
  | connect new =>
    rw [List.length_append, List.length_singleton] at few
    simp only [State.left, List.length_append, List.length_singleton]
    omega
  | @client index move stdin loop moves =>
    have total := tally_update Client.left state.clients index ⟨stdin, loop⟩
    -- The client has one thing less to do, and the others have as much as before.
    have less : Client.left ⟨stdin, loop⟩ < (state.clients index).left := by
      have stage := (invariant.sound index).stage
      simp only [Client.left]
      cases moves with
      | @read count empty going some_ fits there =>
        -- read() copies the bytes as they are.
        have length : (((state.clients index).loop.stage.transform
            ((state.clients index).stdin.take count))).length = count := by
          rw [stage]
          exact List.length_take_of_le there
        simp only [length, List.length_drop, empty, List.length_nil, going]
        omega
      | @write count some_ there fits =>
        simp only [List.length_drop, List.length_append, List.length_take_of_le there]
        omega
      | eof empty going over_ ended =>
        simp only [going]
        simp
    simp only [State.left]
    omega
  | @accept index rest free first =>
    simp only [State.left, free, first, List.length_cons]
    simp
    omega
  | @server index move out server here moves =>
    have total := tally_update Client.left state.clients index { state.clients index with
      loop := { (state.clients index).loop with out } }
    simp only [State.left, here]
    simp only [Client.left] at total
    cases moves with
    | @read count_ empty going some_ fits there =>
      have length : ((state.server.stage.transform
          ((state.clients index).loop.out.take count_))).length = count_ := by
        rw [invariant.stage]
        exact List.length_take_of_le there
      simp only [length, List.length_drop, empty, List.length_nil] at total ⊢
      omega
    | @write count_ some_ there fits =>
      simp only [List.length_drop]
      omega
    | eof empty going over_ ended =>
      simp only [going]
      simp
  | close here over_ =>
    simp only [State.left, here, over_]
    simp

/-- A client that has connected can go on, if there is room in the channel. -/
theorem Client.Sound.able {client : Client} (sound : client.Sound room) (some_ : 0 < room)
    (free : client.loop.out = []) (going : client.loop.finished = false) :
    ∃ move later, client.loop.step client.stdin true move = some later := by
  -- A client that holds nothing reads, or sees the end of its input.
  by_cases empty : client.loop.held = []
  · cases stdin : client.stdin with
    | nil => exact ⟨.eof, _, if_pos ⟨empty, going, rfl, rfl⟩⟩
    | cons byte bytes =>
      refine ⟨.read 1, _, if_pos ⟨empty, going, one_pos, ?_, ?_⟩⟩
      · rw [sound.stage]
        show 1 ≤ 100
        omega
      · simp
  -- One that holds something writes, as the socket has room.
  · refine ⟨.write 1, _, if_pos ⟨one_pos, List.length_pos_iff.mpr empty, ?_⟩⟩
    intro bound there
    rw [sound.stage] at there
    obtain rfl := Option.some.inj there
    rw [free, List.length_nil]
    omega

/-- The server can go on, unless it waits for the client. -/
theorem able_server {server : Segment UInt8} (stage : server.stage = usXfrSv) {out : List UInt8}
    {closed : Bool} (going : server.finished = false)
    (waits : server.held ≠ [] ∨ out ≠ [] ∨ closed = true) :
    ∃ move later, server.step out closed move = some later := by
  -- A server that holds nothing reads, or sees the end of the connection.
  by_cases empty : server.held = []
  · cases read : out with
    | nil =>
      have ended : closed = true := by simpa [empty, read] using waits
      exact ⟨.eof, _, if_pos ⟨empty, going, rfl, ended⟩⟩
    | cons byte bytes =>
      refine ⟨.read 1, _, if_pos ⟨empty, going, one_pos, ?_, ?_⟩⟩
      · rw [stage]
        decide
      · simp
  -- One that holds something writes, and its standard output takes it always.
  · refine ⟨.write 1, _, if_pos ⟨one_pos, List.length_pos_iff.mpr empty, ?_⟩⟩
    intro bound there
    rw [stage] at there
    exact nomatch there

/-- As long as a client has not been served, someone can go on. -/
theorem Invariant.progress (invariant : Invariant room inputs state) (some_ : 0 < room)
    (space : 0 < backlog) :
    (∀ index, index ∈ state.connected) ∧ state.pending = [] ∧ state.serving = none ∨
      ∃ action next, (machine count backlog).step state action = some next := by
  obtain ⟨served, stands, finished⟩ := invariant.stands
  cases stands with
  | accepting free order empty whole =>
    cases waits : state.pending with
    | cons index rest =>
      refine .inr ⟨.accept, Option.isSome_iff_exists.mp ?_⟩
      simp [machine, step, free, waits]
    | nil =>
      by_cases all : ∀ index, index ∈ state.connected
      · exact .inl ⟨all, rfl, free⟩
      · obtain ⟨index, new⟩ := not_forall.mp all
        refine .inr ⟨.connect index, Option.isSome_iff_exists.mp ?_⟩
        simp [machine, step, new, waits, space]
  | @serving index here order partly ended =>
    have there : index ∈ state.connected := by simp [order]
    have sound := invariant.sound index
    right
    by_cases over_ : state.server.finished = true
    · refine ⟨.close, Option.isSome_iff_exists.mp ?_⟩
      simp [machine, step, here, over_]
    · have going := Bool.eq_false_iff.mpr over_
      by_cases waits : state.server.held ≠ [] ∨ (state.clients index).loop.out ≠ [] ∨
          (state.clients index).loop.finished = true
      · obtain ⟨move, later, stepped⟩ := able_server invariant.stage going waits
        refine ⟨.server move, Option.isSome_iff_exists.mp ?_⟩
        simp [machine, step, here, stepped]
      · -- The server waits for the client, whose channel is empty.
        simp only [not_or, not_not] at waits
        obtain ⟨_, free, open_⟩ := waits
        obtain ⟨move, later, stepped⟩ := sound.able some_ free (Bool.eq_false_iff.mpr open_)
        refine ⟨.client index move, Option.isSome_iff_exists.mp ?_⟩
        simp [machine, step, there, stepped]

/-- Whatever the order of the steps, the inputs of the clients are written one after the other. -/
theorem usXfr_sequential (inputs : Fin count → List UInt8) (room backlog : Nat) (some_ : 0 < room)
    (space : 0 < backlog) (actions : List (Action count)) (state : State count)
    (ran : (machine count backlog).run (initial room inputs) actions = some state) :
    state.connected.Nodup ∧ state.stdout <+: state.connected.flatMap inputs ∧
      actions.length ≤ 4 * (∑ index, (inputs index).length) + 5 * count ∧
      ((∀ index, index ∈ state.connected) ∧ state.stdout = state.connected.flatMap inputs ∨
        ∃ action next, (machine count backlog).step state action = some next) := by
  -- The invariant holds along the run, and every step lowers what is left.
  have preserved : ∀ before action after, Invariant room inputs before →
      (machine count backlog).step before action = some after → Invariant room inputs after :=
    fun before action after invariant stepped => invariant.steps (steps_of_step stepped)
  have lowered : ∀ before action after, Invariant room inputs before →
      (machine count backlog).step before action = some after → after.left < before.left :=
    fun before action after invariant stepped => invariant.left_lt (steps_of_step stepped)
  have invariant := Machine.run_invariant preserved invariant_initial ran
  obtain ⟨served, stands, finished⟩ := invariant.stands
  refine ⟨invariant.once, ?_, ?_, ?_⟩
  -- The output is that of the served clients and a beginning of that of the one being served.
  · cases stands with
    | accepting free order empty whole =>
      rw [order, whole, List.flatMap_append]
      exact List.prefix_append _ _
    | @serving index here order partly ended =>
      rw [order, List.flatMap_append, List.flatMap_cons, ← List.append_assoc, ← partly,
        List.append_assoc]
      exact List.prefix_append _ _
  · have bound := Machine.run_length_le preserved lowered invariant_initial ran
    -- At the start as much is left as the bound says.
    have start : (initial room inputs).left =
        4 * (∑ index, (inputs index).length) + 5 * count := by
      have each : tally Client.left (initial room inputs).clients =
          ∑ index, (4 * (inputs index).length + 1) := rfl
      simp only [State.left, each, Finset.sum_add_distrib, ← Finset.mul_sum]
      simp [initial, usXfrSv, Stage.start]
      omega
    omega
  -- Either all is done, and then the output is complete, or a step can be taken.
  · rcases invariant.progress some_ space with ⟨all, none_, free⟩ | able
    · left
      refine ⟨all, ?_⟩
      cases stands with
      | accepting _ order empty whole => rw [whole, order, none_, List.append_nil]
      | serving here => exact absurd (here.symm.trans free) nofun
    · exact .inr able

/-- The client that has connected first is served first, although the other one was faster. -/
def twoClients : List (Action 2) :=
  [.connect 1, .connect 0, .client 0 (.read 1), .client 0 (.write 1), .client 1 (.read 1),
    .client 1 (.write 1), .accept, .server (.read 1), .server (.write 1)]

/-- Its first byte has been written, and the other input will come behind its second one. -/
theorem usXfr_sequential_two : ∃ state,
    (machine 2 5).run (initial 4 ![[97], [98, 99]]) twoClients = some state ∧
      state.connected = [1, 0] ∧ state.stdout = [98] ∧
      state.stdout <+: state.connected.flatMap ![[97], [98, 99]] ∧
      ∃ action next, (machine 2 5).step state action = some next := by
  obtain ⟨state, ran, connected, written⟩ : ∃ state,
      (machine 2 5).run (initial 4 ![[97], [98, 99]]) twoClients = some state ∧
      state.connected = [1, 0] ∧ state.stdout = [98] := ⟨_, rfl, rfl, rfl⟩
  obtain ⟨_, order, _, ended | goesOn⟩ :=
    usXfr_sequential ![[97], [98, 99]] 4 5 (by decide) (by decide) twoClients state ran
  · -- At the end all three bytes would have been written.
    rw [connected, written] at ended
    exact absurd ended.2 (by decide)
  · exact ⟨state, ran, connected, written, order, goesOn⟩

end SysProg.Sockets.UsXfr
