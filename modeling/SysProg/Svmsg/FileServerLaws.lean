import SysProg.Svmsg.FileServer
import SysProg.Lib.Ledger

/-! Clients receive the files they asked for, whole unless a transfer is cut short but ended. -/

namespace SysProg.Svmsg

/-- The file data in a list of responses. -/
def fileData (responses : List ResponseMsg) : Bytes :=
  (responses.filter (·.mtype = .data)).flatMap (·.data)

/-- The file data that a client has received. -/
def Client.received (client : Client) : Bytes :=
  fileData client.got

/-- The client has been told that the file data is complete. -/
def Client.toldComplete (client : Client) : Prop :=
  ∃ resp ∈ client.got, resp.mtype = .end_

/-- All of these responses contain file data. -/
def AllData (responses : List ResponseMsg) : Prop :=
  ∀ resp ∈ responses, resp.mtype = .data

@[simp] theorem fileData_nil : fileData [] = [] := rfl

@[simp] theorem fileData_append (front back : List ResponseMsg) :
    fileData (front ++ back) = fileData front ++ fileData back := by
  simp [fileData]

@[simp] theorem fileData_data (numRead : Bytes) : fileData [⟨.data, numRead⟩] = numRead := by
  simp [fileData]

@[simp] theorem fileData_end : fileData [⟨.end_, []⟩] = [] := rfl

@[simp] theorem allData_nil : AllData [] := nofun

@[simp] theorem allData_append {front back : List ResponseMsg} :
    AllData (front ++ back) ↔ AllData front ∧ AllData back := by
  simp [AllData, or_imp, forall_and]

@[simp] theorem allData_singleton {resp : ResponseMsg} :
    AllData [resp] ↔ resp.mtype = .data := by
  simp [AllData]

/--
What a child has sent when it stands here, of a file with these contents.

A strict child does not end a transfer early unless the queue of its client is gone.
-/
def ChildPc.Sent (strict : Prop) (file : Option Bytes) (gone : Prop) (sent : List ResponseMsg) :
    ChildPc → Prop
  | .openFile | .sendFailure => sent = []
  | .read rest => AllData sent ∧ file = some (fileData sent ++ rest)
  | .sendData numRead rest => AllData sent ∧ file = some (fileData sent ++ (numRead ++ rest))
  | .sendEnd => AllData sent ∧ ∃ rest, file = some (fileData sent ++ rest) ∧
      (strict → gone ∨ rest = [])
  | .exited => sent = [] ∨ sent = [⟨.failure, couldntOpen⟩] ∨
      ∃ front rest, (sent = front ∨ sent = front ++ [⟨.end_, []⟩] ∧ (strict → rest = [])) ∧
        AllData front ∧ file = some (fileData front ++ rest)

/-- A transfer is cut short when a call fails before the end, and the client is still there. -/
def keepsGoing {ClientId : Type*} (state : State ClientId) : Actor ClientId × Answer → Prop
  | (.child child, .error) | (.child child, .eintr) =>
    ∀ req pc, state.children child = some ⟨req, pc⟩ →
      match pc with
      | .read rest => rest = []
      | .sendData _ _ => state.queues req.clientId = none
      | _ => True
  | _ => True

variable {ClientId : Type*}

/-- Where the request of a client can be. -/
inductive RequestPlace where
  | unsent
  | queued
  | inHand
  | child (child : Nat)
  deriving DecidableEq

/-- The client has not sent its request yet. -/
def ClientPc.unsent : ClientPc → Bool
  | .checkPathname | .msggetServer | .msggetPrivate | .atexit | .msgsnd => true
  | _ => false

/-- The request the server has received and not given to a child. -/
def ServerPc.inHand : ServerPc ClientId → Option (RequestMsg ClientId)
  | .fork req => some req
  | _ => none

/-- A request is on its way or has been given to a child. -/
def State.Carries (state : State ClientId) (req : RequestMsg ClientId) : Prop :=
  req ∈ state.serverQueue.getD [] ∨ state.server.inHand = some req ∨
    ∃ child pc, state.children child = some ⟨req, pc⟩

/-- What a client at this place has received. -/
def Client.Fits (client : Client) : Prop :=
  client.totBytes = (client.got.flatMap (·.data)).length ∧
  match client.pc with
  | .msgrcv => client.got ≠ []
  | .removeQueue .received | .exited .received =>
    (∃ resp ∈ client.got, resp.mtype ≠ .data) ∧
      ∀ resp, client.got = [resp] → resp.mtype ≠ .failure
  | .removeQueue _ | .exited _ => True
  | _ => client.got = []

/-- Everything the server can do to requests and children; it leaves the clients alone. -/
inductive ServerMove (state : State ClientId) : State ClientId → Prop
  | goes (server : ServerPc ClientId) (idle : server.inHand = none) :
    ServerMove state { state with server := server }
  | createQueue (server : ServerPc ClientId) (idle : server.inHand = none)
      (queue : Option (List (RequestMsg ClientId))) (empty : queue.getD [] = []) :
    ServerMove state { state with server := server, serverQueue := queue }
  | msgrcv (req : RequestMsg ClientId) (rest : List (RequestMsg ClientId))
      (here : state.server = .msgrcv) (queue : state.serverQueue = some (req :: rest)) :
    ServerMove state { state with server := .fork req, serverQueue := some rest }
  | fork (req : RequestMsg ClientId) (here : state.server = .fork req) :
    ServerMove state { state with
      server := .msgrcv
      children := Function.update state.children state.forked (some ⟨req, .openFile⟩)
      forked := state.forked + 1 }

/-- Every step of the server is one of these moves. -/
theorem serverStep_move {state next : State ClientId} {answer : Answer}
    (stepped : serverStep state answer = some next) : ServerMove state next := by
  cases here : state.server with
  | msgget =>
    cases answer <;> simp [serverStep, here] at stepped
    · exact stepped.2 ▸ .createQueue .sigaction rfl (some []) rfl
    · exact stepped ▸ .goes .exited rfl
  | sigaction =>
    cases answer <;> simp [serverStep, here] at stepped
    · exact stepped ▸ .goes .msgrcv rfl
    · exact stepped ▸ .goes .exited rfl
  | msgrcv =>
    cases answer <;> simp only [serverStep, here, Option.some.injEq, reduceCtorEq] at stepped
    · split at stepped
      · rename_i req rest queue
        exact Option.some.inj stepped ▸ .msgrcv req rest here queue
      · cases stepped
    · -- An interrupted `msgrcv` changes nothing.
      have same : ({ state with server := .msgrcv } : State ClientId) = state := by rw [← here]
      exact stepped ▸ same ▸ .goes .msgrcv rfl
    · exact stepped ▸ .goes .msgctl rfl
  | fork req =>
    cases answer <;> simp [serverStep, here] at stepped
    · exact stepped ▸ .fork req here
    · exact stepped ▸ .goes .msgctl rfl
  | msgctl =>
    cases answer <;> simp [serverStep, here] at stepped
    · exact stepped ▸ .createQueue .exited rfl none rfl
    · exact stepped ▸ .goes .exited rfl
  | exited => cases answer <;> simp [serverStep, here] at stepped

variable [DecidableEq ClientId]

/-- How often the request of a client is found at a place. -/
def State.count (state : State ClientId) (client : ClientId) : RequestPlace → Nat
  | .unsent => if (state.clients client).pc.unsent then 1 else 0
  | .queued => (state.serverQueue.getD []).countP (·.clientId = client)
  | .inHand => if state.server.inHand.map (·.clientId) = some client then 1 else 0
  | .child child =>
    if (state.children child).map (fun child => child.req.clientId) = some client then 1 else 0

/-- What holds in every state, and more where no transfer has been cut short. -/
structure Invariant (setup : Setup ClientId) (strict : Prop) (state : State ClientId) : Prop where
  ledger : Ledger state.count
  named : ∀ req, state.Carries req → req.pathname = setup.argument req.clientId
  children : ∀ child req pc, state.children child = some ⟨req, pc⟩ →
    pc.Sent strict (setup.files req.pathname) (state.queues req.clientId = none)
      (state.sent req.clientId)
  fresh : ∀ child, state.forked ≤ child → state.children child = none
  /-- Only its child sends to a client. -/
  silent : ∀ client, (∀ child req pc, state.children child = some ⟨req, pc⟩ →
    req.clientId ≠ client) → state.sent client = []
  fifo : ∀ client queue, state.queues client = some queue →
    state.sent client = (state.clients client).got ++ queue
  prefix_ : ∀ client, (state.clients client).got <+: state.sent client
  clients : ∀ client, (state.clients client).Fits

/-- Nothing has happened in the beginning. -/
theorem invariant_initial (setup : Setup ClientId) (strict : Prop) :
    Invariant setup strict initial := by
  refine ⟨fun client => ⟨.unsent, fun place => ?_⟩, ?_, ?_, ?_, ?_, ?_, ?_, ?_⟩
  · cases place <;> simp [State.count, initial, ClientPc.unsent, ServerPc.inHand]
  all_goals simp [initial, State.Carries, ServerPc.inHand, Client.Fits]

/-- Two children of one client are the same child. -/
theorem Invariant.eq_of_children {setup : Setup ClientId} {strict : Prop}
    {state : State ClientId} (invariant : Invariant setup strict state) {first second : Nat}
    {one two : Child ClientId} (here : state.children first = some one)
    (there : state.children second = some two) (same : one.req.clientId = two.req.clientId) :
    first = second := by
  -- Each request is in one place, so it cannot be with two children.
  by_contra different
  have found : 0 < state.count one.req.clientId (.child first) := by simp [State.count, here]
  have nowhere := invariant.ledger.eq_zero_of_pos (.child second) found
    (by simpa using Ne.symm different)
  simp [State.count, there, same] at nowhere

/-- A client whose request has not reached a child has been sent nothing. -/
theorem Invariant.sent_eq_nil {setup : Setup ClientId} {strict : Prop} {state : State ClientId}
    (invariant : Invariant setup strict state) {client : ClientId} {place : RequestPlace}
    (found : 0 < state.count client place) (early : ∀ child, place ≠ .child child) :
    state.sent client = [] := by
  -- The request is with the client, in the queue, or in the server's hand, so no child serves it.
  refine invariant.silent client fun child req pc here mine => ?_
  have nowhere := invariant.ledger.eq_zero_of_pos (.child child) found (Ne.symm (early child))
  simp [State.count, here, mine] at nowhere

/-- Receiving a request takes it from the queue into the server's hand. -/
theorem transfer_msgrcv {state : State ClientId} {req : RequestMsg ClientId}
    {rest : List (RequestMsg ClientId)} (here : state.server = .msgrcv)
    (queue : state.serverQueue = some (req :: rest)) :
    Ledger.Transfer state.count
      ({ state with server := .fork req, serverQueue := some rest } : State ClientId).count
      req.clientId .queued .inHand := by
  -- The first request of the queue goes to the hand of the server; the other places keep theirs.
  refine ⟨nofun, fun client place => le_of_eq ?_⟩
  cases place <;> simp only [State.count, queue, here, ServerPc.inHand, Option.getD_some,
    List.countP_cons, Option.map_some, Option.map_none]
  all_goals grind

/-- A fork takes the request from the server's hand to the new child. -/
theorem transfer_fork {state : State ClientId} {req : RequestMsg ClientId}
    (here : state.server = .fork req) :
    Ledger.Transfer state.count
      ({ state with
        server := .msgrcv
        children := Function.update state.children state.forked (some ⟨req, .openFile⟩)
        forked := state.forked + 1 } : State ClientId).count
      req.clientId .inHand (.child state.forked) := by
  -- The request goes from the server to the child that fork() has made.
  refine ⟨nofun, fun client place => ?_⟩
  cases place <;> simp only [State.count, here, ServerPc.inHand, Function.update_apply,
    Option.map_some, Option.map_none]
  all_goals grind

/-- Every step of the server preserves the invariant. -/
theorem Invariant.serverStep {setup : Setup ClientId} {strict : Prop}
    {state next : State ClientId} {answer : Answer} (invariant : Invariant setup strict state)
    (stepped : serverStep state answer = some next) : Invariant setup strict next := by
  -- Only a fork adds a child, for a client that has been sent nothing yet.
  have named := invariant.named
  cases serverStep_move stepped with
  | goes server idle =>
    refine { invariant with ledger := invariant.ledger.shrink fun client place => ?_, named := ?_ }
    · cases place <;> simp [State.count, idle]
    · rintro req (queued | inHand | forked)
      · exact named req (.inl queued)
      · simp [idle] at inHand
      · exact named req (.inr (.inr forked))
  | createQueue server idle queue empty =>
    refine { invariant with ledger := invariant.ledger.shrink fun client place => ?_, named := ?_ }
    · cases place <;> simp [State.count, idle, empty]
    · rintro req (queued | inHand | forked)
      · simp [empty] at queued
      · simp [idle] at inHand
      · exact named req (.inr (.inr forked))
  | msgrcv req rest here queue =>
    refine { invariant with
      ledger := invariant.ledger.transfer (transfer_msgrcv here queue), named := ?_ }
    rintro other (queued | inHand | forked)
    · exact named other (.inl (by simp [queue, show other ∈ rest from queued]))
    · obtain rfl := Option.some.inj inHand
      exact named req (.inl (by simp [queue]))
    · exact named other (.inr (.inr forked))
  | fork req here =>
    have found : 0 < state.count req.clientId .inHand := by
      simp [State.count, here, ServerPc.inHand]
    have nothing := invariant.sent_eq_nil found nofun
    refine { invariant with
      ledger := invariant.ledger.transfer (transfer_fork here)
      named := ?_, children := fun child other pc there => ?_
      fresh := fun child later => ?_
      silent := fun client alone => invariant.silent client fun child other pc there => ?_ }
    · rintro other (queued | inHand | ⟨child, pc, there⟩)
      · exact named other (.inl queued)
      · cases inHand
      · by_cases new : child = state.forked
        · simp only [new, Function.update_self, Option.some.injEq, Child.mk.injEq] at there
          exact there.1 ▸ named req (.inr (.inl (by rw [here]; rfl)))
        · simp only [Function.update_of_ne new] at there
          exact named other (.inr (.inr ⟨child, pc, there⟩))
    · by_cases new : child = state.forked
      · simp only [new, Function.update_self, Option.some.injEq, Child.mk.injEq] at there
        obtain ⟨rfl, rfl⟩ := there
        exact nothing
      · simp only [Function.update_of_ne new] at there
        exact invariant.children child other pc there
    · have new : child ≠ state.forked := Nat.ne_of_gt later
      exact (Function.update_of_ne new _ _).trans
        (invariant.fresh child (Nat.le_of_succ_le later))
    · have new : child ≠ state.forked := by
        rintro rfl
        simp [invariant.fresh _ le_rfl] at there
      exact alone child other pc ((Function.update_of_ne new _ _).trans there)

/-- Everything a child can do: it goes on, or sends a response before it goes on. -/
inductive ChildMove (setup : Setup ClientId) (strict : Prop) (state : State ClientId)
    (child : Nat) : State ClientId → Prop
  | goes (req : RequestMsg ClientId) (pc pc_ : ChildPc)
      (here : state.children child = some ⟨req, pc⟩)
      (keeps : ∀ sent, pc.Sent strict (setup.files req.pathname)
          (state.queues req.clientId = none) sent →
        pc_.Sent strict (setup.files req.pathname) (state.queues req.clientId = none) sent) :
    ChildMove setup strict state child (state.childAt child req pc_)
  | sends (req : RequestMsg ClientId) (pc pc_ : ChildPc) (resp : ResponseMsg)
      (queue : List ResponseMsg) (here : state.children child = some ⟨req, pc⟩)
      (exists_ : state.queues req.clientId = some queue)
      (keeps : ∀ sent, pc.Sent strict (setup.files req.pathname)
          (state.queues req.clientId = none) sent →
        pc_.Sent strict (setup.files req.pathname) False (sent ++ [resp])) :
    ChildMove setup strict state child ({ state with
      queues := Function.update state.queues req.clientId (some (queue ++ [resp]))
      sent := Function.update state.sent req.clientId
        (state.sent req.clientId ++ [resp]) }.childAt child req pc_)

/-- Every step of a child is one of these moves; a strict one does not cut the transfer short. -/
theorem childStep_move {setup : Setup ClientId} {strict : Prop} {state next : State ClientId}
    {child : Nat} {answer : Answer} (keeps : strict → keepsGoing state (.child child, answer))
    (stepped : childStep setup state child answer = some next) :
    ChildMove setup strict state child next := by
  obtain ⟨⟨req, pc⟩, here, stepped⟩ := Option.bind_eq_some_iff.mp stepped
  -- Where the child goes on without a message, `keepsGoing` rules out the strict case.
  cases pc with
  | openFile =>
    cases answer <;> simp at stepped
    · obtain ⟨contents, file, rfl⟩ := stepped
      exact .goes req _ _ here fun sent empty => by simp_all [ChildPc.Sent]
    all_goals exact stepped ▸ .goes req _ _ here fun sent empty => empty
  | sendFailure =>
    cases answer <;> simp [State.msgsnd] at stepped
    · obtain ⟨queue, exists_, rfl⟩ := stepped
      exact .sends req _ _ _ queue here exists_ fun sent empty => by simp_all [ChildPc.Sent]
    all_goals exact stepped ▸ .goes req _ _ here fun sent empty => .inl empty
  | read rest =>
    cases answer <;> simp at stepped
    case bytes count =>
      obtain ⟨⟨_, fits, atEnd⟩, stepped⟩ := stepped
      split at stepped <;> rename_i some_ <;> obtain rfl := Option.some.inj stepped
      · exact .goes req _ _ here fun sent before => by simpa [ChildPc.Sent] using before
      · refine .goes req _ _ here fun sent before => ⟨before.1, rest, before.2, fun _ => .inr ?_⟩
        exact atEnd.mp (by omega)
    all_goals
      refine stepped ▸ .goes req _ _ here fun sent before =>
        ⟨before.1, rest, before.2, fun strict => ?_⟩
      exact .inr (keeps strict req _ here)
  | sendData numRead rest =>
    cases answer <;> simp [State.msgsnd] at stepped
    case ok =>
      obtain ⟨queue, exists_, rfl⟩ := stepped
      exact .sends req _ _ _ queue here exists_ fun sent before => by
        simpa [ChildPc.Sent] using before
    all_goals
      refine stepped ▸ .goes req _ _ here fun sent before =>
        ⟨before.1, numRead ++ rest, before.2, fun strict => ?_⟩
      exact .inl (keeps strict req _ here)
  | sendEnd =>
    cases answer <;> simp [State.msgsnd] at stepped
    · obtain ⟨queue, exists_, rfl⟩ := stepped
      refine .sends req _ _ _ queue here exists_ fun sent before => ?_
      obtain ⟨data, rest, file, complete⟩ := before
      exact .inr (.inr ⟨sent, rest,
        .inr ⟨rfl, fun strict => by simpa [exists_] using complete strict⟩,
        data, file⟩)
    all_goals
      refine stepped ▸ .goes req _ _ here fun sent before => ?_
      obtain ⟨data, rest, file, _⟩ := before
      exact .inr (.inr ⟨sent, rest, .inl rfl, data, file⟩)
  | exited => cases answer <;> simp at stepped

/-- No request moves when a child goes on. -/
theorem count_childAt {state next : State ClientId} {child : Nat} {req : RequestMsg ClientId}
    {pc pc_ : ChildPc} (here : state.children child = some ⟨req, pc⟩)
    (children : next.children = Function.update state.children child (some ⟨req, pc_⟩))
    (others : next.server = state.server ∧ next.serverQueue = state.serverQueue ∧
      next.clients = state.clients ∧ next.forked = state.forked) (client : ClientId)
    (place : RequestPlace) : next.count client place = state.count client place := by
  obtain ⟨server, serverQueue, clients, _⟩ := others
  -- The child keeps its request wherever it is, and nothing else has changed.
  cases place with
  | child other =>
    by_cases same : other = child
    · simp [State.count, children, same, here]
    · simp [State.count, children, same]
  | _ => simp [State.count, server, serverQueue, clients]

/-- A child that goes on preserves the invariant, if it does so at its own client. -/
theorem Invariant.childAt {setup : Setup ClientId} {strict : Prop} {state next : State ClientId}
    {child : Nat} {req : RequestMsg ClientId} {pc pc_ : ChildPc}
    (invariant : Invariant setup strict state) (here : state.children child = some ⟨req, pc⟩)
    (children : next.children = Function.update state.children child (some ⟨req, pc_⟩))
    (others : next.server = state.server ∧ next.serverQueue = state.serverQueue ∧
      next.clients = state.clients ∧ next.forked = state.forked)
    (elsewhere : ∀ client, client ≠ req.clientId →
      next.queues client = state.queues client ∧ next.sent client = state.sent client)
    (sent : pc_.Sent strict (setup.files req.pathname) (next.queues req.clientId = none)
      (next.sent req.clientId))
    (fifo : ∀ queue, next.queues req.clientId = some queue →
      next.sent req.clientId = (state.clients req.clientId).got ++ queue)
    (prefix_ : (state.clients req.clientId).got <+: next.sent req.clientId) :
    Invariant setup strict next := by
  -- Another child serves another client, whose queue is as it was.
  have there : ∀ other req_ pc, next.children other = some ⟨req_, pc⟩ →
      other = child ∧ req_ = req ∧ pc = pc_ ∨
        other ≠ child ∧ state.children other = some ⟨req_, pc⟩ := by
    intro other req_ pc there
    rw [children] at there
    by_cases same : other = child
    · simp only [same, Function.update_self, Option.some.injEq, Child.mk.injEq] at there
      exact .inl ⟨same, there.1.symm, there.2.symm⟩
    · exact .inr ⟨same, by rwa [Function.update_of_ne same] at there⟩
  have still : next.children child = some ⟨req, pc_⟩ := by rw [children, Function.update_self]
  obtain ⟨server, serverQueue, clients, forked⟩ := others
  refine ⟨invariant.ledger.shrink fun client place => (count_childAt here children
    ⟨server, serverQueue, clients, forked⟩ client place).le, ?_, ?_, ?_, ?_, ?_, ?_, ?_⟩
  · rintro req_ (queued | inHand | ⟨other, pc, found⟩)
    · exact invariant.named req_ (.inl (serverQueue ▸ queued))
    · exact invariant.named req_ (.inr (.inl (server ▸ inHand)))
    · rcases there other req_ pc found with ⟨_, rfl, _⟩ | ⟨_, found⟩
      · exact invariant.named _ (.inr (.inr ⟨child, _, here⟩))
      · exact invariant.named req_ (.inr (.inr ⟨other, pc, found⟩))
  · intro other req_ pc found
    rcases there other req_ pc found with ⟨_, rfl, rfl⟩ | ⟨different, found⟩
    · exact sent
    · have unequal : req_.clientId ≠ req.clientId := fun same =>
        different (invariant.eq_of_children found here same)
      rw [(elsewhere _ unequal).1, (elsewhere _ unequal).2]
      exact invariant.children other req_ pc found
  · intro other later
    rw [forked] at later
    have different : other ≠ child := by
      rintro rfl
      simp [invariant.fresh _ later] at here
    rw [children, Function.update_of_ne different]
    exact invariant.fresh other later
  · intro client alone
    have unequal : client ≠ req.clientId := (alone child req pc_ still).symm
    rw [(elsewhere client unequal).2]
    refine invariant.silent client fun other req_ pc found => ?_
    by_cases same : other = child
    · subst same
      rw [here] at found
      obtain ⟨rfl, _⟩ := by simpa using found
      exact unequal.symm
    · exact alone other req_ pc (by rw [children, Function.update_of_ne same, found])
  · intro client queue exists_
    rw [clients]
    by_cases same : client = req.clientId
    · subst same
      exact fifo queue exists_
    · rw [(elsewhere client same).1] at exists_
      rw [(elsewhere client same).2]
      exact invariant.fifo client queue exists_
  · intro client
    rw [clients]
    by_cases same : client = req.clientId
    · subst same
      exact prefix_
    · rw [(elsewhere client same).2]
      exact invariant.prefix_ client
  · exact clients ▸ invariant.clients

/-- Every step of a child that does not cut the transfer short preserves the strict invariant. -/
theorem Invariant.childStep {setup : Setup ClientId} {strict : Prop} {state next : State ClientId}
    {child : Nat} {answer : Answer} (invariant : Invariant setup strict state)
    (keeps : strict → keepsGoing state (.child child, answer))
    (stepped : childStep setup state child answer = some next) :
    Invariant setup strict next := by
  -- A step of a child either sends nothing, or one message to the client that it serves.
  cases childStep_move keeps stepped with
  | goes req pc pc_ here keeps =>
    exact invariant.childAt here rfl ⟨rfl, rfl, rfl, rfl⟩ (fun _ _ => ⟨rfl, rfl⟩)
      (keeps _ (invariant.children child req pc here)) (invariant.fifo req.clientId)
      (invariant.prefix_ req.clientId)
  | sends req pc pc_ resp queue here exists_ keeps =>
    -- The queue holds what was sent and not yet received, and the message goes to its end.
    have sent := invariant.fifo req.clientId queue exists_
    refine invariant.childAt here rfl ⟨rfl, rfl, rfl, rfl⟩ (fun client other =>
      ⟨Function.update_of_ne other _ _, Function.update_of_ne other _ _⟩) ?_ ?_ ?_
    · simpa [State.childAt] using keeps _ (invariant.children child req pc here)
    · simp [State.childAt, sent]
    · simp only [State.childAt, Function.update_self]
      exact (invariant.prefix_ req.clientId).trans (List.prefix_append _ _)

/-- A client that goes on preserves the invariant, if it does so for itself. -/
theorem Invariant.clientAt {setup : Setup ClientId} {strict : Prop} {state next : State ClientId}
    {client : ClientId} (invariant : Invariant setup strict state) (ledger : Ledger next.count)
    (named : ∀ req ∈ next.serverQueue.getD [], req.pathname = setup.argument req.clientId)
    (others : next.server = state.server ∧ next.children = state.children ∧
      next.forked = state.forked ∧ next.sent = state.sent)
    (elsewhere : ∀ other, other ≠ client →
      next.clients other = state.clients other ∧ next.queues other = state.queues other)
    (gone : (∃ child req pc, state.children child = some ⟨req, pc⟩ ∧ req.clientId = client) →
      state.queues client = none → next.queues client = none)
    (fifo : ∀ queue, next.queues client = some queue →
      state.sent client = (next.clients client).got ++ queue)
    (prefix_ : (next.clients client).got <+: state.sent client)
    (fits : (next.clients client).Fits) : Invariant setup strict next := by
  obtain ⟨server, children, forked, sent⟩ := others
  refine ⟨ledger, ?_, ?_, ?_, ?_, ?_, ?_, ?_⟩
  · rintro req (queued | inHand | found)
    · exact named req queued
    · exact invariant.named req (.inr (.inl (server ▸ inHand)))
    · exact invariant.named req (.inr (.inr (children ▸ found)))
  · intro child req pc found
    rw [children] at found
    have before := invariant.children child req pc found
    rw [sent]
    by_cases same : req.clientId = client
    · -- A queue that is gone stays so while its client has a child.
      have stays := gone ⟨child, req, pc, found, same⟩
      rw [← same] at stays
      cases pc with
      | sendEnd =>
        obtain ⟨data, rest, file, complete⟩ := before
        exact ⟨data, rest, file, fun strict => (complete strict).imp_left stays⟩
      | _ => exact before
    · rw [(elsewhere _ same).2]
      exact before
  · rw [forked, children]
    exact invariant.fresh
  · rw [children, sent]
    exact invariant.silent
  · intro other queue exists_
    rw [sent]
    by_cases same : other = client
    · subst same
      exact fifo queue exists_
    · rw [(elsewhere other same).2] at exists_
      rw [(elsewhere other same).1]
      exact invariant.fifo other queue exists_
  · intro other
    rw [sent]
    by_cases same : other = client
    · subst same
      exact prefix_
    · rw [(elsewhere other same).1]
      exact invariant.prefix_ other
  · intro other
    by_cases same : other = client
    · subst same
      exact fits
    · rw [(elsewhere other same).1]
      exact invariant.clients other

/-- A client that sends no request preserves the invariant, if it does so for itself. -/
theorem Invariant.clientAlone {setup : Setup ClientId} {strict : Prop}
    {state next : State ClientId} {client : ClientId} (invariant : Invariant setup strict state)
    (serverQueue : next.serverQueue = state.serverQueue)
    (unsent : (next.clients client).pc.unsent = true → (state.clients client).pc.unsent = true)
    (others : next.server = state.server ∧ next.children = state.children ∧
      next.forked = state.forked ∧ next.sent = state.sent)
    (elsewhere : ∀ other, other ≠ client →
      next.clients other = state.clients other ∧ next.queues other = state.queues other)
    (gone : (∃ child req pc, state.children child = some ⟨req, pc⟩ ∧ req.clientId = client) →
      state.queues client = none → next.queues client = none)
    (fifo : ∀ queue, next.queues client = some queue →
      state.sent client = (next.clients client).got ++ queue)
    (prefix_ : (next.clients client).got <+: state.sent client)
    (fits : (next.clients client).Fits) : Invariant setup strict next := by
  -- No request moves, but the client may give up its own.
  refine invariant.clientAt (invariant.ledger.shrink fun other place => ?_)
    (fun req queued => invariant.named req (.inl (serverQueue ▸ queued))) others elsewhere gone
    fifo prefix_ fits
  obtain ⟨server, children, _, _⟩ := others
  cases place with
  | unsent =>
    by_cases same : other = client
    · subst same
      simp only [State.count]
      split
      · rw [if_pos (unsent (by assumption))]
      · exact Nat.zero_le _
    · simp only [State.count, (elsewhere other same).1, le_refl]
  | _ => simp [State.count, server, serverQueue, children]

/-- A client that only goes on at another instruction preserves the invariant. -/
theorem Invariant.clientGoes {setup : Setup ClientId} {strict : Prop} {state : State ClientId}
    {client : ClientId} {pc : ClientPc} (invariant : Invariant setup strict state)
    (unsent : pc.unsent = true → (state.clients client).pc.unsent = true)
    (fits : ({ state.clients client with pc := pc } : Client).Fits) :
    Invariant setup strict (state.clientAt client pc) := by
  -- Only the place of this client has changed.
  refine invariant.clientAlone rfl ?_ ⟨rfl, rfl, rfl, rfl⟩
    (fun other different => ⟨Function.update_of_ne different _ _, rfl⟩) (fun _ gone => gone)
    ?_ ?_ ?_ <;> simp only [State.clientAt, Function.update_self]
  · exact unsent
  · exact invariant.fifo client
  · exact invariant.prefix_ client
  · exact fits

/-- A client that creates its queue preserves the invariant, since nobody has sent to it yet. -/
theorem Invariant.msggetPrivate {setup : Setup ClientId} {strict : Prop} {state : State ClientId}
    {client : ClientId} (invariant : Invariant setup strict state)
    (here : (state.clients client).pc = .msggetPrivate) :
    Invariant setup strict ({ state with
      queues := Function.update state.queues client (some []) }.clientAt client .atexit) := by
  -- This client has not sent its request, so no child serves it and nothing was sent to it.
  have found : 0 < state.count client .unsent := by simp [State.count, here, ClientPc.unsent]
  have nothing := invariant.sent_eq_nil found nofun
  have fits := invariant.clients client
  simp only [Client.Fits, here] at fits
  refine invariant.clientAlone rfl ?_ ⟨rfl, rfl, rfl, rfl⟩
    (fun other different => ⟨Function.update_of_ne different _ _,
      Function.update_of_ne different _ _⟩) ?_ ?_ ?_ ?_
  · simp [here, ClientPc.unsent]
  -- A child that serves it would have its request.
  · rintro ⟨child, req, pc, served, mine⟩
    have nowhere := invariant.ledger.eq_zero_of_pos (.child child) found nofun
    simp [State.count, served, mine] at nowhere
  · simp [State.clientAt, nothing, fits]
  · simp [State.clientAt, fits]
  · simp [State.clientAt, Client.Fits, fits]

/-- Sending a request takes it from the client to the server's queue. -/
theorem transfer_msgsnd {state : State ClientId} {req : RequestMsg ClientId}
    {requests : List (RequestMsg ClientId)} (here : (state.clients req.clientId).pc = .msgsnd)
    (queue : state.serverQueue = some requests) :
    Ledger.Transfer state.count
      ({ state with serverQueue := some (requests ++ [req]) }.clientAt req.clientId
        .firstMsgrcv).count req.clientId .unsent .queued := by
  -- The client has no request to send any more, and the queue has one more of its.
  refine ⟨nofun, fun other place => le_of_eq ?_⟩
  cases place <;> simp only [State.count, State.clientAt, queue, Option.getD_some,
    List.countP_append, List.countP_singleton, Function.update_apply]
  all_goals grind [ClientPc.unsent]

/-- A client that sends its request preserves the invariant. -/
theorem Invariant.clientMsgsnd {setup : Setup ClientId} {strict : Prop} {state : State ClientId}
    (invariant : Invariant setup strict state) (req : RequestMsg ClientId)
    {requests : List (RequestMsg ClientId)}
    (here : (state.clients req.clientId).pc = .msgsnd)
    (queue : state.serverQueue = some requests)
    (named : req.pathname = setup.argument req.clientId) :
    Invariant setup strict ({ state with
      serverQueue := some (requests ++ [req]) }.clientAt req.clientId .firstMsgrcv) := by
  have fits := invariant.clients req.clientId
  simp only [Client.Fits, here] at fits
  refine invariant.clientAt (invariant.ledger.transfer (transfer_msgsnd here queue)) ?_
    ⟨rfl, rfl, rfl, rfl⟩ (fun other different => ⟨Function.update_of_ne different _ _, rfl⟩)
    (fun _ gone => gone) ?_ ?_ ?_
  · intro other queued
    -- The old requests name what they named, and the new one names the client's argument.
    rcases List.mem_append.mp queued with old | new
    · exact invariant.named other (.inl (by simpa [queue] using old))
    · exact List.mem_singleton.mp new ▸ named
  · simpa [State.clientAt] using invariant.fifo req.clientId
  · simpa [State.clientAt] using invariant.prefix_ req.clientId
  · simp [State.clientAt, Client.Fits, fits]

/-- A client that receives a response preserves the invariant. -/
theorem Invariant.clientMsgrcv {setup : Setup ClientId} {strict : Prop}
    {state next : State ClientId} {client : ClientId} {after : RespType → ClientPc}
    (invariant : Invariant setup strict state)
    (received : state.msgrcv client after = some next)
    (sent : ∀ mtype, (after mtype).unsent = false)
    (fits : ∀ resp, ({ state.clients client with
      pc := after resp.mtype
      totBytes := (state.clients client).totBytes + resp.data.length
      got := (state.clients client).got ++ [resp] } : Client).Fits) :
    Invariant setup strict next := by
  unfold State.msgrcv at received
  split at received
  · rename_i resp rest queue
    obtain rfl := Option.some.inj received
    -- What is received is the oldest of what was sent and not yet received.
    have order := invariant.fifo client _ queue
    refine invariant.clientAlone rfl ?_ ⟨rfl, rfl, rfl, rfl⟩
      (fun other different => ⟨Function.update_of_ne different _ _,
        Function.update_of_ne different _ _⟩) ?_ ?_ ?_ ?_
    · simp [sent]
    · simp [queue]
    · simp [order]
    · simp [order]
    · simpa [Client.Fits] using fits resp
  -- An empty queue lets the client wait.
  · cases received

/-- A client that removes its queue preserves the invariant. -/
theorem Invariant.removeQueue {setup : Setup ClientId} {strict : Prop} {state : State ClientId}
    {client : ClientId} {outcome : Outcome} (invariant : Invariant setup strict state)
    (here : (state.clients client).pc = .removeQueue outcome) :
    Invariant setup strict ({ state with
      queues := Function.update state.queues client none }.clientAt client (.exited outcome)) := by
  -- The client has read all that it wants, so nothing is said of its queue any more.
  have fits := invariant.clients client
  refine invariant.clientAlone rfl ?_ ⟨rfl, rfl, rfl, rfl⟩
    (fun other different => ⟨Function.update_of_ne different _ _,
      Function.update_of_ne different _ _⟩) ?_ ?_ ?_ ?_
  · simp [State.clientAt, ClientPc.unsent]
  · simp [State.clientAt]
  · simp [State.clientAt]
  · simpa [State.clientAt] using invariant.prefix_ client
  · cases outcome <;> simpa [State.clientAt, Client.Fits, here] using fits

/-- Every step of a client preserves the invariant. -/
theorem Invariant.clientStep {setup : Setup ClientId} {strict : Prop}
    {state next : State ClientId} {client : ClientId} {answer : Answer}
    (invariant : Invariant setup strict state)
    (stepped : clientStep setup state client answer = some next) :
    Invariant setup strict next := by
  -- One case per instruction and answer; most of them only go on at another instruction.
  have fits := invariant.clients client
  cases here : (state.clients client).pc <;> cases answer <;>
    simp only [Svmsg.clientStep, here, Option.some.injEq, Option.ite_none_right_eq_some,
      Option.map_eq_some_iff, reduceCtorEq] at stepped <;>
    simp only [Client.Fits, here] at fits
  case checkPathname.ok =>
    subst stepped
    split
    · exact invariant.clientGoes (by simp [ClientPc.unsent]) (by simp [Client.Fits, fits])
    · exact invariant.clientGoes (by simp [here, ClientPc.unsent]) (by simp [Client.Fits, fits])
  case msggetPrivate.ok => exact stepped ▸ invariant.msggetPrivate here
  case msgsnd.ok =>
    obtain ⟨requests, queue, rfl⟩ := stepped
    exact invariant.clientMsgsnd ⟨client, setup.argument client⟩ here queue rfl
  case firstMsgrcv.ok =>
    refine invariant.clientMsgrcv stepped (fun mtype => by cases mtype <;> rfl) fun resp => ?_
    cases mtype : resp.mtype <;>
      simp [Client.Fits, afterFirstResponse, afterResponse, mtype, fits]
  case msgrcv.ok =>
    refine invariant.clientMsgrcv stepped (fun mtype => by cases mtype <;> rfl) fun resp => ?_
    have several : ∀ only, (state.clients client).got ++ [resp] ≠ [only] := fun only single =>
      fits.2 (by simpa using congrArg List.length single)
    cases mtype : resp.mtype <;> simp [Client.Fits, afterResponse, mtype, fits, several]
  case removeQueue.ok outcome => exact stepped ▸ invariant.removeQueue here
  case msggetServer.ok =>
    exact stepped.2 ▸
      invariant.clientGoes (by simp [here, ClientPc.unsent]) (by simp [Client.Fits, fits])
  case removeQueue.error outcome =>
    refine stepped ▸ invariant.clientGoes (by simp [ClientPc.unsent]) ?_
    cases outcome <;> simpa [Client.Fits] using fits
  all_goals
    exact stepped ▸
      invariant.clientGoes (by simp [here, ClientPc.unsent]) (by simp [Client.Fits, fits])

/-- Every step that cuts no transfer short preserves the strict invariant. -/
theorem Invariant.step {setup : Setup ClientId} {strict : Prop} {state next : State ClientId}
    {action : Actor ClientId × Answer} (invariant : Invariant setup strict state)
    (keeps : strict → keepsGoing state action)
    (stepped : (fileServer setup).step state action = some next) :
    Invariant setup strict next := by
  -- The action says whose step it is.
  obtain ⟨actor, answer⟩ := action
  cases actor with
  | server => exact invariant.serverStep stepped
  | child child => exact invariant.childStep keeps stepped
  | client client => exact invariant.clientStep stepped

/-- Whatever a child has sent, it could have stopped there. -/
theorem ChildPc.Sent.exited {strict gone : Prop} {file : Option Bytes}
    {sent : List ResponseMsg} {pc : ChildPc} (before : pc.Sent strict file gone sent) :
    ChildPc.exited.Sent strict file gone sent := by
  -- Whatever the child has sent so far is what a child may have sent that ends now.
  cases pc with
  | openFile | sendFailure => exact .inl before
  | read rest => exact .inr (.inr ⟨sent, rest, .inl rfl, before.1, before.2⟩)
  | sendData numRead rest =>
    exact .inr (.inr ⟨sent, numRead ++ rest, .inl rfl, before.1, before.2⟩)
  | sendEnd =>
    obtain ⟨data, rest, file, _⟩ := before
    exact .inr (.inr ⟨sent, rest, .inl rfl, data, file⟩)
  | exited => exact before

/-- The responses that a client has received, and the file that they are about. -/
theorem Invariant.got {setup : Setup ClientId} {strict : Prop} {state : State ClientId}
    (invariant : Invariant setup strict state) (client : ClientId) :
    (state.clients client).got = [] ∨ (state.clients client).got = [⟨.failure, couldntOpen⟩] ∨
      ∃ front rest, ((state.clients client).got = front ∨
          (state.clients client).got = front ++ [⟨.end_, []⟩] ∧ (strict → rest = [])) ∧
        AllData front ∧ setup.files (setup.argument client) = some (fileData front ++ rest) := by
  -- What a client has received is the beginning of what its child has sent.
  have beginning := invariant.prefix_ client
  by_cases served : ∃ child req pc, state.children child = some ⟨req, pc⟩ ∧ req.clientId = client
  · obtain ⟨child, req, pc, here, rfl⟩ := served
    have named := invariant.named req (.inr (.inr ⟨child, pc, here⟩))
    rcases (invariant.children child req pc here).exited with
      nothing | failed | ⟨front, rest, sent, data, file⟩
    · rw [nothing] at beginning
      exact .inl (List.prefix_nil.mp beginning)
    · rw [failed] at beginning
      rcases List.prefix_cons_iff.mp beginning with nothing | ⟨more, all, none_⟩
      · exact .inl nothing
      · exact .inr (.inl (List.prefix_nil.mp none_ ▸ all))
    · rw [named] at file
      have part : ∀ got, got <+: front → ∃ rest,
          AllData got ∧
            setup.files (setup.argument req.clientId) = some (fileData got ++ rest) := by
        rintro got ⟨later, rfl⟩
        rw [fileData_append, List.append_assoc] at file
        exact ⟨_, (allData_append.mp data).1, file⟩
      rcases sent with sent | ⟨sent, complete⟩
      · rw [sent] at beginning
        obtain ⟨more, data, file⟩ := part _ beginning
        exact .inr (.inr ⟨_, more, .inl rfl, data, file⟩)
      · rw [sent] at beginning
        rcases List.prefix_concat_iff.mp beginning with all | some_
        · exact .inr (.inr ⟨front, rest, .inr ⟨all, complete⟩, data, file⟩)
        · obtain ⟨more, data, file⟩ := part _ some_
          exact .inr (.inr ⟨_, more, .inl rfl, data, file⟩)
  · have nothing := invariant.silent client fun child req pc here mine =>
      served ⟨child, req, pc, here, mine⟩
    rw [nothing] at beginning
    exact .inl (List.prefix_nil.mp beginning)

/-- Whether or not a transfer is cut short, a client receives the beginning of its own file. -/
theorem received_prefix {setup : Setup ClientId} {state : State ClientId}
    {actions : List (Actor ClientId × Answer)}
    (ran : (fileServer setup).run initial actions = some state) (client : ClientId) :
    (state.clients client).received = [] ∨ ∃ contents,
      setup.files (setup.argument client) = some contents ∧
      (state.clients client).received <+: contents := by
  -- Without any condition on the run, the invariant holds in its weaker form.
  have invariant : Invariant setup False state :=
    Machine.run_invariant (fun _ _ _ invariant stepped => invariant.step False.elim stepped)
      (invariant_initial setup False) ran
  -- Nothing came, or the message of a failure, or data from the front of the file.
  rcases invariant.got client with nothing | failed | ⟨front, rest, got, data, file⟩
  · exact .inl (by simp [Client.received, nothing])
  · exact .inl (by simp [Client.received, failed, fileData])
  · refine .inr ⟨_, file, ?_⟩
    rcases got with got | ⟨got, _⟩ <;> simp [Client.received, got]

/-- The client has printed how many bytes it received, or is about to exit after that. -/
def Client.reports (client : Client) : Prop :=
  client.pc = .removeQueue .received ∨ client.pc = .exited .received

/--
Unless a transfer is cut short, a client that is told of the end has received its whole file.

The same holds of a client that reports what it has received. It has then received each byte of its
own file once and in order, and counted them.
-/
theorem received_complete {setup : Setup ClientId} {state : State ClientId}
    {actions : List (Actor ClientId × Answer)}
    (ran : (fileServer setup).run initial actions = some state)
    (along : (fileServer setup).Along keepsGoing initial actions) (client : ClientId)
    (told : (state.clients client).toldComplete ∨ (state.clients client).reports) :
    setup.files (setup.argument client) = some (state.clients client).received ∧
      (state.clients client).totBytes = (state.clients client).received.length := by
  -- The end is only sent, and the loop of the client only left, when nothing is left to send.
  have invariant : Invariant setup True state :=
    Machine.run_invariant_along (fun _ _ _ invariant keeps stepped =>
      invariant.step (fun _ => keeps) stepped) (invariant_initial setup True) along ran
  have fits := invariant.clients client
  have other : ∃ resp ∈ (state.clients client).got, resp.mtype ≠ .data ∧
      ((state.clients client).got = [resp] → resp.mtype ≠ .failure) := by
    rcases told with ⟨resp, got, isEnd⟩ | here | here
    · exact ⟨resp, got, by simp [isEnd], by simp [isEnd]⟩
    all_goals
      simp only [Client.Fits, here] at fits
      obtain ⟨_, ⟨resp, got, notData⟩, notFailure⟩ := fits
      exact ⟨resp, got, notData, notFailure resp⟩
  obtain ⟨resp, mem, notData, notFailure⟩ := other
  rcases invariant.got client with
    nothing | failed | ⟨front, rest, got | ⟨got, complete⟩, data, file⟩
  · simp [nothing] at mem
  · rw [failed, List.mem_singleton] at mem
    subst mem
    exact absurd rfl (notFailure failed)
  · exact absurd (data resp (got ▸ mem)) notData
  · rw [complete trivial, List.append_nil] at file
    have all : front.flatMap (·.data) = fileData front := by
      rw [fileData, List.filter_eq_self.mpr fun resp mem => by simpa using data resp mem]
    have received : (state.clients client).received = fileData front := by
      simp [Client.received, got]
    refine ⟨received ▸ file, ?_⟩
    rw [received, fits.1, got, List.flatMap_append, all]
    simp

/-- One client asks for the file `f`, which has two bytes. -/
def twoByteFile : Setup Unit where
  files pathname := if pathname = [102] then some [1, 2] else none
  argument _ := [102]

/-- The server starts, the client sends its request, and a child opens the file. -/
def requestRun : List (Actor Unit × Answer) :=
  [(.server, .ok), (.server, .ok), (.client (), .ok), (.client (), .ok), (.client (), .ok),
    (.client (), .ok), (.client (), .ok), (.server, .ok), (.server, .ok), (.child 0, .ok)]

/-- The child sends the file and the end, and the client receives both. -/
def wholeRun : List (Actor Unit × Answer) :=
  requestRun ++ [(.child 0, .bytes 2), (.child 0, .ok), (.child 0, .bytes 0), (.child 0, .ok),
    (.client (), .ok), (.client (), .ok)]

/-- No call fails in this run, so the client has received the whole file. -/
theorem received_complete_twoBytes : ∃ state,
    (fileServer twoByteFile).run initial wholeRun = some state ∧
    (state.clients ()).received = [1, 2] ∧ (state.clients ()).totBytes = 2 := by
  -- No read() of this run fails.
  have along : (fileServer twoByteFile).Along keepsGoing initial wholeRun := by
    refine Machine.along_of_mem (fun action mem state => ?_) _
    simp only [wholeRun, requestRun, List.cons_append, List.nil_append, List.mem_cons,
      List.not_mem_nil, or_false] at mem
    rcases mem with rfl | rfl | rfl | rfl | rfl | rfl | rfl | rfl | rfl | rfl | rfl | rfl | rfl |
      rfl | rfl | rfl <;> trivial
  -- The client is told that the file is complete, so the theorem says what it got.
  obtain ⟨state, ran, told⟩ : ∃ state,
      (fileServer twoByteFile).run initial wholeRun = some state ∧ (state.clients ()).reports :=
    ⟨_, rfl, .inl rfl⟩
  have complete := received_complete ran along () (.inr told)
  have received : [1, 2] = (state.clients ()).received := Option.some.inj complete.1
  exact ⟨state, ran, received.symm, by rw [complete.2, ← received]; rfl⟩

/-- The second `read` of the child fails, and the child sends the end all the same. -/
def readErrorRun : List (Actor Unit × Answer) :=
  requestRun ++ [(.child 0, .bytes 1), (.child 0, .ok), (.child 0, .error), (.child 0, .ok),
    (.client (), .ok), (.client (), .ok)]

/-- Where a `read` fails, a client is told that its file is complete when it is not. -/
theorem toldComplete_of_read_error : ¬ ∀ (setup : Setup Unit)
    (actions : List (Actor Unit × Answer)) (state : State Unit),
    (fileServer setup).run initial actions = some state → ∀ client,
    (state.clients client).toldComplete →
    setup.files (setup.argument client) = some (state.clients client).received := by
  -- read() brings the first byte and then fails, and RESP_MT_END is sent all the same.
  intro always
  obtain ⟨state, ran, got⟩ : ∃ state,
      (fileServer twoByteFile).run initial readErrorRun = some state ∧
      (state.clients ()).got = [⟨.data, [1]⟩, ⟨.end_, []⟩] := ⟨_, rfl, rfl⟩
  have whole := always twoByteFile readErrorRun state ran () ⟨⟨.end_, []⟩, by simp [got], rfl⟩
  simp [Client.received, got, fileData, twoByteFile] at whole

end SysProg.Svmsg
