import SysProg.Lib.Pipeline
import SysProg.Lib.Tally

/-! Clients that send their input to a server, which serves one of them after the other. -/

namespace SysProg.Sockets.UsXfr

/-- The loop of a client, which copies `stdin` to a socket with room for so many bytes. -/
def usXfrCl (room : Nat) : Stage UInt8 := ⟨100, id, some room⟩

/-- The inner loop of the server, which transfers data from a connected socket to `stdout`. -/
def usXfrSv : Stage UInt8 := ⟨100, id, none⟩

/-- A client, whose socket is closed when its loop has finished. -/
structure Client where
  stdin : List UInt8
  loop : Segment UInt8

/-- The clients and the server, with the connections in the order in which they were made. -/
structure State (count : Nat) where
  clients : Fin count → Client
  connected : List (Fin count)
  /-- The connections that wait to be accepted. -/
  pending : List (Fin count)
  /-- The connection in `cfd`. -/
  serving : Option (Fin count)
  server : Segment UInt8

/-- What one of the processes does next. -/
inductive Action (count : Nat) where
  | connect (index : Fin count)
  | client (index : Fin count) (move : Move)
  | accept
  | server (move : Move)
  | close

variable {count : Nat}

/-- Before any of the clients has connected. -/
def initial (room : Nat) (inputs : Fin count → List UInt8) : State count where
  clients index := ⟨inputs index, (usXfrCl room).start⟩
  connected := []
  pending := []
  serving := none
  server := usXfrSv.start

/-- One step, when so many connections can wait. -/
def step (backlog : Nat) (state : State count) : Action count → Option (State count)
  | .connect index =>
    -- `connect` blocks while the queue of the listening socket is full.
    if ¬ state.connected.contains index ∧ state.pending.length < backlog then
      some { state with
        connected := state.connected ++ [index]
        pending := state.pending ++ [index] }
    else none
  | .client index move => do
    let client := state.clients index
    if state.connected.contains index then
      let (stdin, loop) ← client.loop.step client.stdin true move
      return { state with clients := Function.update state.clients index ⟨stdin, loop⟩ }
    else none
  | .accept =>
    match state.serving, state.pending with
    | none, index :: rest =>
      some { state with
        pending := rest
        serving := some index
        server := { state.server with finished := false } }
    | _, _ => none
  | .server move => do
    let index ← state.serving
    let client := state.clients index
    let (out, server) ← state.server.step client.loop.out client.loop.finished move
    let client := { client with loop := { client.loop with out } }
    return { state with clients := Function.update state.clients index client, server }
  | .close =>
    if state.serving.isSome ∧ state.server.finished then some { state with serving := none }
    else none

/-- The server and its clients, which take turns in any order. -/
def machine (count backlog : Nat) : Machine (State count) (Action count) where
  step := step backlog

/-- What the server has written to its `stdout`. -/
def State.stdout (state : State count) : List UInt8 := state.server.out

end SysProg.Sockets.UsXfr
