import SysProg.Sockets.SetUp

/-! Which sockets and address lists are left over when a socket is set up. -/

namespace SysProg.Sockets.SetUp

open Descriptors

/-- A call of one of the five functions, with the answers of the system. -/
inductive Call where
  | inetConnect (list : Option (List Addrinfo))
  | inetListen (addrlen : Bool) (list : Option (List Addrinfo)) (listen : Answer)
  | inetBind (addrlen : Bool) (list : Option (List Addrinfo))
  | unixConnect (path : Option (List UInt8)) (socket connect : Answer)
  | unixBind (path : Option (List UInt8)) (socket bind : Answer)

variable (world : World)

/-- What the function returns. -/
def Call.run (process : Process) : Call → Int × Process
  | .inetConnect list => SetUp.inetConnect world list process
  | .inetListen addrlen list listen =>
    let socket := SetUp.inetListen world addrlen list listen process
    (socket.value, socket.process)
  | .inetBind addrlen list =>
    let socket := SetUp.inetBind world addrlen list process
    (socket.value, socket.process)
  | .unixConnect path socket connect => SetUp.unixConnect world path socket connect process
  | .unixBind path socket bind => SetUp.unixBind world path socket bind process

/-- Before the call, with these descriptors. -/
def Process.start (table : List (Nat × Unit)) (nodup : (table.map Prod.fst).Nodup)
    (errno : Int) : Process :=
  ⟨Descriptors.start table nodup, errno, 0, 0⟩

/-- Nothing is left over but the socket that is returned. -/
structure Clean (before : List (Nat × Unit)) (result : Int × Process) : Prop where
  failed : result.1 = -1 → Since before result.2.fds []
  succeeded : result.1 ≠ -1 → ∃ fd : Nat, result.1 = fd ∧ Since before result.2.fds [(fd, ())]
  freed : result.2.freed = result.2.obtained

/-- An address for which a socket is bound, when none has been for those before it. -/
def Binds (list : List Addrinfo) : Prop :=
  ∃ front address back, list = front ++ address :: back ∧
    (∀ earlier ∈ front, earlier.socket ≠ none ∨
      earlier.setsockopt = none ∧ earlier.establish ≠ none) ∧
    address.socket = none ∧ address.setsockopt = none ∧ address.establish = none

/-- A socket has been bound, and `listen` fails. -/
def Call.ListenFails : Call → Prop
  | .inetListen _ (some list) (some _) => Binds list
  | _ => False

variable {world : World} {before : List (Nat × Unit)} {process : Process}

variable (world) in
/-- A new socket is to be closed. -/
theorem since_socket (since : Since before process.fds []) :
    Since before (process.socket world).2.fds [((process.socket world).1, ())] :=
  since.openNew world.numbering ()

variable (world) in
/-- A socket that is closed is not left over, whatever has failed before. -/
theorem since_close {fd : Nat} (errno : Int) (since : Since before process.fds [(fd, ())]) :
    Since before ((process.fail errno).close world fd).fds [] := by
  have last : Since before process.fds ([] ++ (fd, ()) :: []) := since
  -- The descriptor was the last one opened.
  obtain ⟨after, closed, left⟩ := last.close
  show Since before ((process.fds.close fd).getD process.fds) []
  rw [closed]
  exact left

/-- What has been obtained and freed. -/
def Process.lists (process : Process) : Nat × Nat :=
  (process.obtained, process.freed)

@[simp] theorem Process.lists_fail (process : Process) (errno : Int) :
    (process.fail errno).lists = process.lists :=
  rfl

@[simp] theorem Process.lists_socket (process : Process) :
    (process.socket world).2.lists = process.lists :=
  rfl

@[simp] theorem Process.lists_close (process : Process) (fd : Nat) :
    (process.close world fd).lists = process.lists :=
  rfl

variable (world) in
/-- What is left over after the loop of `inetConnect`. -/
theorem connectLoop_since (list : List Addrinfo) (since : Since before process.fds []) :
    Since before (connectLoop world list process).2.fds
        ((connectLoop world list process).1.toList.map fun fd => (fd, ())) ∧
      (connectLoop world list process).2.lists = process.lists := by
  -- A socket that cannot be connected is closed before the next one is created.
  induction list generalizing process with
  | nil => exact ⟨since, rfl⟩
  | cons rp rest ih =>
    unfold connectLoop
    cases rp.socket with
    | some errno => exact ih since
    | none =>
      cases rp.establish with
      | none => exact ⟨since_socket world since, rfl⟩
      | some errno => exact ih (since_close world errno (since_socket world since))

/-- What is left over after the loop of `inetPassiveSocket`. -/
def Passive.kept : Passive → List (Nat × Unit)
  | .bound sfd _ => [(sfd, ())]
  | _ => []

/-- How often the list has been freed in the loop. -/
def Passive.freed : Passive → Nat
  | .returned => 1
  | _ => 0

variable (world) in
/-- What is left over after the loop of `inetPassiveSocket`. -/
theorem passiveLoop_since (doListen : Bool) (list : List Addrinfo)
    (since : Since before process.fds []) :
    Since before (passiveLoop world doListen list process).2.fds
        (passiveLoop world doListen list process).1.kept ∧
      (passiveLoop world doListen list process).2.lists =
        (process.obtained, process.freed + (passiveLoop world doListen list process).1.freed) := by
  -- Each way out of the loop has closed the socket, or hands it over.
  induction list generalizing process with
  | nil => exact ⟨since, rfl⟩
  | cons rp rest ih =>
    unfold passiveLoop
    cases rp.socket with
    | some errno => exact ih since
    | none =>
      have new := since_socket world since
      cases doListen with
      | false =>
        cases rp.establish with
        | none => exact ⟨new, rfl⟩
        | some errno => exact ih (since_close world errno new)
      | true =>
        cases rp.setsockopt with
        | some errno => exact ⟨since_close world errno new, rfl⟩
        | none =>
          cases rp.establish with
          | none => exact ⟨new, rfl⟩
          | some errno => exact ih (since_close world errno new)

/-- The first address, or one of those behind it. -/
theorem binds_cons {rp : Addrinfo} {rest : List Addrinfo} :
    Binds (rp :: rest) ↔
      (rp.socket = none ∧ rp.setsockopt = none ∧ rp.establish = none) ∨
        (rp.socket ≠ none ∨ rp.setsockopt = none ∧ rp.establish ≠ none) ∧ Binds rest := by
  -- The first address binds, or it fails in one of the ways that go on.
  constructor
  · rintro ⟨front, address, back, same, failed, bound⟩
    cases front with
    | nil =>
      obtain ⟨rfl, -⟩ := List.cons.inj same
      exact .inl bound
    | cons first front =>
      obtain ⟨rfl, rfl⟩ := List.cons.inj same
      obtain ⟨here, later⟩ := List.forall_mem_cons.mp failed
      exact .inr ⟨here, front, address, back, rfl, later, bound⟩
  · rintro (bound | ⟨here, front, address, back, rfl, later, bound⟩)
    · exact ⟨[], rp, rest, rfl, nofun, bound⟩
    · exact ⟨rp :: front, address, back, rfl, List.forall_mem_cons.mpr ⟨here, later⟩, bound⟩

variable (world) in
/-- A loop with `doListen` binds a socket if there is an address for it. -/
theorem passiveLoop_bound_iff (list : List Addrinfo) (process : Process) :
    (∃ sfd rp, (passiveLoop world true list process).1 = .bound sfd rp) ↔ Binds list := by
  -- The induction follows the addresses.
  induction list generalizing process with
  | nil =>
    refine iff_of_false (fun ⟨_, _, same⟩ => nomatch same) ?_
    rintro ⟨front, address, back, same, -⟩
    exact absurd same (by simp)
  | cons rp rest ih =>
    rw [binds_cons]
    unfold passiveLoop
    cases rp.socket with
    | some errno => exact (ih _).trans (by simp)
    | none =>
      cases rp.setsockopt with
      | some errno => simp
      | none =>
        cases rp.establish with
        | none => simp
        | some errno => exact (ih _).trans (by simp)

/-- A call that returns a socket and has nothing else left over. -/
theorem clean_of_kept {value : Int} {fd : Nat} (same : value = fd)
    (since : Since before process.fds [(fd, ())]) (freed : process.freed = process.obtained) :
    Clean before (value, process) := by
  subst same
  exact ⟨nofun, fun _ => ⟨fd, rfl, since⟩, freed⟩

/-- A call that returns an error and has nothing left over. -/
theorem clean_of_nothing (since : Since before process.fds [])
    (freed : process.freed = process.obtained) : Clean before (-1, process) :=
  ⟨fun _ => since, fun other => absurd rfl other, freed⟩

/-- Nothing is left over by `inetConnect`. -/
theorem inetConnect_clean (list : Option (List Addrinfo)) (since : Since before process.fds [])
    (freed : process.freed = process.obtained) :
    Clean before (inetConnect world list process) := by
  cases list with
  | none => exact clean_of_nothing since freed
  | some result =>
    have got : Since before process.getaddrinfo.fds [] := since
    obtain ⟨left, lists⟩ := connectLoop_since world result got
    obtain ⟨obtained, freed_⟩ := Prod.mk.inj lists
    -- The list is freed behind the loop.
    unfold inetConnect
    have balanced : (connectLoop world result process.getaddrinfo).2.freeaddrinfo.freed =
        (connectLoop world result process.getaddrinfo).2.freeaddrinfo.obtained := by
      show (connectLoop world result process.getaddrinfo).2.freed + 1 =
        (connectLoop world result process.getaddrinfo).2.obtained
      rw [obtained, freed_]
      exact congrArg (· + 1) freed
    cases found : (connectLoop world result process.getaddrinfo).1 with
    | none =>
      rw [found] at left
      simp only [found]
      exact clean_of_nothing left balanced
    | some sfd =>
      rw [found] at left
      simp only [found]
      exact clean_of_kept rfl left balanced

/-- A socket is left over when `listen` fails. -/
def ListenFails (doListen : Bool) (list : Option (List Addrinfo)) (listen : Answer) : Prop :=
  doListen = true ∧ listen ≠ none ∧ ∃ result ∈ list, Binds result

/-- Nothing is left over by `inetPassiveSocket` unless `listen` fails. -/
theorem inetPassiveSocket_clean_iff (addrlen doListen : Bool) (list : Option (List Addrinfo))
    (listen : Answer) (since : Since before process.fds [])
    (freed : process.freed = process.obtained) :
    Clean before ((inetPassiveSocket world addrlen doListen list listen process).value,
        (inetPassiveSocket world addrlen doListen list listen process).process) ↔
      ¬ ListenFails doListen list listen := by
  cases list with
  | none => exact iff_of_true (clean_of_nothing since freed) fun fails => by simpa using fails.2.2
  | some result =>
    have got : Since before process.getaddrinfo.fds [] := since
    obtain ⟨left, lists⟩ := passiveLoop_since world doListen result got
    have bound := fun fails : ListenFails doListen (some result) listen =>
      (passiveLoop_bound_iff world result process.getaddrinfo).mpr
        (by simpa using fails.2.2)
    unfold inetPassiveSocket
    dsimp only
    generalize ended : passiveLoop world doListen result process.getaddrinfo = ends at left lists
    obtain ⟨passive, after⟩ := ends
    obtain ⟨obtained, freed_⟩ := Prod.mk.inj lists
    dsimp only at left obtained freed_
    cases passive with
    | returned =>
      refine iff_of_true (clean_of_nothing left ?_) fun fails => ?_
      · rw [obtained, freed_]
        exact congrArg (· + 1) freed
      · obtain ⟨sfd, rp, same⟩ := bound fails
        rw [← fails.1, ended] at same
        exact nomatch same
    | exhausted =>
      refine iff_of_true (clean_of_nothing left ?_) fun fails => ?_
      · show after.freed + 1 = after.obtained
        rw [obtained, freed_]
        exact congrArg (· + 1) freed
      · obtain ⟨sfd, rp, same⟩ := bound fails
        rw [← fails.1, ended] at same
        exact nomatch same
    | bound sfd rp =>
      have balanced : after.freed + 1 = after.obtained := by
        rw [obtained, freed_]
        exact congrArg (· + 1) freed
      have clean : Clean before ((sfd : Int), after.freeaddrinfo) :=
        clean_of_kept rfl left balanced
      cases doListen with
      | false => exact iff_of_true clean fun fails => nomatch fails.1
      | true =>
        cases listen with
        | none => exact iff_of_true clean fun fails => absurd rfl fails.2.1
        | some errno =>
          -- The socket is still open.
          refine iff_of_false (fun clean => ?_) (not_not.mpr ⟨rfl, nofun, result, rfl, ?_⟩)
          · have table := (clean.failed rfl).table
            have there : after.fds.table = [] ++ before := table
            rw [left.table] at there
            exact absurd (congrArg List.length there) (by simp [Passive.kept])
          · exact (passiveLoop_bound_iff world result process.getaddrinfo).mp
              ⟨sfd, rp, by rw [ended]⟩

/-- Nothing is left over in the UNIX domain. -/
theorem unixSocket_clean (path : Option (List UInt8)) (socket establish : Answer)
    (since : Since before process.fds []) (freed : process.freed = process.obtained) :
    Clean before (unixSocket world path socket establish process) := by
  -- There is one socket, which is closed when it is of no use.
  unfold unixSocket
  cases unixBuildAddress path with
  | error errno => exact clean_of_nothing since freed
  | ok address =>
    cases socket with
    | some errno => exact clean_of_nothing since freed
    | none =>
      have new := since_socket world since
      cases establish with
      | none => exact clean_of_kept rfl new freed
      | some errno => exact clean_of_nothing (since_close world errno new) freed

/-- Nothing is left over by any of the functions if and only if `listen` does not fail. -/
theorem setUp_clean_iff (world : World) (call : Call) (table : List (Nat × Unit))
    (nodup : (table.map Prod.fst).Nodup) (errno : Int) :
    Clean table (call.run world (Process.start table nodup errno)) ↔ ¬ call.ListenFails := by
  -- Only listening can go wrong, and only one function listens.
  have since := since_start table nodup
  cases call with
  | inetConnect list => exact iff_of_true (inetConnect_clean list since rfl) nofun
  | inetListen addrlen list listen =>
    refine (inetPassiveSocket_clean_iff addrlen true list listen since rfl).trans (not_congr ?_)
    unfold ListenFails Call.ListenFails
    cases list <;> cases listen <;> simp
  | inetBind addrlen list =>
    refine (inetPassiveSocket_clean_iff addrlen false list none since rfl).trans (not_congr ?_)
    exact iff_of_false (fun fails => nomatch fails.1) nofun
  | unixConnect path socket connect =>
    exact iff_of_true (unixSocket_clean path socket connect since rfl) nofun
  | unixBind path socket bind =>
    exact iff_of_true (unixSocket_clean path socket bind since rfl) nofun

/-- A socket is bound to the first address. -/
def firstBinds (listen : Answer) : Call :=
  .inetListen false (some [⟨16, none, none, none⟩]) listen

/-- The theorem, for standard input and output and a socket on which can be listened. -/
theorem setUp_clean_iff_listening :
    Clean [(0, ()), (1, ())] ((firstBinds none).run ⟨.lowest, id⟩
        (Process.start [(0, ()), (1, ())] (by decide) 0)) ↔ ¬ (firstBinds none).ListenFails :=
  setUp_clean_iff ⟨.lowest, id⟩ (firstBinds none) [(0, ()), (1, ())] (by decide) 0

/-- A socket on which cannot be listened is left open. -/
theorem setUp_not_clean :
    ¬ ∀ (world : World) (call : Call) (table : List (Nat × Unit))
      (nodup : (table.map Prod.fst).Nodup) (errno : Int),
      Clean table (call.run world (Process.start table nodup errno)) := by
  intro promised
  -- The address is in use, and the socket stays open.
  have clean := promised ⟨.lowest, id⟩ (firstBinds (some 98)) [] List.nodup_nil 0
  have binds : Binds [⟨16, none, none, none⟩] := ⟨[], _, [], rfl, nofun, rfl, rfl, rfl⟩
  exact (inetPassiveSocket_clean_iff _ _ _ _ (since_start [] List.nodup_nil) rfl).mp clean
    ⟨rfl, nofun, _, rfl, binds⟩

end SysProg.Sockets.SetUp
