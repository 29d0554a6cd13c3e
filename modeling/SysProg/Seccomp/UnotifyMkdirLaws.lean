import SysProg.Seccomp.FunctionsLaws
import SysProg.Seccomp.UnotifyMkdir

/-! What the supervisor of `seccomp_unotify_mkdir` lets a target do, and what it does not. -/

namespace SysProg.Seccomp

variable {opts : CmdLineOpts} {supervisor next : MkdirSupervisor}

/-- The bytes of `"tmp"`. -/
def tmp : List UInt8 := [116, 109, 112]

/-- A pathname that leads below `/tmp`, once it is normalised. -/
def BelowTmp (pathname : List UInt8) : Prop :=
  Pathname.ProperDescendant [tmp] (Pathname.normalise pathname)

/-- An answer that creates nothing in the supervisor: an error, or the call goes on by itself. -/
def Answer.Declines (answer : Answer) : Prop :=
  answer.made = false ∧ (answer.resp.error < 0 ∨ answer.resp.flags = flagContinue)

/-- The supervisor creates directories below `/tmp` only, and declines everything else. -/
structure MkdirSupervisor.Confines (supervisor : MkdirSupervisor) : Prop where
  created : ∀ pathname ∈ supervisor.created, BelowTmp pathname
  answered : ∀ answer ∈ supervisor.sent, answer.Declines ∨
    answer.made = true ∧ ∃ pathname, answer.fetched = some pathname ∧ BelowTmp pathname
  /-- It creates no directory but those that it has been asked for. -/
  recorded : supervisor.pc = .recv →
    supervisor.created = (supervisor.sent.filter (·.made)).filterMap (·.fetched)

/--
Where a pathname behind `"/tmp/"` has been fetched, a directory is created only if the rest of it
has a name, and does not climb back to `/tmp` by its `..` components.
-/
def LeadsDown (supervisor : MkdirSupervisor) : MkdirAction → Prop
  | .made => ∀ pathname ∈ supervisor.session.fetched, slashTmpSlash <+: pathname →
    (Pathname.walkFrom tmp (.below 0) (pathname.drop slashTmpSlash.length)).IsBelow
  | _ => True

/-- A pathname behind `"/tmp/"` leads below `/tmp` exactly if the rest of it leads down. -/
theorem belowTmp_iff {pathname : List UInt8} (begins : slashTmpSlash <+: pathname) :
    BelowTmp pathname ↔
      (Pathname.walkFrom tmp (.below 0) (pathname.drop slashTmpSlash.length)).IsBelow := by
  obtain ⟨rest, rfl⟩ := begins
  -- The walk goes along the empty component before the first slash, and then enters `/tmp`.
  have walked : Pathname.walk tmp (slashTmpSlash ++ rest) =
      Pathname.walkFrom tmp (.below 0) rest := by
    have first : slashTmpSlash ++ rest =
        [] ++ Pathname.slash :: (tmp ++ Pathname.slash :: rest) := rfl
    rw [Pathname.walk, first, Pathname.walkFrom_append (by decide),
      Pathname.walkFrom_append (by decide)]
    rfl
  rw [BelowTmp, Pathname.properDescendant_iff, walked, List.drop_left]

/-- What is being done about the present notification, by the place of the supervisor. -/
def MkdirSupervisor.Decided (supervisor : MkdirSupervisor) : Prop :=
  let session := supervisor.session
  let recorded := (supervisor.sent.filter (·.made)).filterMap (·.fetched)
  match supervisor.pc with
  | .mkdir => session.fetched = some session.string ∧ slashTmpSlash <+: session.string ∧
    supervisor.created = recorded
  | .send true => session.fetched = some session.string ∧ BelowTmp session.string ∧
    supervisor.created = recorded ++ [session.string]
  | .send false => (session.resp.error < 0 ∨ session.resp.flags = flagContinue) ∧
    supervisor.created = recorded
  | _ => supervisor.created = recorded

/-- What holds in every state that the supervisor reaches where pathnames lead down. -/
structure MkdirSupervisor.Confined (supervisor : MkdirSupervisor) : Prop where
  created : ∀ pathname ∈ supervisor.created, BelowTmp pathname
  answered : ∀ answer ∈ supervisor.sent, answer.Declines ∨
    answer.made = true ∧ ∃ pathname, answer.fetched = some pathname ∧ BelowTmp pathname
  decided : supervisor.Decided

/-- A confined supervisor confines. -/
theorem MkdirSupervisor.Confined.confines (confined : supervisor.Confined) :
    supervisor.Confines where
  created := confined.created
  answered := confined.answered
  -- Back at the receive, every notification has been answered as it was decided.
  recorded atRecv := by
    have decided := confined.decided
    unfold MkdirSupervisor.Decided at decided
    rw [atRecv] at decided
    exact decided

/-- What the supervisor decides on leads to no other directory. -/
theorem decide_confined (session : Session) (confined : supervisor.Confined)
    (fetching : supervisor.pc = .fetch) (success : session.fetch.pc = .returned .success) :
    (supervisor.decide session).Confined := by
  have decided := confined.decided
  unfold MkdirSupervisor.Decided at decided
  rw [fetching] at decided
  -- The pathname begins with the prefix, or the call goes on, or it fails; only the first makes
  -- anything.
  unfold MkdirSupervisor.decide
  split
  next begins => exact ⟨confined.created, confined.answered, if_pos success, begins, decided⟩
  split
  · exact ⟨confined.created, confined.answered, .inr rfl, decided⟩
  · have negative : -(eopnotsupp : Int) < 0 := by decide
    exact ⟨confined.created, confined.answered, .inl negative, decided⟩

/-- Every step keeps the supervisor confined, where pathnames lead down. -/
theorem MkdirSupervisor.Confined.step {action : MkdirAction} (confined : supervisor.Confined)
    (leads : LeadsDown supervisor action)
    (stepped : mkdirStep opts supervisor action = some next) : next.Confined := by
  have declines := decide_confined supervisor.session.prepopulate confined
  obtain ⟨created, answered, decided⟩ := confined
  have placed := decided
  unfold MkdirSupervisor.Decided at placed
  unfold mkdirStep at stepped
  dsimp only at stepped
  split at stepped
  -- One case for each step of the loop, in the order of the source.
  next happening _ =>
    obtain ⟨session, happens, rfl⟩ := Option.map_eq_some_iff.mp stepped
    obtain ⟨world, happened, rfl⟩ := Session.happen_eq_some happens
    exact ⟨created, answered, decided⟩
  next id at_ =>
    obtain ⟨session, received, rfl⟩ := Option.map_eq_some_iff.mp stepped
    rw [at_] at placed
    exact ⟨created, answered, placed⟩
  next errno at_ =>
    rw [at_] at placed
    split at stepped <;> obtain rfl := Option.some.inj stepped
    · exact ⟨created, answered, decided⟩
    · exact ⟨created, answered, placed⟩
  -- The checks before the fetch answer nothing and create nothing.
  next at_ =>
    rw [at_] at placed
    split at stepped
    · obtain rfl := Option.some.inj stepped
      exact ⟨created, answered, placed⟩
    split at stepped <;> obtain rfl := Option.some.inj stepped
    · exact ⟨created, answered, placed⟩
    · exact ⟨created, answered, placed⟩
  next at_ =>
    rw [at_] at placed
    split at stepped <;> obtain rfl := Option.some.inj stepped
    · exact ⟨created, answered, placed⟩
    · exact ⟨created, answered, placed⟩
  next at_ =>
    rw [at_] at placed
    split at stepped <;> obtain rfl := Option.some.inj stepped
    · exact ⟨created, answered, placed⟩
    · exact ⟨created, answered, placed⟩
  next goesAlong at_ =>
    obtain ⟨session, fetched, rfl⟩ := Option.map_eq_some_iff.mp stepped
    rw [at_] at placed
    have moved : MkdirSupervisor.Decided { supervisor with session } := by
      simp only [MkdirSupervisor.Decided, at_]
      exact placed
    exact ⟨created, answered, moved⟩
  next at_ =>
    -- The fetch has succeeded, or the answer is an error.
    rw [at_] at placed
    split at stepped
    next returned =>
      obtain rfl := Option.some.inj stepped
      exact declines at_ returned
    next =>
      obtain rfl := Option.some.inj stepped
      have negative : -(einval : Int) < 0 := by decide
      exact ⟨created, answered, .inl negative, placed⟩
    next => exact nomatch stepped
  next at_ =>
    -- The pathname has the prefix that was tested, and leads down from there.
    rw [at_] at placed
    obtain rfl := Option.some.inj stepped
    obtain ⟨fetched, begins, recorded⟩ := placed
    have below : BelowTmp supervisor.session.string :=
      (belowTmp_iff begins).mpr (leads _ fetched begins)
    refine ⟨fun pathname mem => ?_, answered, fetched, below, ?_⟩
    · obtain old | new := List.mem_append.mp mem
      · exact created pathname old
      · exact List.mem_singleton.mp new ▸ below
    · show supervisor.created ++ _ = _
      rw [recorded]
      rfl
  next errno at_ =>
    rw [at_] at placed
    split at stepped
    next positive =>
      obtain rfl := Option.some.inj stepped
      refine ⟨created, answered, .inl ?_, placed.2.2⟩
      show -(errno : Int) < 0
      omega
    next => exact nomatch stepped
  next made at_ =>
    rw [at_] at placed
    obtain rfl := Option.some.inj stepped
    -- The answer is recorded with what was made for it.
    cases made with
    | false =>
      refine ⟨created, fun answer mem => ?_, ?_⟩
      · obtain old | new := List.mem_append.mp mem
        · exact answered answer old
        · exact .inl (List.mem_singleton.mp new ▸ ⟨rfl, placed.1⟩)
      · show supervisor.created = _
        simpa using placed.2
    | true =>
      obtain ⟨fetched, below, recorded⟩ := placed
      refine ⟨created, fun answer mem => ?_, ?_⟩
      · obtain old | new := List.mem_append.mp mem
        · exact answered answer old
        · exact .inr (List.mem_singleton.mp new ▸ ⟨rfl, _, fetched, below⟩)
      · show supervisor.created = _
        simpa [fetched] using recorded
  next at_ =>
    rw [at_] at placed
    split at stepped <;> obtain rfl := Option.some.inj stepped
    · exact ⟨created, answered, placed⟩
    · exact ⟨created, answered, placed⟩
  next => exact nomatch stepped

/-- What has been fetched is what the buffer holds. -/
theorem Session.eq_of_fetched {session : Session} {pathname : List UInt8}
    (fetched : pathname ∈ session.fetched) : pathname = session.string := by
  rw [Session.fetched] at fetched
  -- A pathname was fetched only with success, and then it is the string of the buffer.
  split at fetched
  · exact (Option.some.inj fetched).symm
  · cases fetched

/-- A pathname that does not lead down, and a directory that is created elsewhere. -/
theorem not_confines_of_leads {action : MkdirAction} (elsewhere : ¬ LeadsDown supervisor action)
    (stepped : mkdirStep opts supervisor action = some next) : ¬ next.Confines := by
  -- Only the step that makes a directory asks where its pathname leads.
  unfold mkdirStep at stepped
  dsimp only at stepped
  split at stepped
  case h_9 =>
    obtain rfl := Option.some.inj stepped
    intro confines
    apply elsewhere
    intro pathname fetched begins
    rw [← belowTmp_iff begins, Session.eq_of_fetched fetched]
    exact confines.created _ (List.mem_append_right _ List.mem_cons_self)
  case h_13 => exact nomatch stepped
  all_goals exact absurd trivial elsewhere

/--
Where pathnames behind `"/tmp/"` lead down, the supervisor confines the target to `/tmp`.

The first directory that is created from a pathname that does not lead down ends this.
-/
theorem mkdirSupervisor_confines {path : List UInt8} {actions : List MkdirAction}
    {supervisor : MkdirSupervisor}
    (along : (mkdirSupervisor opts).Along LeadsDown (MkdirSupervisor.initial path) actions)
    (ran : (mkdirSupervisor opts).run (MkdirSupervisor.initial path) actions = some supervisor) :
    supervisor.Confines ∧ ∀ action next, ¬ LeadsDown supervisor action →
      (mkdirSupervisor opts).step supervisor action = some next → ¬ next.Confines := by
  -- The supervisor stays confined along the run.
  have preserved : ∀ state action next, MkdirSupervisor.Confined state →
      LeadsDown state action → (mkdirSupervisor opts).step state action = some next →
      next.Confined := fun _ _ _ confined leads stepped => confined.step leads stepped
  have initial : (MkdirSupervisor.initial path).Confined :=
    ⟨(fun _ mem => absurd mem List.not_mem_nil), (fun _ mem => absurd mem List.not_mem_nil), rfl⟩
  have confined := Machine.run_invariant_along preserved initial along ran
  exact ⟨confined.confines, fun _ _ elsewhere stepped => not_confines_of_leads elsewhere stepped⟩

/-- Where a pathname leads can be found out. -/
instance (supervisor : MkdirSupervisor) : ∀ action, Decidable (LeadsDown supervisor action)
  | .made => inferInstanceAs (Decidable (∀ pathname ∈ supervisor.session.fetched, _ → _))
  | .happens _ | .recv _ | .recvFails _ | .checkNr | .checkId | .fetch _ | .decide
  | .mkdirFails _ | .send | .checkBye => isTrue trivial

/-- A process calls `mkdir` with a pathname at address 4096. -/
def callsMkdir (pathname : List UInt8) : List MkdirAction :=
  ([.spawn 7, .rewrite ⟨7, 0⟩ fun address => (pathname ++ [0])[address - 4096]?,
    .call ⟨7, 0⟩ ⟨nrMkdir, auditArchX8664, 0, fun _ => 4096⟩] : List Happening).map .happens

/-- The supervisor is notified of the call, and fetches the pathname. -/
def fetchesMkdir (pathname : List UInt8) : List MkdirAction :=
  callsMkdir pathname ++ [.recv 0, .checkNr] ++ List.replicate (pathname.length + 7) (.fetch true)

/-- The supervisor has a buffer of sixteen bytes that nothing has been written to. -/
def MkdirSupervisor.blank : MkdirSupervisor :=
  initial (List.replicate 16 1)

/-- `mkdir("/tmp/a/../b")` is confined. -/
theorem mkdirSupervisor_confines_below : ∃ supervisor,
    (mkdirSupervisor ⟨0⟩).run MkdirSupervisor.blank
      (fetchesMkdir (slashTmpSlash ++ [97, 47, 46, 46, 47, 98]) ++ [.decide, .made, .send]) =
        some supervisor ∧
    supervisor.created = [slashTmpSlash ++ [97, 47, 46, 46, 47, 98]] ∧ supervisor.Confines := by
  -- The pathname leads down, up and down again, and stays below /tmp.
  obtain ⟨supervisor, ran, created⟩ : ∃ supervisor,
      (mkdirSupervisor ⟨0⟩).run MkdirSupervisor.blank
        (fetchesMkdir (slashTmpSlash ++ [97, 47, 46, 46, 47, 98]) ++ [.decide, .made, .send]) =
          some supervisor ∧
      supervisor.created = [slashTmpSlash ++ [97, 47, 46, 46, 47, 98]] := ⟨_, rfl, rfl⟩
  exact ⟨supervisor, ran, created, (mkdirSupervisor_confines (by decide +kernel) ran).1⟩

/-- `mkdir("/tmp/../x")` is not: its prefix is right, and its walk leaves `/tmp`. -/
theorem mkdirSupervisor_escapes : ¬ ∀ opts path actions supervisor,
    (mkdirSupervisor opts).run (MkdirSupervisor.initial path) actions = some supervisor →
    supervisor.Confines := by
  intro confines
  -- The pathname begins with /tmp/ and climbs out of it again.
  obtain ⟨supervisor, ran, created⟩ : ∃ supervisor,
      (mkdirSupervisor ⟨0⟩).run MkdirSupervisor.blank
        (fetchesMkdir (slashTmpSlash ++ [46, 46, 47, 120]) ++ [.decide, .made]) =
          some supervisor ∧
      supervisor.created = [slashTmpSlash ++ [46, 46, 47, 120]] := ⟨_, rfl, rfl⟩
  have below : BelowTmp (slashTmpSlash ++ [46, 46, 47, 120]) :=
    (confines _ _ _ _ ran).created _ (created ▸ List.mem_singleton.mpr rfl)
  exact absurd ((Pathname.properDescendant_iff _ _).mp below) (by decide)

end SysProg.Seccomp
