import SysProg.Namespaces.UsernsOptions

/-! Which of the documented options `userns_child_exec` accepts and performs in order. -/

namespace SysProg.Namespaces.UsernsOptions

open Getopt (Answer Scan Takes)
open UsernsChildExec (CString)

/-- An option with its argument, as it is given. -/
abbrev Given := Char × Option CString

/-- A repeatable option, as `usage` describes it. -/
inductive Repeatable where
  /-- `-I`: push all possible capabilities into the inheritable set. -/
  | inheritable
  /-- `-A`: push all possible capabilities into the inheritable and ambient sets. -/
  | ambient
  /-- `-s <uid>`: set all process UIDs. -/
  | allUids (uid : CString)
  /-- `-S r,e,s`: set the real, effective and saved-set UIDs. -/
  | uids (res : CString)
  /-- `-b <bits>`: set the securebits flags. -/
  | securebits (bits : CString)
  /-- `-d`: display the process credentials and capabilities. -/
  | display
  /-- `-w <nsecs>`: wait for so many seconds. -/
  | wait (nsecs : CString)
  /-- `-x <caps>`: set the process capabilities. -/
  | capabilities (caps : CString)
  /-- `-X [peiba]{+|-}<cap-name>`: modify one or more process sets. -/
  | modify (spec : CString)
  deriving DecidableEq, Repr

/-- The options of `usage`, in the order of the text. -/
def usageOptions : List (Char × Bool) :=
  [('C', false), ('i', false), ('m', false), ('n', false), ('p', false), ('u', false),
    ('U', false), ('M', true), ('G', true), ('P', true), ('D', false), ('r', false),
    ('v', false),
    ('I', false), ('A', false), ('s', true), ('S', true), ('b', true), ('d', false),
    ('w', true), ('x', true), ('X', true)]

/-- The repeatable option that is given, if it is one. -/
def repeatableOf : Given → Option Repeatable
  | ('I', none) => some .inheritable
  | ('A', none) => some .ambient
  | ('s', some uid) => some (.allUids uid)
  | ('S', some res) => some (.uids res)
  | ('b', some bits) => some (.securebits bits)
  | ('d', none) => some .display
  | ('w', some nsecs) => some (.wait nsecs)
  | ('x', some caps) => some (.capabilities caps)
  | ('X', some spec) => some (.modify spec)
  | _ => none

/-- The repeatable options among those that are given, in their order. -/
def repeatables (given : List Given) : List Repeatable :=
  given.filterMap repeatableOf

/-- The letters that are given. -/
def letters (given : List Given) : List Char :=
  given.map Prod.fst

/-- What is to be done for a repeatable option, behind so many `-d`. -/
def Repeatable.perform (displayed : Nat) : Repeatable → Action
  | inheritable => .raiseInheritableAndAmbientCaps false
  | ambient => .raiseInheritableAndAmbientCaps true
  | allUids uid => .setresuid (atoi uid)
  | uids res => .setProcessUids res
  | securebits bits => .setSecurebits bits
  | display => .displayCredsAndCaps (displayed + 1)
  | wait nsecs => .sleep (atoi nsecs)
  | capabilities caps => .capSetProc caps
  | modify spec => .modifyIndividualCapability spec

/-- What is to be done for repeatable options, in their order. -/
def performs : Nat → List Repeatable → List Action
  | _, [] => []
  | displayed, repeatable :: later =>
    repeatable.perform displayed ::
      performs (if repeatable = .display then displayed + 1 else displayed) later

/-- A command line with these options, as `usage` has them, and this command behind them. -/
def Reads (arguments : List CString) (given : List Given) (command : List CString) : Prop :=
  Getopt.answers (Getopt.tableOf usageOptions) ⟨[], arguments⟩ =
    (given.map fun option => .option option.1 option.2, ⟨[], command⟩)

/-- What `usage` asks of a command line besides. -/
structure Allowed (given : List Given) (command : List CString) : Prop where
  /-- "If -r, -M, -G, or -P is specified, -U is required." -/
  user : (∃ letter ∈ letters given, letter ∈ ['r', 'M', 'G', 'P']) → 'U' ∈ letters given
  /-- "It is not permitted to specify both -r and either -M or -G." -/
  root : 'r' ∈ letters given → 'M' ∉ letters given ∧ 'G' ∉ letters given
  /-- "[options] cmd [arg...]". -/
  command : command ≠ []

/-- The options behind the parsing, be it that the program exits. -/
def outcome : Except (Exit × CmdOptions) CmdOptions → CmdOptions
  | .error (_, opts) => opts
  | .ok opts => opts

/-- All effects of the options are those of these actions, one after the other. -/
def Does (opts : CmdOptions) (actions : List Action) : Prop :=
  ∀ (World Error : Type) (act : Action → World → Except Error World) (world : World),
    performRepeatableOptions act opts world =
      actions.foldlM (fun world action => act action world) world

/-- The options of a command line are accepted and performed, unless there are too many. -/
structure Serves (arguments : List CString) : Prop where
  accepts : ∀ memory given command, Reads arguments given command → Allowed given command →
    (repeatables given).length ≤ maxOpt →
    ∃ opts, parseCommandOptions arguments memory = .ok opts ∧ opts.argv = command ∧
      Does opts (performs 0 (repeatables given))
  rejects : ∀ memory given command, Reads arguments given command →
    maxOpt < (repeatables given).length →
    ∃ exit, parseCommandOptions arguments memory = .error exit
  within : ∀ memory, ∀ i ≥ maxOpt,
    (outcome (parseCommandOptions arguments memory)).optList i = memory i

/-- The option string has the options of `usage`. -/
theorem tableOf_optstring :
    Getopt.tableOf (Getopt.optionString optstring) = Getopt.tableOf usageOptions := by
  -- The same letters are in both lists, and each takes an argument in both or in neither.
  have same : (usageOptions.map Prod.fst).all fun letter =>
      (Getopt.optionString optstring).lookup letter = usageOptions.lookup letter := by
    decide
  have incl : ((Getopt.optionString optstring).map Prod.fst).all fun letter =>
      letter ∈ usageOptions.map Prod.fst := by
    decide
  simp only [List.all_eq_true, decide_eq_true_eq] at same incl
  funext letter
  by_cases listed : letter ∈ usageOptions.map Prod.fst
  · exact same letter listed
  · rw [Getopt.tableOf_eq_none listed]
    exact Getopt.tableOf_eq_none fun mem => listed (incl letter mem)

/-- The element of `opt_list` for a repeatable option. -/
def Repeatable.element : Repeatable → OptionList
  | inheritable => ⟨'I', none⟩
  | ambient => ⟨'A', none⟩
  | allUids uid => ⟨'s', some uid⟩
  | uids res => ⟨'S', some res⟩
  | securebits bits => ⟨'b', some bits⟩
  | display => ⟨'d', none⟩
  | wait nsecs => ⟨'w', some nsecs⟩
  | capabilities caps => ⟨'x', some caps⟩
  | modify spec => ⟨'X', some spec⟩

/-- The element for a repeatable option makes its action happen. -/
theorem action_element (displayed : Nat) (repeatable : Repeatable) :
    action displayed repeatable.element =
      (if repeatable = .display then displayed + 1 else displayed,
        some (repeatable.perform displayed)) := by
  cases repeatable <;> rfl

/-- Elements for repeatable options make their actions happen in this order. -/
theorem performLoop_eq {World Error : Type} {act : Action → World → Except Error World}
    {opts : CmdOptions} {later : List Repeatable} {j displayed : Nat} {world : World}
    (count : opts.optCnt = j + later.length)
    (stored : ∀ i repeatable, later[i]? = some repeatable →
      opts.optList (j + i) = repeatable.element) :
    performLoop act opts j displayed world =
      (performs displayed later).foldlM (fun world action => act action world) world := by
  -- The induction follows the elements that are left.
  induction later generalizing j displayed world with
  | nil =>
    rw [performLoop, if_neg (by simp [count])]
    rfl
  | cons repeatable later ih =>
    have here : opts.optList j = repeatable.element := stored 0 repeatable rfl
    rw [performLoop, if_pos (by simp [count]), here, action_element, performs, List.foldlM_cons]
    dsimp only
    cases act (repeatable.perform displayed) world with
    | error error => rfl
    | ok world =>
      refine ih (by rw [count, List.length_cons]; omega) fun i other mem => ?_
      have next := stored (i + 1) other mem
      rwa [Nat.add_comm i 1, ← Nat.add_assoc] at next

/-- What the loop over the options has noted of those that it has seen. -/
structure Tracks (memory : Nat → OptionList) (seen : List Given) (opts : CmdOptions) : Prop where
  count : opts.optCnt = (repeatables seen).length
  bounded : opts.optCnt ≤ maxOpt
  stored : ∀ i, opts.optList i =
    ((repeatables seen)[i]?.map Repeatable.element).getD (memory i)
  uidMap : opts.uidMap.isSome ↔ 'M' ∈ letters seen
  gidMap : opts.gidMap.isSome ↔ 'G' ∈ letters seen
  projidMap : opts.projidMap.isSome ↔ 'P' ∈ letters seen
  rootMappings : opts.createRootMappings ↔ 'r' ∈ letters seen
  user : opts.flags &&& cloneNewuser ≠ 0 ↔ 'U' ∈ letters seen

section

variable {memory : Nat → OptionList} {seen : List Given} {opts next : CmdOptions} {given : Given}

/-- Nothing has been seen before the loop. -/
theorem tracks_initial : Tracks memory [] (initial memory) where
  -- No option has been seen, and every field has its first value.
  count := rfl
  bounded := Nat.zero_le _
  stored _ := rfl
  uidMap := by simp [initial, letters]
  gidMap := by simp [initial, letters]
  projidMap := by simp [initial, letters]
  rootMappings := by simp [initial, letters]
  user := by simp [initial, letters]

/-- A non-repeatable option is noted when its own field says so and the others do not change. -/
theorem Tracks.single (tracks : Tracks memory seen opts) (other : repeatableOf given = none)
    (count : next.optCnt = opts.optCnt) (stored : next.optList = opts.optList)
    (uidMap : next.uidMap.isSome ↔ opts.uidMap.isSome ∨ given.1 = 'M')
    (gidMap : next.gidMap.isSome ↔ opts.gidMap.isSome ∨ given.1 = 'G')
    (projidMap : next.projidMap.isSome ↔ opts.projidMap.isSome ∨ given.1 = 'P')
    (rootMappings : next.createRootMappings ↔ opts.createRootMappings ∨ given.1 = 'r')
    (user : next.flags &&& cloneNewuser ≠ 0 ↔
      opts.flags &&& cloneNewuser ≠ 0 ∨ given.1 = 'U') :
    Tracks memory (seen ++ [given]) next := by
  -- A letter has been given before or it is the one that is given now.
  have same : repeatables (seen ++ [given]) = repeatables seen := by
    simp [repeatables, other]
  have also : ∀ letter, letter ∈ letters (seen ++ [given]) ↔
      letter ∈ letters seen ∨ given.1 = letter := by
    intro letter
    simp [letters, eq_comm]
  exact {
    count := by rw [count, same, tracks.count]
    bounded := count ▸ tracks.bounded
    stored := fun i => by rw [stored, same, tracks.stored]
    uidMap := by rw [uidMap, also, tracks.uidMap]
    gidMap := by rw [gidMap, also, tracks.gidMap]
    projidMap := by rw [projidMap, also, tracks.projidMap]
    rootMappings := by rw [rootMappings, also, tracks.rootMappings]
    user := by rw [user, also, tracks.user] }

/-- The letters of the repeatable options. -/
def repeatableLetters : List Char :=
  ['I', 'A', 's', 'S', 'b', 'd', 'w', 'x', 'X']

variable (opts) in
/-- A repeatable option is recorded with its argument exactly when it has one. -/
theorem repeatable_eq (takes : Takes (Getopt.tableOf usageOptions) given)
    (among : given.1 ∈ repeatableLetters) :
    ∃ found, repeatableOf given = some found ∧
      repeatable opts given.1 given.2 =
        if opts.optCnt ≥ maxOpt then .error (.tooMany, opts)
        else .ok { opts with
          optList := Function.update opts.optList opts.optCnt found.element
          optCnt := opts.optCnt + 1 } := by
  obtain ⟨letter, optarg⟩ := given
  simp only [repeatableLetters, List.mem_cons, List.not_mem_nil, or_false] at among
  -- One case for each letter, where the argument is there as the table says.
  rcases among with rfl | rfl | rfl | rfl | rfl | rfl | rfl | rfl | rfl
  all_goals
    cases optarg with
    | none => first | exact ⟨_, rfl, rfl⟩ | cases takes
    | some optarg => first | exact ⟨_, rfl, rfl⟩ | cases takes

/-- A repeatable option is noted in the next element. -/
theorem Tracks.push (tracks : Tracks memory seen opts)
    (takes : Takes (Getopt.tableOf usageOptions) given) (among : given.1 ∈ repeatableLetters)
    (noted : repeatable opts given.1 given.2 = .ok next) :
    Tracks memory (seen ++ [given]) next := by
  -- There is room for one more element, and none of the other letters is noted.
  obtain ⟨found, is_, result⟩ := repeatable_eq opts takes among
  rw [result] at noted
  split at noted
  · exact absurd noted nofun
  · rename_i room
    cases noted
    have more : repeatables (seen ++ [given]) = repeatables seen ++ [found] := by
      simp [repeatables, is_]
    have also : ∀ letter, letter ∉ repeatableLetters →
        (letter ∈ letters (seen ++ [given]) ↔ letter ∈ letters seen) := by
      intro letter other
      have ne : letter ≠ given.1 := fun same => other (same ▸ among)
      simp [letters, ne]
    exact {
      count := by simp [more, tracks.count]
      bounded := Nat.lt_of_not_le room
      stored := fun i => by
        rw [more]
        dsimp only
        obtain rfl | other := eq_or_ne i opts.optCnt
        · rw [Function.update_self, tracks.count]
          simp
        · rw [Function.update_of_ne other, tracks.stored]
          rw [tracks.count] at other
          obtain below | above := Nat.lt_or_gt_of_ne other
          · rw [List.getElem?_append_left below]
          · rw [List.getElem?_eq_none above.le, List.getElem?_eq_none (by simp; omega)]
      uidMap := by rw [also 'M' (by decide), tracks.uidMap]
      gidMap := by rw [also 'G' (by decide), tracks.gidMap]
      projidMap := by rw [also 'P' (by decide), tracks.projidMap]
      rootMappings := by rw [also 'r' (by decide), tracks.rootMappings]
      user := by rw [also 'U' (by decide), tracks.user] }

/-- A namespace that is added is noted. -/
theorem Tracks.clone (tracks : Tracks memory seen opts) {flag : BitVec 32}
    (other : repeatableOf given = none) (mapping : given.1 ∉ ['M', 'G', 'P', 'r'])
    (user : flag &&& cloneNewuser ≠ 0 ↔ given.1 = 'U') :
    Tracks memory (seen ++ [given]) (opts.clone flag) := by
  simp only [List.mem_cons, List.not_mem_nil, or_false, not_or] at mapping
  obtain ⟨noM, noG, noP, noR⟩ := mapping
  refine tracks.single other rfl rfl (by simp [CmdOptions.clone, noM])
    (by simp [CmdOptions.clone, noG]) (by simp [CmdOptions.clone, noP])
    (by simp [CmdOptions.clone, noR]) ?_
  -- The flags have CLONE_NEWUSER after the option if they had it before or if it is the option.
  have distrib : (opts.flags ||| flag) &&& cloneNewuser =
      opts.flags &&& cloneNewuser ||| flag &&& cloneNewuser := BitVec.and_or_distrib_right
  rw [← user, CmdOptions.clone, distrib, ne_eq, ne_eq, ne_eq, ← not_and_or]
  exact not_congr BitVec.or_eq_zero_iff

/-- An option that is accepted is noted. -/
theorem Tracks.option (tracks : Tracks memory seen opts)
    (takes : Takes (Getopt.tableOf usageOptions) given)
    (noted : option opts (.option given.1 given.2) = .ok next) :
    Tracks memory (seen ++ [given]) next := by
  obtain ⟨letter, optarg⟩ := given
  dsimp only [UsernsOptions.option] at noted
  split at noted
  -- The namespaces.
  iterate 7
    · cases noted
      exact tracks.clone rfl (by simp) (by simp [cloneNewuser])
  -- The maps, which have their strings.
  iterate 3
    · have there : optarg.isSome := (Option.some.inj takes).symm
      cases noted
      exact tracks.single rfl rfl rfl (by simp [there]) (by simp [there]) (by simp [there])
        (by simp) (by simp)
  -- The switches.
  iterate 3
    · cases noted
      exact tracks.single rfl rfl rfl (by simp) (by simp) (by simp) (by simp) (by simp)
  -- The repeatable options.
  iterate 8
    · exact tracks.push takes (by simp [repeatableLetters]) noted
  -- Everything else.
  · exact absurd noted nofun

/-- Every option of `usage` but `-S` is accepted, as long as there is room. -/
theorem option_accepts (takes : Takes (Getopt.tableOf usageOptions) given)
    (other : given.1 ≠ 'S') (room : repeatableOf given ≠ none → opts.optCnt < maxOpt) :
    ∃ next, option opts (.option given.1 given.2) = .ok next := by
  have recorded : given.1 ∈ repeatableLetters →
      ∃ next, repeatable opts given.1 given.2 = .ok next := by
    intro among
    obtain ⟨found, is_, result⟩ := repeatable_eq opts takes among
    exact ⟨_, result.trans (if_neg (Nat.not_le_of_lt (room (by simp [is_]))))⟩
  have listed : given.1 ∈ usageOptions.map Prod.fst := by
    by_contra unlisted
    exact absurd ((Getopt.tableOf_eq_none unlisted).symm.trans takes) nofun
  obtain ⟨letter, optarg⟩ := given
  dsimp only [option]
  split
  -- The namespaces, the maps and the switches.
  iterate 13
    · exact ⟨_, rfl⟩
  -- The repeatable options.
  iterate 8
    · exact recorded (by simp [repeatableLetters])
  -- There is no other letter than these.
  · simp_all [usageOptions]

variable {later : List Given}

/-- The loop over options that have been read. -/
def loopOver (given : List Given) (opts : CmdOptions) : Except (Exit × CmdOptions) CmdOptions :=
  given.foldlM (fun opts option => UsernsOptions.option opts (.option option.1 option.2)) opts

/-- What is accepted has been noted. -/
theorem Tracks.loopOver (tracks : Tracks memory seen opts)
    (takes : ∀ option ∈ later, Takes (Getopt.tableOf usageOptions) option)
    (accepted : loopOver later opts = .ok next) : Tracks memory (seen ++ later) next := by
  -- The induction follows the options, each of which is noted.
  induction later generalizing seen opts with
  | nil =>
    cases accepted
    rwa [List.append_nil]
  | cons first later ih =>
    obtain ⟨here, behind⟩ := List.forall_mem_cons.mp takes
    rw [UsernsOptions.loopOver, List.foldlM_cons] at accepted
    cases noted : UsernsOptions.option opts (.option first.1 first.2) with
    | error exit =>
      rw [noted] at accepted
      exact absurd accepted nofun
    | ok middle =>
      rw [noted] at accepted
      have both := ih (tracks.option here noted) behind accepted
      rwa [List.append_assoc] at both

/-- All options of `usage` but `-S` are accepted, as long as there is room. -/
theorem loopOver_accepts (tracks : Tracks memory seen opts)
    (takes : ∀ option ∈ later, Takes (Getopt.tableOf usageOptions) option)
    (other : 'S' ∉ letters later) (room : (repeatables (seen ++ later)).length ≤ maxOpt) :
    ∃ next, loopOver later opts = .ok next := by
  -- There is room for every option, since there is room for all of them.
  induction later generalizing seen opts with
  | nil => exact ⟨opts, rfl⟩
  | cons first later ih =>
    obtain ⟨here, behind⟩ := List.forall_mem_cons.mp takes
    obtain ⟨notHere, notBehind⟩ := not_or.mp (mt List.mem_cons.mpr other)
    rw [List.append_cons] at room
    have one : repeatableOf first ≠ none → opts.optCnt < maxOpt := by
      intro is_
      obtain ⟨found, is_⟩ := Option.ne_none_iff_exists'.mp is_
      rw [tracks.count]
      simp only [repeatables, List.filterMap_append, List.filterMap_cons, is_,
        List.filterMap_nil, List.length_append, List.length_cons] at room ⊢
      omega
    obtain ⟨middle, noted⟩ := option_accepts here (Ne.symm notHere) one
    obtain ⟨next, accepted⟩ := ih (tracks.option here noted) behind notBehind room
    refine ⟨next, ?_⟩
    rw [loopOver, List.foldlM_cons, noted]
    exact accepted

/-- `-S` is not accepted. -/
theorem loopOver_refuses (asked : 'S' ∈ letters later) (opts : CmdOptions) :
    ∃ exit, loopOver later opts = .error exit := by
  -- By induction on the options, up to the first S.
  induction later generalizing opts with
  | nil => exact absurd asked List.not_mem_nil
  | cons first later ih =>
    rw [loopOver, List.foldlM_cons]
    cases noted : option opts (.option first.1 first.2) with
    | error exit => exact ⟨exit, rfl⟩
    | ok middle =>
      obtain here | behind := List.mem_cons.mp asked
      · rw [← here] at noted
        exact absurd noted nofun
      · exact ih behind middle

/-- Nothing has been written behind `opt_list`. -/
structure Within (memory : Nat → OptionList) (opts : CmdOptions) : Prop where
  count : opts.optCnt ≤ maxOpt
  same : ∀ i ≥ maxOpt, opts.optList i = memory i

/-- An option writes nothing behind `opt_list`. -/
theorem within_option (within : Within memory opts) (answer : Answer) :
    Within memory (outcome (option opts answer)) := by
  -- Only repeatable options write into `opt_list`.
  have recorded : ∀ letter optarg,
      Within memory (outcome (repeatable opts letter optarg)) := by
    intro letter optarg
    unfold repeatable
    split
    · exact within
    · rename_i room
      refine ⟨Nat.lt_of_not_le room, fun i above => ?_⟩
      have other : i ≠ opts.optCnt := fun same => room (same ▸ above)
      exact (Function.update_of_ne other _ _).trans (within.same i above)
  have alike : ∀ other : CmdOptions, other.optCnt = opts.optCnt →
      other.optList = opts.optList → Within memory other := by
    intro other count same
    exact ⟨count ▸ within.count, fun i above => same ▸ within.same i above⟩
  unfold option
  split
  · exact within
  · split
    all_goals first | exact recorded _ _ | exact alike _ rfl rfl

/-- Whatever the answers are, nothing is written behind `opt_list`. -/
theorem within_foldlM (within : Within memory opts) (answers : List Answer) :
    Within memory (outcome (answers.foldlM option opts)) := by
  -- By induction on the answers of getopt().
  induction answers generalizing opts with
  | nil => exact within
  | cons answer answers ih =>
    have first := within_option within answer
    rw [List.foldlM_cons]
    cases noted : option opts answer with
    | error exit => rwa [noted] at first
    | ok next =>
      rw [noted] at first
      exact ih first

/-- The options that have been noted make sense when `usage` allows them. -/
theorem Tracks.nonsensical_eq (tracks : Tracks memory seen opts) {command : List CString}
    (allowed : Allowed seen command) : opts.nonsensical = false := by
  -- What the program looks at are the letters that have been given.
  have user : opts.uidMap.isSome ∨ opts.gidMap.isSome ∨ opts.projidMap.isSome ∨
      opts.createRootMappings → opts.flags &&& cloneNewuser ≠ 0 := by
    rw [tracks.uidMap, tracks.gidMap, tracks.projidMap, tracks.rootMappings, tracks.user]
    rintro (uid | gid | projid | root)
    · exact allowed.user ⟨'M', uid, by decide⟩
    · exact allowed.user ⟨'G', gid, by decide⟩
    · exact allowed.user ⟨'P', projid, by decide⟩
    · exact allowed.user ⟨'r', root, by decide⟩
  have root : opts.createRootMappings → ¬ opts.uidMap.isSome ∧ ¬ opts.gidMap.isSome := by
    rw [tracks.uidMap, tracks.gidMap, tracks.rootMappings]
    exact allowed.root
  unfold CmdOptions.nonsensical
  grind

/-- The command is noted apart from the options. -/
theorem Tracks.command (tracks : Tracks memory seen opts) (command : List CString) :
    Tracks memory seen { opts with argv := command } :=
  { tracks with }

/-- What has been noted is performed. -/
theorem Tracks.does (tracks : Tracks memory seen opts) :
    Does opts (performs 0 (repeatables seen)) := by
  -- The loop performs the options that were stored, from the first one on.
  intro World Error act world
  refine performLoop_eq (by rw [tracks.count, Nat.zero_add]) fun i found is_ => ?_
  rw [Nat.zero_add, tracks.stored, is_]
  rfl

end

section

variable {arguments : List CString} {given : List Given} {command : List CString}

/-- The options of a command line are what its loop goes over. -/
theorem Reads.parse (reads : Reads arguments given command) (memory : Nat → OptionList) :
    parseCommandOptions arguments memory =
      match loopOver given (initial memory) with
      | .error exit => .error exit
      | .ok opts =>
        if opts.nonsensical then .error (.nonsensical, opts)
        else if command = [] then .error (.noCommand, opts)
        else .ok { opts with argv := command } := by
  -- The loop sees the answers of `getopt` by the table of `usage`.
  rw [parseCommandOptions, Getopt.loop_eq, tableOf_optstring, reads, List.foldlM_map]
  cases loopOver_ : loopOver given (initial memory) with
  | error exit =>
    rw [loopOver] at loopOver_
    rw [loopOver_]
    rfl
  | ok opts =>
    rw [loopOver] at loopOver_
    rw [loopOver_]
    rfl

/-- The options of a command line are as `usage` has them. -/
theorem Reads.takes (reads : Reads arguments given command) :
    ∀ option ∈ given, Takes (Getopt.tableOf usageOptions) option := by
  -- What getopt() has answered is an option of the string.
  intro option mem
  refine Getopt.takes_answers ⟨[], arguments⟩ ?_
  rw [reads]
  exact List.mem_map_of_mem mem

/-- A command line without `-S` is accepted, as long as there is room. -/
theorem Reads.accepts (reads : Reads arguments given command) (allowed : Allowed given command)
    (room : (repeatables given).length ≤ maxOpt) (other : 'S' ∉ letters given)
    (memory : Nat → OptionList) :
    ∃ opts, parseCommandOptions arguments memory = .ok opts ∧ opts.argv = command ∧
      Does opts (performs 0 (repeatables given)) := by
  -- The options are tracked from the start of the loop to its end.
  have start : Tracks memory [] (initial memory) := tracks_initial
  obtain ⟨opts, accepted⟩ := loopOver_accepts start reads.takes other room
  have tracks : Tracks memory given opts := start.loopOver reads.takes accepted
  refine ⟨{ opts with argv := command }, ?_, rfl, (tracks.command command).does⟩
  -- The checks behind the loop let the command line pass.
  rw [reads.parse, accepted]
  dsimp only
  rw [tracks.nonsensical_eq allowed, if_neg Bool.false_ne_true, if_neg allowed.command]

/-- A command line with too many repeatable options is rejected. -/
theorem Reads.rejects (reads : Reads arguments given command)
    (above : maxOpt < (repeatables given).length) (memory : Nat → OptionList) :
    ∃ exit, parseCommandOptions arguments memory = .error exit := by
  rw [reads.parse]
  -- If the loop had accepted all, more would have been stored than the array holds.
  cases accepted : loopOver given (initial memory) with
  | error exit => exact ⟨exit, rfl⟩
  | ok opts =>
    have tracks : Tracks memory given opts := tracks_initial.loopOver reads.takes accepted
    exact absurd (tracks.count ▸ tracks.bounded) (Nat.not_le_of_lt above)

/-- A command line with `-S` is rejected. -/
theorem Reads.refuses (reads : Reads arguments given command) (asked : 'S' ∈ letters given)
    (memory : Nat → OptionList) :
    ∃ exit, parseCommandOptions arguments memory = .error exit := by
  obtain ⟨exit, refused⟩ := loopOver_refuses asked (initial memory)
  exact ⟨exit, by rw [reads.parse, refused]⟩

/-- Whatever the command line is, nothing is written behind `opt_list`. -/
theorem parseCommandOptions_within (arguments : List CString) (memory : Nat → OptionList) :
    Within memory (outcome (parseCommandOptions arguments memory)) := by
  -- Behind the loop nothing is written any more.
  have start : Within memory (initial memory) := ⟨Nat.zero_le _, fun _ _ => rfl⟩
  have loop := within_foldlM start
    (Getopt.answers (Getopt.tableOf (Getopt.optionString optstring)) ⟨[], arguments⟩).1
  rw [parseCommandOptions, Getopt.loop_eq]
  cases noted : (Getopt.answers (Getopt.tableOf (Getopt.optionString optstring))
      ⟨[], arguments⟩).1.foldlM option (initial memory) with
  | error exit => rwa [noted] at loop
  | ok opts =>
    rw [noted] at loop
    have same : Within memory opts := loop
    dsimp only [Except.map]
    split
    · exact same
    · split
      · exact same
      · exact ⟨same.count, same.same⟩

/--
A command line is served if and only if it is not one that is allowed, has no more repeatable
options than there is room for, and has `-S` among them.
-/
theorem parseCommandOptions_serves_iff (arguments : List CString) :
    Serves arguments ↔
      ∀ given command, Reads arguments given command → Allowed given command →
        (repeatables given).length ≤ maxOpt → 'S' ∉ letters given := by
  -- The option `-S` is all that makes a difference.
  constructor
  · intro serves given command reads allowed room asked
    obtain ⟨opts, accepted, _⟩ :=
      serves.accepts (fun _ => ⟨'?', none⟩) given command reads allowed room
    obtain ⟨exit, refused⟩ := reads.refuses asked fun _ => ⟨'?', none⟩
    exact absurd (refused.symm.trans accepted) nofun
  · intro other
    exact {
      accepts := fun memory given command reads allowed room =>
        reads.accepts allowed room (other given command reads allowed room) memory
      rejects := fun memory given command reads above => reads.rejects above memory
      within := fun memory => (parseCommandOptions_within arguments memory).same }

/-- A command line whose options are words is read as it is written. -/
theorem reads_words (takes : ∀ option ∈ given, Takes (Getopt.tableOf usageOptions) option)
    (ends : ∀ first ∈ command.head?, first.head? ≠ some '-') :
    Reads (given.flatMap Getopt.words ++ command) given command :=
  Getopt.answers_words rfl takes ends

/-- `-S 0,0,0 id` is not served, although `usage` has this option. -/
theorem parseCommandOptions_not_serves :
    ¬ Serves ["-S".toList, "0,0,0".toList, "id".toList] := by
  -- The command line is read and allowed, and it has `-S`.
  intro serves
  have reads : Reads ["-S".toList, "0,0,0".toList, "id".toList] [('S', some "0,0,0".toList)]
      ["id".toList] := by
    have takes : ∀ option ∈ [('S', some "0,0,0".toList)],
        Takes (Getopt.tableOf usageOptions) option := by
      rintro option mem
      obtain rfl := List.mem_singleton.mp mem
      rfl
    refine reads_words takes ?_
    rintro first mem
    obtain rfl := Option.mem_some.mp mem
    decide
  obtain ⟨opts, accepted, _⟩ := serves.accepts (fun _ => ⟨'?', none⟩) _ _ reads
    ⟨by simp [letters], by simp [letters], by decide⟩ (by decide)
  obtain ⟨exit, refused⟩ := reads.refuses (by decide) fun _ => ⟨'?', none⟩
  exact absurd (refused.symm.trans accepted) nofun

end

end SysProg.Namespaces.UsernsOptions
