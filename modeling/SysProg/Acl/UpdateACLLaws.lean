import SysProg.Acl.UpdateACL

/-! What `updateACL` makes of the ACL of a file, whether a call fails or not. -/

namespace SysProg.Acl

open SysProg.UsersGroups (Id errorId)
open KeyedList (put remove find under Distinct)

/-- The permissions in a bit mask. -/
def permsetOf (perms : Perms) : Permset :=
  ⟨perms &&& aclRead ≠ 0, perms &&& aclWrite ≠ 0, perms &&& aclExecute ≠ 0⟩

namespace AccessControlEntry

/-- The key of a requested entry. -/
def key (request : AccessControlEntry) : Key :=
  keyOf request.tag request.qual

/-- The entry that is created when there is none with the key. -/
def entry (request : AccessControlEntry) : AclEntry where
  tag := request.tag
  qualifier := if request.tag = .user ∨ request.tag = .group then request.qual else errorId
  permset := permsetOf request.perms

end AccessControlEntry

/-- What a requested entry makes of an ACL. -/
def applyEntry (operation : Operation) (recalcMask : Bool) (acl : AclT)
    (request : AccessControlEntry) : AclT :=
  let acl :=
    if operation = .removeEntries then remove AclEntry.key request.key acl
    else put AclEntry.key request.key ({ · with permset := permsetOf request.perms })
      request.entry acl
  if recalcMask then calcMask acl else acl

/-- What requested entries make of an ACL, one after the other. -/
def applied (operation : Operation) (recalcMask : Bool) (acl : AclT)
    (requests : List AccessControlEntry) : AclT :=
  requests.foldl (applyEntry operation recalcMask) acl

/-- The ACLs that there are on the way. -/
def steps (operation : Operation) (recalcMask : Bool) (acl : AclT) :
    List AccessControlEntry → List AclT
  | [] => []
  | request :: requests =>
    applyEntry operation recalcMask acl request ::
      steps operation recalcMask (applyEntry operation recalcMask acl request) requests

/-- The value is computed without touching the file, unless a call fails. -/
def Computes {α : Type} (fails : Nat → Bool) (run : Run α) (value : α) : Prop :=
  ∀ world, (∃ calls, run world = .ok value { world with calls }) ∨
    (∃ count, fails count) ∧ ∃ function calls, run world = .error function { world with calls }

section

variable {fails : Nat → Bool} {α β : Type}

/-- Nothing has to be called for a value that is there. -/
theorem computes_pure (value : α) : Computes fails (pure value) value :=
  fun world => .inl ⟨world.calls, rfl⟩

variable (fails) in
/-- A call computes nothing. -/
theorem computes_call (function : LibraryCall) : Computes fails (call fails function) () := by
  intro world
  -- The call succeeds or fails, and is counted either way.
  cases wrong : fails world.calls with
  | false => exact .inl ⟨world.calls + 1, by simp [call, wrong]⟩
  | true => exact .inr ⟨⟨_, wrong⟩, function, world.calls + 1, by simp [call, wrong]⟩

/-- A run goes on with the value that there is. -/
theorem bind_ok {run : Run α} {next : α → Run β} {world middle : World} {value : α}
    (ok : run world = .ok value middle) : (run >>= next) world = next value middle := by
  simp [Bind.bind, EStateM.bind, ok]

/-- A run ends with the first error. -/
theorem bind_error {run : Run α} {next : α → Run β} {world middle : World}
    {function : LibraryCall} (error : run world = .error function middle) :
    (run >>= next) world = .error function middle := by
  simp [Bind.bind, EStateM.bind, error]

/-- One value is computed from another one. -/
theorem Computes.bind {run : Run α} {next : α → Run β} {value : α} {result : β}
    (first : Computes fails run value) (second : Computes fails (next value) result) :
    Computes fails (run >>= next) result := by
  intro world
  -- The first part succeeds, or its error is that of both.
  obtain ⟨calls, ok⟩ | ⟨wrong, function, calls, error⟩ := first world
  · rw [bind_ok ok]
    exact second { world with calls }
  · exact .inr ⟨wrong, function, calls, bind_error error⟩

/-- A call comes before what is computed. -/
theorem Computes.after_call {run : Run β} {result : β} (function : LibraryCall)
    (second : Computes fails run result) :
    Computes fails (call fails function >>= fun _ => run) result :=
  (computes_call fails function).bind second

/-- Keys are the same when tags are, and qualifiers where they matter. -/
theorem keyOf_eq_iff {tag entryTag : Tag} {qual qualifier : Id} :
    keyOf entryTag qualifier = keyOf tag qual ↔
      tag = entryTag ∧ (tag = .user ∨ tag = .group → qual = qualifier) := by
  unfold keyOf
  cases tag <;> cases entryTag <;> simp [eq_comm]

/-- The loop finds the first entry with the key. -/
theorem computes_findLoop (tag : Tag) (qual : Id) (acl : AclT) (ent : Nat) :
    Computes fails (findLoop fails tag qual acl ent)
      ((find AclEntry.key (keyOf tag qual) acl).map (ent + ·)) := by
  -- The comparisons of the source together compare the keys.
  induction acl generalizing ent with
  | nil => exact (computes_pure none).after_call .aclGetEntry
  | cons entry acl ih =>
    have key : entry.key = keyOf tag qual ↔
        tag = entry.tag ∧ (tag = .user ∨ tag = .group → qual = entry.qualifier) :=
      keyOf_eq_iff
    have here (same : entry.key = keyOf tag qual) :
        (find AclEntry.key (keyOf tag qual) (entry :: acl)).map (ent + ·) = some ent := by
      simp [find, List.findIdx?_cons, same]
    have later (different : entry.key ≠ keyOf tag qual) :
        (find AclEntry.key (keyOf tag qual) (entry :: acl)).map (ent + ·) =
          (find AclEntry.key (keyOf tag qual) acl).map (ent + 1 + ·) := by
      simp [find, List.findIdx?_cons, different, Function.comp_def, Nat.add_assoc, Nat.add_comm 1]
    refine .after_call .aclGetEntry (.after_call .aclGetTagType ?_)
    by_cases tags : tag = entry.tag
    · rw [if_pos tags]
      by_cases named : tag = .user ∨ tag = .group
      · rw [if_pos named]
        refine .after_call .aclGetQualifier ?_
        by_cases quals : qual = entry.qualifier
        · rw [if_pos quals, here (key.mpr ⟨tags, fun _ => quals⟩)]
          exact (computes_pure _).after_call .aclFree
        · rw [if_neg quals, later fun same => quals ((key.mp same).2 named)]
          exact (ih (ent + 1)).after_call .aclFree
      · rw [if_neg named, here (key.mpr ⟨tags, fun wrong => absurd wrong named⟩)]
        exact computes_pure _
    · rw [if_neg tags, later fun same => tags (key.mp same).1]
      exact ih (ent + 1)

/-- The first entry with the key is found. -/
theorem computes_findEntry (acl : AclT) (request : AccessControlEntry) :
    Computes fails (findEntry fails acl request.tag request.qual)
      (find AclEntry.key request.key acl) := by
  -- The loop counts from zero, so its index is that of the entry.
  have found : Computes fails (findEntry fails acl request.tag request.qual) _ :=
    computes_findLoop request.tag request.qual acl 0
  simp only [Nat.zero_add, Option.map_id'] at found
  exact found

/-- The permissions with one more, when it is in the bit mask. -/
def withPerm (perms perm : Perms) (add : Permset → Permset) (permset : Permset) : Permset :=
  if perms &&& perm ≠ 0 then add permset else permset

/-- A permission is added when it is in the bit mask. -/
theorem computes_addPerm (perms perm : Perms) (add : Permset → Permset) (permset : Permset) :
    Computes fails (addPerm fails perms perm add permset) (withPerm perms perm add permset) := by
  rw [addPerm, withPerm]
  -- The call is made only for a permission that is asked for.
  split
  · exact (computes_pure _).after_call .aclAddPerm
  · exact computes_pure _

/-- The permissions of an entry are set. -/
theorem computes_setPerms (acl : AclT) (entry : Nat) (perms : Perms) :
    Computes fails (setPerms fails acl entry perms)
      (acl.modify entry ({ · with permset := permsetOf perms })) := by
  -- The three permissions are added one after the other.
  have all : withPerm perms aclExecute ({ · with execute := true })
      (withPerm perms aclWrite ({ · with write := true })
        (withPerm perms aclRead ({ · with read := true }) .clear)) = permsetOf perms := by
    unfold withPerm permsetOf Permset.clear
    split_ifs <;> simp_all
  rw [← all]
  refine .after_call .aclGetPermset (.after_call .aclClearPerms ?_)
  refine .bind (computes_addPerm perms aclRead _ .clear) ?_
  refine .bind (computes_addPerm perms aclWrite _ _) ?_
  refine .bind (computes_addPerm perms aclExecute _ _) ?_
  exact (computes_pure _).after_call .aclSetPermset

/-- The entry that has been found is removed. -/
theorem computes_deleteEntry (acl : AclT) (request : AccessControlEntry) :
    Computes fails (deleteEntry fails acl (find AclEntry.key request.key acl))
      (remove AclEntry.key request.key acl) := by
  rw [remove]
  -- Nothing is deleted where there is no entry.
  cases find AclEntry.key request.key acl with
  | none => exact computes_pure acl
  | some index => exact (computes_pure _).after_call .aclDeleteEntry

/-- The entry that has been found gets the permissions, or else a new one. -/
theorem computes_createEntry (acl : AclT) (request : AccessControlEntry) :
    Computes fails
      (createEntry fails acl (find AclEntry.key request.key acl) request >>= fun created =>
        setPerms fails created.1 created.2 request.perms)
      (put AclEntry.key request.key ({ · with permset := permsetOf request.perms }) request.entry
        acl) := by
  cases found : find AclEntry.key request.key acl with
  | some index =>
    rw [put, found]
    exact .bind (computes_pure (acl, index)) (computes_setPerms acl index request.perms)
  | none =>
    -- The new entry gets its fields one after the other.
    have fill (entry : AclEntry) (update : AclEntry → AclEntry) :
        (acl ++ [entry]).modify acl.length update = acl ++ [update entry] :=
      KeyedList.modify_length acl entry [] update
    have created : Computes fails (createEntry fails acl none request)
        (acl ++ [{ request.entry with permset := .clear }], acl.length) := by
      refine .after_call .aclCreateEntry (.after_call .aclSetTagType ?_)
      simp only [fill]
      split
      · rename_i named
        refine .after_call .aclSetQualifier ?_
        simp only [AccessControlEntry.entry, if_pos named]
        exact computes_pure _
      · rename_i unnamed
        simp only [AccessControlEntry.entry, if_neg unnamed]
        exact computes_pure _
    have filled : acl ++ [request.entry] =
        (acl ++ [{ request.entry with permset := .clear }]).modify acl.length
          ({ · with permset := permsetOf request.perms }) :=
      (fill { request.entry with permset := .clear }
        ({ · with permset := permsetOf request.perms })).symm
    rw [put, found]
    dsimp only
    rw [filled]
    exact created.bind (computes_setPerms _ _ request.perms)

variable (fails) in
/-- What a requested entry makes of the ACL is computed. -/
theorem computes_changeACL (operation : Operation) (recalcMask : Bool) (acl : AclT)
    (request : AccessControlEntry) :
    Computes fails (changeACL fails operation recalcMask acl request)
      (applyEntry operation recalcMask acl request) := by
  -- Finding, changing and recalculating each compute a value of their own.
  refine .bind (computes_findEntry acl request) ?_
  have changed : Computes fails
      (changeEntry fails operation acl (find AclEntry.key request.key acl) request)
      (if operation = .removeEntries then remove AclEntry.key request.key acl
      else put AclEntry.key request.key ({ · with permset := permsetOf request.perms })
        request.entry acl) := by
    rw [changeEntry]
    split
    · exact computes_deleteEntry acl request
    · exact computes_createEntry acl request
  refine changed.bind ?_
  rw [applyEntry]
  cases recalcMask with
  | true => exact (computes_pure _).after_call .aclCalcMask
  | false => exact computes_pure _

/-- A run that ends here. -/
theorem run_throw (function : LibraryCall) (world : World) :
    (throw function : Run Unit) world = .error function world :=
  rfl

/-- A run that changes the world and goes on. -/
theorem run_modify (change : World → World) (world : World) :
    (modify change : Run Unit) world = .ok () (change world) :=
  rfl

variable (fails) in
/-- A valid ACL passes the check, unless the call fails. -/
theorem computes_aclValid {acl : AclT} (valid : Valid acl) :
    Computes fails (aclValid fails acl) () := by
  refine .after_call .aclValid ?_
  rw [if_pos valid]
  exact computes_pure ()

variable (fails) in
/-- An ACL that is not valid does not pass the check. -/
theorem aclValid_error {acl : AclT} (invalid : ¬ Valid acl) (world : World) :
    ∃ function calls, aclValid fails acl world = .error function { world with calls } := by
  refine ⟨.aclValid, world.calls + 1, ?_⟩
  -- The check says that the list is not valid, or fails itself.
  cases wrong : fails world.calls with
  | false =>
    simp [aclValid, call, Bind.bind, EStateM.bind, wrong, invalid, run_throw]
  | true => simp [aclValid, call, Bind.bind, EStateM.bind, wrong]

variable {type : AclType} {operation : Operation} {recalcMask : Bool}

variable (type operation recalcMask) in
/-- The world when these requested entries have been applied to the file. -/
def World.after (world : World) (done : List AccessControlEntry) (calls : Nat) : World where
  acl := Function.update world.acl type (applied operation recalcMask (world.acl type) done)
  history := world.history ++ steps operation recalcMask (world.acl type) done
  calls := calls

variable (type operation recalcMask) in
/-- Nothing has been applied yet. -/
theorem World.after_nil (world : World) (calls : Nat) :
    world.after type operation recalcMask [] calls = { world with calls } := by
  simp [World.after, applied, steps]

/-- One after the other, or all at once. -/
theorem World.after_cons (world : World) (request : AccessControlEntry)
    (done : List AccessControlEntry) (count calls : Nat) :
    (world.after type operation recalcMask [request] count).after type operation recalcMask done
        calls =
      world.after type operation recalcMask (request :: done) calls := by
  -- The requests are applied one after the other.
  simp [World.after, applied, steps]

variable (fails type operation recalcMask) in
/-- The file has the ACL that has been set, unless the call fails. -/
theorem aclSetFile_outcome (world : World) (request : AccessControlEntry) :
    (∃ calls, aclSetFile fails type
        (applyEntry operation recalcMask (world.acl type) request) world =
          .ok () (world.after type operation recalcMask [request] calls)) ∨
      (∃ count, fails count) ∧ ∃ function calls, aclSetFile fails type
        (applyEntry operation recalcMask (world.acl type) request) world =
          .error function { world with calls } := by
  -- Only the answer of the call decides.
  cases wrong : fails world.calls with
  | false =>
    refine .inl ⟨world.calls + 1, ?_⟩
    simp [aclSetFile, call, Bind.bind, EStateM.bind, wrong, run_modify, World.after, applied,
      steps]
  | true =>
    refine .inr ⟨⟨_, wrong⟩, .aclSetFile, world.calls + 1, ?_⟩
    simp [aclSetFile, call, Bind.bind, EStateM.bind, wrong]

/-- How the loop over the requested entries may end. -/
inductive Ends (fails : Nat → Bool) (type : AclType) (operation : Operation) (recalcMask : Bool)
    (world : World) (requests : List AccessControlEntry) :
    EStateM.Result LibraryCall World Unit → Prop where
  /-- All have been applied. -/
  | all (calls : Nat)
      (valid : ∀ new ∈ steps operation recalcMask (world.acl type) requests, Valid new) :
      Ends fails type operation recalcMask world requests
        (.ok () (world.after type operation recalcMask requests calls))
  /-- Those before one have been applied, and that one could not be. -/
  | part (done rest : List AccessControlEntry) (request : AccessControlEntry)
      (function : LibraryCall) (calls : Nat) (split : requests = done ++ request :: rest)
      (valid : ∀ new ∈ steps operation recalcMask (world.acl type) done, Valid new)
      (why : ¬ Valid (applied operation recalcMask (world.acl type) (done ++ [request])) ∨
        ∃ count, fails count) :
      Ends fails type operation recalcMask world requests
        (.error function (world.after type operation recalcMask done calls))

/-- The ACL of the file when one requested entry has been applied. -/
theorem World.acl_after (world : World) (request : AccessControlEntry) (calls : Nat) :
    (world.after type operation recalcMask [request] calls).acl type =
      applyEntry operation recalcMask (world.acl type) request :=
  Function.update_self ..

/-- The loop ends as it does behind its first turn. -/
theorem Ends.cons {world : World} {request : AccessControlEntry}
    {requests : List AccessControlEntry} {count : Nat}
    {result : EStateM.Result LibraryCall World Unit}
    (valid : Valid (applyEntry operation recalcMask (world.acl type) request))
    (later : Ends fails type operation recalcMask
      (world.after type operation recalcMask [request] count) requests result) :
    Ends fails type operation recalcMask world (request :: requests) result := by
  -- What comes behind the first turn starts from the ACL that it has set.
  cases later with
  | all calls others =>
    rw [World.acl_after] at others
    rw [World.after_cons]
    exact .all calls (List.forall_mem_cons.mpr ⟨valid, others⟩)
  | part done rest next function calls split others why =>
    rw [World.acl_after] at others why
    rw [World.after_cons]
    exact .part (request :: done) rest next function calls (congrArg (request :: ·) split)
      (List.forall_mem_cons.mpr ⟨valid, others⟩) why

/-- The loop ends in one of these ways. -/
theorem updateLoop_ends (world : World) (requests : List AccessControlEntry) :
    Ends fails type operation recalcMask world requests
      (updateLoop fails type operation recalcMask (world.acl type) requests world) := by
  induction requests generalizing world with
  | nil =>
    have all : Ends fails type operation recalcMask world []
        (.ok () (world.after type operation recalcMask [] world.calls)) :=
      .all world.calls nofun
    rwa [World.after_nil] at all
  | cons request requests ih =>
    -- Whatever fails before the ACL is set, the file is as it was before the turn.
    have stops {function : LibraryCall} {calls : Nat}
        (why : ¬ Valid (applyEntry operation recalcMask (world.acl type) request) ∨
          ∃ count, fails count) :
        Ends fails type operation recalcMask world (request :: requests)
          (.error function { world with calls }) := by
      rw [← World.after_nil type operation recalcMask]
      exact .part [] requests request function calls rfl nofun why
    rw [updateLoop]
    obtain ⟨calls, ok⟩ | ⟨wrong, function, calls, error⟩ :=
      computes_changeACL fails operation recalcMask (world.acl type) request world
    · rw [bind_ok ok]
      by_cases valid : Valid (applyEntry operation recalcMask (world.acl type) request)
      · obtain ⟨calls, ok⟩ | ⟨wrong, function, calls, error⟩ :=
          computes_aclValid fails valid { world with calls }
        · rw [bind_ok ok]
          obtain ⟨calls, ok⟩ | ⟨wrong, function, calls, error⟩ :=
            aclSetFile_outcome fails type operation recalcMask { world with calls } request
          · rw [bind_ok ok]
            have later := ih (world.after type operation recalcMask [request] calls)
            rw [World.acl_after] at later
            exact later.cons valid
          · rw [bind_error error]
            exact stops (.inr wrong)
        · rw [bind_error error]
          exact stops (.inr wrong)
      · obtain ⟨function, calls, error⟩ := aclValid_error fails valid { world with calls }
        rw [bind_error error]
        exact stops (.inl valid)
    · rw [bind_error error]
      exact stops (.inr wrong)

end

section

variable {operation : Operation} {recalcMask : Bool} {acl : AclT}
variable {request : AccessControlEntry} {key : Key}

/-- A new entry has the key that was requested. -/
theorem AccessControlEntry.key_entry (request : AccessControlEntry) :
    request.entry.key = request.key := by
  refine keyOf_eq_iff.mpr ⟨rfl, fun named => ?_⟩
  rw [entry, if_pos named]

/-- The entry that gets the permissions is there once. -/
theorem under_put_self {permset : Permset} {new : AclEntry} (fresh : new.key = key)
    (set : new.permset = permset) (distinct : Distinct AclEntry.key acl) :
    (under AclEntry.key key (put AclEntry.key key ({ · with permset := permset }) new acl)).map
      AclEntry.permset = [permset] := by
  -- Changing the permissions leaves the key.
  have kept (entry : AclEntry) (same : entry.key = key) :
      { entry with permset := permset }.key = key :=
    same
  rw [KeyedList.under_put_self kept fresh distinct]
  -- The entry was there and is changed, or it is new.
  cases (under AclEntry.key key acl).head? with
  | none => exact congrArg (fun permset => [permset]) set
  | some entry => rfl

/-- The other entries are as they were. -/
theorem under_put_of_ne {wanted : Key} {permset : Permset} {new : AclEntry}
    (fresh : new.key = wanted) (distinct : Distinct AclEntry.key acl) (different : key ≠ wanted) :
    under AclEntry.key key (put AclEntry.key wanted ({ · with permset := permset }) new acl) =
      under AclEntry.key key acl :=
  KeyedList.under_put_of_ne (fun _ same => same) fresh distinct different

/-- No key comes twice. -/
theorem distinct_put {permset : Permset} {new : AclEntry} (fresh : new.key = key)
    (distinct : Distinct AclEntry.key acl) :
    Distinct AclEntry.key (put AclEntry.key key ({ · with permset := permset }) new acl) :=
  KeyedList.distinct_put (fun _ same => same) fresh distinct

/-- The mask is no part of what it is calculated from. -/
theorem groupClass_calcMask (distinct : Distinct AclEntry.key acl) :
    groupClass (calcMask acl) = groupClass acl := by
  -- The mask entry is not of the group class, so the union does not change.
  have skips (entry : AclEntry) (same : entry.key = maskKey) :
      decide (entry.tag ∈ [Tag.user, Tag.groupObj, Tag.group]) = false := by
    have tag : entry.tag = .mask := congrArg Prod.fst same
    rw [tag]
    rfl
  have kept (entry : AclEntry) (same : entry.key = maskKey) :
      { entry with permset := groupClass acl }.key = maskKey :=
    same
  have fresh : AclEntry.key ⟨.mask, errorId, groupClass acl⟩ = maskKey := rfl
  exact congrArg (List.foldl _ Permset.clear) (KeyedList.filter_put kept fresh distinct skips)

/-- The mask is what is calculated from the others. -/
theorem under_calcMask (distinct : Distinct AclEntry.key acl) :
    (under AclEntry.key maskKey (calcMask acl)).map AclEntry.permset =
      [groupClass (calcMask acl)] := by
  rw [groupClass_calcMask distinct]
  exact under_put_self rfl rfl distinct

/-- What a requested entry makes of an ACL before the mask is recalculated. -/
def changed (operation : Operation) (acl : AclT) (request : AccessControlEntry) : AclT :=
  if operation = .removeEntries then remove AclEntry.key request.key acl
  else put AclEntry.key request.key ({ · with permset := permsetOf request.perms })
    request.entry acl

variable (operation recalcMask request)

/-- No key comes twice in what is changed. -/
theorem distinct_changed (distinct : Distinct AclEntry.key acl) :
    Distinct AclEntry.key (changed operation acl request) := by
  rw [changed]
  -- An entry is removed, or it is put in the place of one with its key.
  split
  · exact KeyedList.distinct_remove distinct
  · exact distinct_put request.key_entry distinct

/-- No key comes twice when a requested entry has been applied. -/
theorem distinct_applyEntry (distinct : Distinct AclEntry.key acl) :
    Distinct AclEntry.key (applyEntry operation recalcMask acl request) := by
  have between := distinct_changed operation request distinct
  -- Calculating the mask puts one entry.
  cases recalcMask with
  | true => exact distinct_put rfl between
  | false => exact between

/-- The entries with a key are not those that are recalculated. -/
def Counts (recalcMask : Bool) (key : Key) : Prop :=
  recalcMask → key ≠ maskKey

variable {recalcMask request}

/-- Apart from the mask, what is changed is what there is. -/
theorem under_applyEntry (counts : Counts recalcMask key) (distinct : Distinct AclEntry.key acl) :
    under AclEntry.key key (applyEntry operation recalcMask acl request) =
      under AclEntry.key key (changed operation acl request) := by
  -- The mask is another entry than the one that counts here.
  cases recalcMask with
  | true => exact under_put_of_ne rfl (distinct_changed operation request distinct) (counts rfl)
  | false => rfl

/-- Entries with other keys are as they were. -/
theorem under_applyEntry_of_ne (counts : Counts recalcMask key)
    (distinct : Distinct AclEntry.key acl) (different : key ≠ request.key) :
    under AclEntry.key key (applyEntry operation recalcMask acl request) =
      under AclEntry.key key acl := by
  rw [under_applyEntry operation counts distinct, changed]
  -- The entry changed is another one.
  split
  · exact KeyedList.under_remove_of_ne different
  · exact under_put_of_ne request.key_entry distinct different

/-- The requested entry is there once, with its permissions. -/
theorem under_applyEntry_modify (counts : Counts recalcMask request.key)
    (distinct : Distinct AclEntry.key acl) :
    (under AclEntry.key request.key (applyEntry .modifyEntries recalcMask acl request)).map
      AclEntry.permset = [permsetOf request.perms] := by
  -- The entry is put with the permissions of the request.
  rw [under_applyEntry .modifyEntries counts distinct, changed, if_neg nofun]
  exact under_put_self request.key_entry rfl distinct

/-- The requested entry is gone. -/
theorem under_applyEntry_remove (counts : Counts recalcMask request.key)
    (distinct : Distinct AclEntry.key acl) :
    under AclEntry.key request.key (applyEntry .removeEntries recalcMask acl request) = [] := by
  rw [under_applyEntry .removeEntries counts distinct, changed, if_pos rfl]
  exact KeyedList.under_remove_self distinct

/-- The mask is the recalculated one. -/
theorem under_applyEntry_mask (distinct : Distinct AclEntry.key acl) :
    (under AclEntry.key maskKey (applyEntry operation true acl request)).map AclEntry.permset =
      [groupClass (applyEntry operation true acl request)] :=
  under_calcMask (distinct_changed operation request distinct)

/-- No key comes twice when requested entries have been applied. -/
theorem distinct_applied (distinct : Distinct AclEntry.key acl)
    (requests : List AccessControlEntry) :
    Distinct AclEntry.key (applied operation recalcMask acl requests) := by
  -- By induction on the requests.
  induction requests generalizing acl with
  | nil => exact distinct
  | cons request requests ih =>
    exact ih (distinct_applyEntry operation recalcMask request distinct)

/-- What is requested first is applied first. -/
theorem applied_append (front back : List AccessControlEntry) :
    applied operation recalcMask acl (front ++ back) =
      applied operation recalcMask (applied operation recalcMask acl front) back :=
  List.foldl_append ..

/-- The first requested entry is applied first. -/
theorem applied_cons (request : AccessControlEntry) (back : List AccessControlEntry) :
    applied operation recalcMask acl (request :: back) =
      applied operation recalcMask (applyEntry operation recalcMask acl request) back :=
  rfl

/-- Entries that are not requested are as they were. -/
theorem under_applied_of_ne (counts : Counts recalcMask key)
    (distinct : Distinct AclEntry.key acl) {requests : List AccessControlEntry}
    (others : ∀ request ∈ requests, request.key ≠ key) :
    under AclEntry.key key (applied operation recalcMask acl requests) =
      under AclEntry.key key acl := by
  -- By induction on the requests, none of which is about this entry.
  induction requests generalizing acl with
  | nil => rfl
  | cons request requests ih =>
    obtain ⟨here, later⟩ := List.forall_mem_cons.mp others
    rw [← under_applyEntry_of_ne operation counts distinct here.symm]
    exact ih (distinct_applyEntry operation recalcMask request distinct) later

end

/-- The file has what was requested last, and apart from that what it had. -/
structure Modified (recalcMask : Bool) (requests : List AccessControlEntry) (old new : AclT) :
    Prop where
  requested : ∀ front request back, requests = front ++ request :: back →
    (∀ later ∈ back, later.key ≠ request.key) → Counts recalcMask request.key →
      (under AclEntry.key request.key new).map AclEntry.permset = [permsetOf request.perms]
  others : ∀ key, (∀ request ∈ requests, request.key ≠ key) → Counts recalcMask key →
    under AclEntry.key key new = under AclEntry.key key old

/-- The file does not have what was requested, and apart from that what it had. -/
structure Removed (recalcMask : Bool) (requests : List AccessControlEntry) (old new : AclT) :
    Prop where
  requested : ∀ request ∈ requests, Counts recalcMask request.key →
    under AclEntry.key request.key new = []
  others : ∀ key, (∀ request ∈ requests, request.key ≠ key) → Counts recalcMask key →
    under AclEntry.key key new = under AclEntry.key key old

section

variable {recalcMask : Bool} {acl : AclT}

/-- Applying requested entries modifies an ACL. -/
theorem modified_applied (distinct : Distinct AclEntry.key acl)
    (requests : List AccessControlEntry) :
    Modified recalcMask requests acl (applied .modifyEntries recalcMask acl requests) where
  requested := by
    rintro front request back rfl last counts
    have before : Distinct AclEntry.key (applied .modifyEntries recalcMask acl front) :=
      distinct_applied _ distinct front
    have there := distinct_applyEntry .modifyEntries recalcMask request before
    -- Nothing behind the last request for a key changes its entry.
    rw [applied_append, applied_cons, under_applied_of_ne _ counts there last]
    exact under_applyEntry_modify counts before
  others key others counts := under_applied_of_ne _ counts distinct others

/-- Applying requested entries removes them from an ACL. -/
theorem removed_applied (distinct : Distinct AclEntry.key acl)
    (requests : List AccessControlEntry) :
    Removed recalcMask requests acl (applied .removeEntries recalcMask acl requests) where
  requested := by
    induction requests generalizing acl with
    | nil => exact nofun
    | cons first requests ih =>
      intro request mem counts
      have there := distinct_applyEntry .removeEntries recalcMask first distinct
      by_cases again : ∃ later ∈ requests, later.key = request.key
      · obtain ⟨later, behind, same⟩ := again
        rw [← same] at counts ⊢
        exact ih there later behind counts
      -- What has been removed does not come back.
      · have others : ∀ later ∈ requests, later.key ≠ request.key :=
          fun later behind same => again ⟨later, behind, same⟩
        obtain rfl | behind := List.mem_cons.mp mem
        · rw [applied_cons, under_applied_of_ne _ counts there others]
          exact under_applyEntry_remove counts distinct
        · exact absurd rfl (others request behind)
  others key others counts := under_applied_of_ne _ counts distinct others

variable (operation : Operation)

/-- No state on the way has two entries with the same key, and the mask is always right. -/
theorem steps_states (distinct : Distinct AclEntry.key acl) (requests : List AccessControlEntry) :
    ∀ state ∈ steps operation recalcMask acl requests, Distinct AclEntry.key state ∧
      (recalcMask → (under AclEntry.key maskKey state).map AclEntry.permset =
        [groupClass state]) := by
  -- By induction on the requests, each of which leaves a state as described.
  induction requests generalizing acl with
  | nil => exact nofun
  | cons request requests ih =>
    have there := distinct_applyEntry operation recalcMask request distinct
    refine List.forall_mem_cons.mpr ⟨⟨there, ?_⟩, ih there⟩
    rintro rfl
    exact under_applyEntry_mask operation distinct

/-- There is one state for each requested entry. -/
theorem length_steps (acl : AclT) (requests : List AccessControlEntry) :
    (steps operation recalcMask acl requests).length = requests.length := by
  induction requests generalizing acl with
  | nil => rfl
  | cons request requests ih => exact congrArg Nat.succ (ih _)

/-- The last state is what comes of all requested entries. -/
theorem getLastD_steps (acl : AclT) (requests : List AccessControlEntry) :
    (steps operation recalcMask acl requests).getLastD acl =
      applied operation recalcMask acl requests := by
  -- By induction on the requests.
  induction requests generalizing acl with
  | nil => rfl
  | cons request requests ih =>
    rw [steps, List.getLastD_cons]
    exact ih _

/-- What comes of the first requested entries is one of the states. -/
theorem applied_mem_steps {front : List AccessControlEntry} (some_ : front ≠ [])
    (back : List AccessControlEntry) :
    applied operation recalcMask acl front ∈ steps operation recalcMask acl (front ++ back) := by
  -- By induction on the requests that have been applied.
  induction front generalizing acl with
  | nil => exact absurd rfl some_
  | cons request front ih =>
    cases front with
    | nil => exact List.mem_cons_self
    | cons next front => exact List.mem_cons_of_mem _ (ih nofun)

end

/-- What a run of `updateACL` in which no call fails makes of the ACL of the file. -/
structure Folds (operation : Operation) (recalcMask : Bool) (requests : List AccessControlEntry)
    (type : AclType) (world next : World) : Prop where
  modified : operation = .modifyEntries →
    Modified recalcMask requests (world.acl type) (next.acl type)
  removed : operation = .removeEntries →
    Removed recalcMask requests (world.acl type) (next.acl type)
  distinct : Distinct AclEntry.key (next.acl type)
  /-- The ACL has been set for each requested entry, and the mask was recalculated each time. -/
  states : ∃ states, next.history = world.history ++ states ∧
    states.length = requests.length ∧ states.getLastD (world.acl type) = next.acl type ∧
      ∀ state ∈ states, Distinct AclEntry.key state ∧
        (recalcMask → (under AclEntry.key maskKey state).map AclEntry.permset =
          [groupClass state])

section

variable (fails : Nat → Bool) (useDefaultACL : Bool) (requests : List AccessControlEntry)
variable (operation : Operation) (recalcMask : Bool) (world : World)

/-- `updateACL` applies all requested entries, or it ends with an error behind the first ones. -/
theorem updateACL_cases :
    (∃ calls, updateACL fails useDefaultACL requests operation recalcMask world =
        .ok () (world.after (aclType useDefaultACL) operation recalcMask requests calls) ∧
      ∀ new ∈ steps operation recalcMask (world.acl (aclType useDefaultACL)) requests,
        Valid new) ∨
      ∃ done rest function calls, requests = done ++ rest ∧
        updateACL fails useDefaultACL requests operation recalcMask world =
          .error function
            (world.after (aclType useDefaultACL) operation recalcMask done calls) ∧
        ((∃ count, fails count) ∨ ∃ request back, rest = request :: back ∧
          ¬ Valid (applied operation recalcMask (world.acl (aclType useDefaultACL))
            (done ++ [request]))) := by
  rw [updateACL]
  cases wrong : fails world.calls with
  | true =>
    have error : aclGetFile fails (aclType useDefaultACL) world =
        .error .aclGetFile { world with calls := world.calls + 1 } :=
      bind_error (by simp [call, wrong])
    refine .inr ⟨[], requests, .aclGetFile, world.calls + 1, rfl, ?_, .inl ⟨_, wrong⟩⟩
    rw [bind_error error, World.after_nil]
  | false =>
    have called : call fails .aclGetFile world =
        .ok () { world with calls := world.calls + 1 } := by
      simp [call, wrong]
    have ok : aclGetFile fails (aclType useDefaultACL) world =
        .ok (world.acl (aclType useDefaultACL)) { world with calls := world.calls + 1 } := by
      rw [aclGetFile, bind_ok called]
      rfl
    rw [bind_ok ok]
    have ends : Ends fails (aclType useDefaultACL) operation recalcMask
        { world with calls := world.calls + 1 } requests _ :=
      updateLoop_ends { world with calls := world.calls + 1 } requests
    generalize ended : updateLoop fails (aclType useDefaultACL) operation recalcMask
      (world.acl (aclType useDefaultACL)) requests
      { world with calls := world.calls + 1 } = result at ends
    cases ends with
    | all calls valid =>
      rw [bind_ok ended]
      -- Only the ACL in memory is left to be freed.
      obtain ⟨calls, ok⟩ | ⟨wrong, function, calls, error⟩ := computes_call fails .aclFree
        (world.after (aclType useDefaultACL) operation recalcMask requests calls)
      · exact .inl ⟨calls, ok, valid⟩
      · exact .inr ⟨requests, [], function, calls, (List.append_nil _).symm, error, .inl wrong⟩
    | part done rest request function calls split valid why =>
      rw [bind_error ended]
      refine .inr ⟨done, request :: rest, function, calls, split, rfl, ?_⟩
      exact why.symm.imp_right fun invalid => ⟨request, rest, rfl, invalid⟩

/-- Nothing is rejected when no call fails and all states on the way are valid. -/
theorem updateACL_ok (none_ : ∀ count, fails count = false)
    (valid : ∀ new ∈ steps operation recalcMask (world.acl (aclType useDefaultACL)) requests,
      Valid new) :
    ∃ calls, updateACL fails useDefaultACL requests operation recalcMask world =
      .ok () (world.after (aclType useDefaultACL) operation recalcMask requests calls) := by
  -- No call of libacl fails, and every state is valid, so no request ends the program.
  obtain ⟨calls, ok, -⟩ | ⟨done, rest, function, calls, rfl, error, why⟩ :=
    updateACL_cases fails useDefaultACL requests operation recalcMask world
  · exact ⟨calls, ok⟩
  · obtain ⟨count, wrong⟩ | ⟨request, back, rfl, invalid⟩ := why
    · exact absurd ((none_ count).symm.trans wrong) nofun
    · rw [List.append_cons] at valid
      exact absurd (valid _ (applied_mem_steps operation (by simp) back)) invalid

/-- In runs in which no call fails, the requested entries are folded into the ACL of the file. -/
theorem updateACL_folds {next : World}
    (distinct : Distinct AclEntry.key (world.acl (aclType useDefaultACL)))
    (ok : updateACL fails useDefaultACL requests operation recalcMask world = .ok () next) :
    Folds operation recalcMask requests (aclType useDefaultACL) world next := by
  -- The run has gone through all requested entries, and the file has what comes of them.
  obtain ⟨calls, ok_, -⟩ | ⟨_, _, _, _, _, error, _⟩ :=
    updateACL_cases fails useDefaultACL requests operation recalcMask world
  · obtain ⟨-, rfl⟩ := EStateM.Result.ok.inj (ok.symm.trans ok_)
    have new : (world.after (aclType useDefaultACL) operation recalcMask requests calls).acl
        (aclType useDefaultACL) =
        applied operation recalcMask (world.acl (aclType useDefaultACL)) requests :=
      Function.update_self ..
    refine ⟨?_, ?_, new ▸ distinct_applied operation distinct requests,
      _, rfl, length_steps .., ?_, steps_states operation distinct requests⟩
    · rintro rfl
      exact new ▸ modified_applied distinct requests
    · rintro rfl
      exact new ▸ removed_applied distinct requests
    · exact (getLastD_steps ..).trans new.symm
  · exact absurd (ok.symm.trans error) nofun

/-- What holds of the requested entries one by one, as the file is updated for each of them. -/
structure InOrder : Prop where
  /-- An error leaves the file as the entries before it have made it. -/
  onError : ∀ function next,
    updateACL fails useDefaultACL requests operation recalcMask world = .error function next →
    ∃ done rest, requests = done ++ rest ∧
      next.acl = Function.update world.acl (aclType useDefaultACL)
        (applied operation recalcMask (world.acl (aclType useDefaultACL)) done) ∧
      next.history = world.history ++
        steps operation recalcMask (world.acl (aclType useDefaultACL)) done
  /-- Where no other call fails, the ACL has to be valid each time. -/
  rejected : (∀ count, fails count = false) →
    ((∃ function next, updateACL fails useDefaultACL requests operation recalcMask world =
        .error function next) ↔
      ∃ front back, requests = front ++ back ∧ front ≠ [] ∧
        ¬ Valid (applied operation recalcMask (world.acl (aclType useDefaultACL)) front))

/-- `updateACL` applies the requested entries in their order, up to the first error. -/
theorem updateACL_inOrder :
    InOrder fails useDefaultACL requests operation recalcMask world := by
  -- Both parts go through the ways in which the run may end.
  have cases_ := updateACL_cases fails useDefaultACL requests operation recalcMask world
  refine ⟨fun function next error => ?_, fun none_ => ⟨?_, ?_⟩⟩
  · obtain ⟨calls, ok, -⟩ | ⟨done, rest, function_, calls, split, error_, -⟩ := cases_
    · exact absurd (ok.symm.trans error) nofun
    · obtain ⟨-, rfl⟩ := EStateM.Result.error.inj (error.symm.trans error_)
      exact ⟨done, rest, split, rfl, rfl⟩
  · rintro ⟨function, next, error⟩
    obtain ⟨calls, ok, -⟩ | ⟨done, rest, function_, calls, split, error_, why⟩ := cases_
    · exact absurd (ok.symm.trans error) nofun
    · obtain ⟨count, wrong⟩ | ⟨request, back, rfl, invalid⟩ := why
      · exact absurd ((none_ count).symm.trans wrong) nofun
      · exact ⟨done ++ [request], back, by simp [split], by simp, invalid⟩
  · rintro ⟨front, back, rfl, some_, invalid⟩
    obtain ⟨calls, ok, valid⟩ | ⟨done, rest, function, calls, split, error, -⟩ := cases_
    · exact absurd (valid _ (applied_mem_steps operation some_ back)) invalid
    · exact ⟨function, _, error⟩

end

/-- A file of which the owner may read, write and execute, and nobody else anything. -/
def private_ : World where
  acl _ := [⟨.userObj, errorId, ⟨true, true, true⟩⟩, ⟨.groupObj, errorId, .clear⟩,
    ⟨.other, errorId, .clear⟩]
  history := []
  calls := 0

/-- Read access for the owner and then for a user, and a mask that comes behind. -/
def reads : List AccessControlEntry :=
  [⟨.userObj, 0, aclRead⟩, ⟨.user, 1000, aclRead⟩, ⟨.mask, 0, aclRead⟩]

/-- The law, for these requested entries and a mask that is recalculated. -/
theorem updateACL_folds_reads :
    ∃ next, Folds .modifyEntries true reads .access private_ next := by
  -- Every state on the way is valid, as evaluation shows.
  obtain ⟨calls, ok⟩ := updateACL_ok (fun _ => false) false reads .modifyEntries true private_
    (fun _ => rfl) (by decide)
  exact ⟨_, updateACL_folds (fun _ => false) false reads .modifyEntries true private_ (by decide)
    ok⟩

/-- Without the recalculation, the second entry cannot be set, and the first one has been. -/
theorem updateACL_reads :
    ∃ function calls, updateACL (fun _ => false) false reads .modifyEntries false private_ =
      .error function (private_.after .access .modifyEntries false (reads.take 1) calls) := by
  obtain ⟨_, _, valid⟩ | ⟨done, rest, function, calls, split, error, why⟩ :=
    updateACL_cases (fun _ => false) false reads .modifyEntries false private_
  · exact absurd valid (by decide)
  · obtain ⟨_, wrong⟩ | ⟨request, back, rfl, invalid⟩ := why
    · exact absurd wrong nofun
    · have length := congrArg List.length split
      have first : done = reads.take done.length := by rw [split, List.take_left]
      have more : done ++ [request] = reads.take (done.length + 1) := by
        rw [split, List.append_cons done request back, List.take_left' (by simp)]
      rw [List.length_append, List.length_cons] at length
      rw [more] at invalid
      -- Only what comes of two entries is not valid.
      match count : done.length with
      | 0 =>
        rw [count] at invalid
        exact absurd (by decide) invalid
      | 1 =>
        rw [count] at first
        exact ⟨function, calls, first ▸ error⟩
      | 2 =>
        rw [count] at invalid
        exact absurd (by decide) invalid
      | count_ + 3 =>
        rw [count] at length
        have three : reads.length = 3 := rfl
        omega

/-- `updateACL` is not all-or-nothing, and invalid states on the way are not passed over. -/
theorem updateACL_not_atomic :
    (¬ ∀ (fails : Nat → Bool) (useDefaultACL : Bool) (requests : List AccessControlEntry)
      (operation : Operation) (recalcMask : Bool) (world : World) (function : LibraryCall)
      (next : World),
      updateACL fails useDefaultACL requests operation recalcMask world = .error function next →
        next.acl = world.acl) ∧
      ¬ ∀ (fails : Nat → Bool) (useDefaultACL : Bool) (requests : List AccessControlEntry)
        (operation : Operation) (recalcMask : Bool) (world : World) (function : LibraryCall)
        (next : World),
        updateACL fails useDefaultACL requests operation recalcMask world = .error function next →
          Valid (applied operation recalcMask (world.acl (aclType useDefaultACL)) requests) →
            ∃ count, fails count := by
  -- The same run refutes both parts.
  obtain ⟨function, calls, error⟩ := updateACL_reads
  constructor
  · intro promised
    have same := promised _ _ _ _ _ _ _ _ error
    have different : applied .modifyEntries false (private_.acl .access) (reads.take 1) ≠
        private_.acl .access := by
      decide
    exact different (congrFun same .access)
  · intro promised
    obtain ⟨count, wrong⟩ := promised _ _ _ _ _ _ _ _ error (by decide)
    exact absurd wrong nofun

end SysProg.Acl
