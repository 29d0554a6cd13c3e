import SysProg.Acl.ParseACLGrammar

/-! When `parseACL` accepts a text, and what it stores then. -/

namespace SysProg.Acl

open SysProg.UsersGroups (Id errorId)
open SysProg.Strings

/-- The entry that is left, and whether there is an error. -/
def EntrySpec.outcome (spec : EntrySpec) : AccessControlEntry × Except ParseError Unit :=
  (spec.ace, spec.result)

/-- What is made of the parts of an entry. -/
def entryOf (lookups : Lookups) (permsReqd : Bool) (ace : AccessControlEntry)
    (tag qualifier letters : List UInt8) : AccessControlEntry × Except ParseError Unit :=
  if letters ≠ [] ∧ !permsReqd then (ace, .error .cannotSpecifyPermissions)
  else if letters = [] ∧ permsReqd then (ace, .error .mustSpecifyPermissions)
  else
    match tagType tag (qualifier ≠ []) with
    | none => (ace, .error .badTag)
    | some tag =>
      let (qual, result) := qualifierId lookups tag qualifier
      let ace := { ace with tag, qual }
      match result with
      | .error error => (ace, .error error)
      | .ok () =>
        if letters = [] then (ace, .ok ())
        else
          let (perms, result) := permsLoop 0 letters
          ({ ace with perms }, result)

/-- What is made of an entry, which is cut at the first two colons. -/
def entry (lookups : Lookups) (permsReqd : Bool) (ace : AccessControlEntry) (text : List UInt8) :
    AccessControlEntry × Except ParseError Unit :=
  match strchr text colon with
  | none => (ace, .error .missingInitialColon)
  | some colon1 =>
    let behind := text.drop (colon1 + 1)
    match strchr behind colon with
    | none => entryOf lookups permsReqd ace (text.take colon1) behind []
    | some colon2 =>
      entryOf lookups permsReqd ace (text.take colon1) (behind.take colon2)
        (behind.drop (colon2 + 1))

/-- The second colon with what is behind it, if there is one. -/
def second (letters : Option (List UInt8)) : List UInt8 :=
  letters.elim [] (colon :: ·)

/-- A text without a colon, or its parts around the first two colons. -/
theorem exists_parts (text : List UInt8) :
    colon ∉ text ∨ ∃ tag qualifier letters, colon ∉ tag ∧ colon ∉ qualifier ∧
      text = tag ++ colon :: (qualifier ++ second letters) := by
  -- A text has no colon, one, or more than one.
  by_cases first : colon ∈ text
  · obtain ⟨tag, behind, rfl, noTag⟩ := List.eq_append_cons_of_mem first
    by_cases other : colon ∈ behind
    · obtain ⟨qualifier, letters, rfl, noQualifier⟩ := List.eq_append_cons_of_mem other
      exact .inr ⟨tag, qualifier, some letters, noTag, noQualifier, rfl⟩
    · exact .inr ⟨tag, behind, none, noTag, other, by simp [second]⟩
  · exact .inl first

section

variable {lookups : Lookups} {permsReqd : Bool} {ace : AccessControlEntry}
variable {tag qualifier : List UInt8} {letters : Option (List UInt8)}

/-- An entry is what is made of its parts. -/
theorem entry_parts (noTag : colon ∉ tag) (noQualifier : colon ∉ qualifier) :
    entry lookups permsReqd ace (tag ++ colon :: (qualifier ++ second letters)) =
      entryOf lookups permsReqd ace tag qualifier (letters.getD []) := by
  -- The first colon ends the tag, and the second one, if it is there, the qualifier.
  have behind : (tag ++ colon :: (qualifier ++ second letters)).drop (tag.length + 1) =
      qualifier ++ second letters := by
    rw [← List.drop_drop, List.drop_left]
    rfl
  rw [entry, strchr_append noTag]
  dsimp only
  rw [behind, List.take_left]
  cases letters with
  | none =>
    rw [second, Option.elim_none, List.append_nil, strchr_eq_none.mpr noQualifier]
    rfl
  | some letters =>
    rw [second, Option.elim_some, strchr_append noQualifier]
    dsimp only
    rw [List.take_left, ← List.drop_drop, List.drop_left]
    rfl

variable {heap : Heap} {entryStr : Pointer} {before after : List UInt8}

/-- What `parseEntrySpec` makes of the parts of an entry. -/
theorem parseEntrySpec_parts (noTag : colon ∉ tag) (noQualifier : colon ∉ qualifier)
    (laid : heap.Laid entryStr before (tag ++ colon :: (qualifier ++ second letters)) after) :
    (parseEntrySpec lookups heap entryStr ace permsReqd).outcome =
      entryOf lookups permsReqd ace tag qualifier (letters.getD []) := by
  have noNull : 0 ∉ qualifier ++ second letters := fun mem =>
    laid.noNull (List.mem_append_right _ (List.mem_cons_of_mem _ mem))
  -- The presence of a qualifier is seen before anything is cut.
  have hasQual : (heap.byte (entryStr.advance (tag.length + 1)) ≠ 0 ∧
      heap.byte (entryStr.advance (tag.length + 1)) ≠ colon) ↔ qualifier ≠ [] := by
    rw [laid.byte (by simp)]
    cases qualifier with
    | nil => cases letters <;> simp [second]
    | cons char qualifier =>
      have noColon : char ≠ colon := fun same => noQualifier (same ▸ List.mem_cons_self)
      have noZero : char ≠ 0 := fun same => noNull (same ▸ List.mem_cons_self)
      simp [noColon, noZero]
  -- The tag ends at the first colon, and the string behind it is searched for the second.
  have cut := laid.cut
  have behind := cut.next noNull
  have step : (entryStr.advance tag.length).advance 1 = entryStr.advance (tag.length + 1) :=
    Pointer.advance_advance ..
  rw [parseEntrySpec, laid.strchr_some noTag]
  simp only [step, hasQual, cut.string]
  generalize entryStr.advance (tag.length + 1) = qualStr at behind
  generalize heap.write (entryStr.advance tag.length) 0 = ended at behind
  cases letters with
  | none =>
    rw [second, Option.elim_none, List.append_nil] at behind
    rw [behind.strchr_none noQualifier]
    simp only [Heap.terminate, behind.string]
    cases permsReqd with
    | true => rfl
    | false =>
      rw [entryOf]
      cases tagType tag (qualifier ≠ []) with
      | none => rfl
      | some tag =>
        dsimp only
        cases (qualifierId lookups tag qualifier).2 <;> rfl
  | some letters =>
    rw [second, Option.elim_some] at behind noNull
    have more := behind.cut
    have last := more.next fun mem => noNull (List.mem_append_right _ (List.mem_cons_of_mem _ mem))
    have step : (qualStr.advance qualifier.length).advance 1 =
        qualStr.advance (qualifier.length + 1) :=
      Pointer.advance_advance ..
    -- There is a string behind the second colon unless a null byte follows.
    have hasPerms : ended.byte (qualStr.advance (qualifier.length + 1)) ≠ 0 ↔ letters ≠ [] := by
      rw [behind.byte (by simp)]
      cases letters with
      | nil => simp
      | cons char letters =>
        have noZero : char ≠ 0 := fun same => noNull (by simp [same])
        simp [noZero]
    rw [behind.strchr_some noQualifier]
    simp only [Option.any_some, Heap.terminate, step, hasPerms, more.string]
    rw [entryOf]
    cases letters with
    | nil =>
      cases permsReqd with
      | true => rfl
      | false =>
        cases tagType tag (qualifier ≠ []) with
        | none => rfl
        | some tag =>
          dsimp only
          cases (qualifierId lookups tag qualifier).2 <;> rfl
    | cons char letters =>
      cases permsReqd with
      | false => rfl
      | true =>
        cases tagType tag (qualifier ≠ []) with
        | none => rfl
        | some tag =>
          have perms : (ended.write (qualStr.advance qualifier.length) 0).string
              ((qualStr.advance qualifier.length).advance 1) = char :: letters := by
            rw [step, last.string]
          dsimp only
          cases (qualifierId lookups tag qualifier).2 with
          | error error => rfl
          | ok _ => simp [EntrySpec.outcome, perms]

variable {text : List UInt8}

variable (lookups permsReqd ace) in
/-- What `parseEntrySpec` makes of an entry, wherever it is in memory. -/
theorem parseEntrySpec_outcome (laid : heap.Laid entryStr before text after) :
    (parseEntrySpec lookups heap entryStr ace permsReqd).outcome =
      entry lookups permsReqd ace text := by
  -- Without a colon nothing is parsed; otherwise the parts are.
  obtain noColon | ⟨tag, qualifier, letters, noTag, noQualifier, rfl⟩ := exists_parts text
  · rw [parseEntrySpec, laid.strchr_none noColon, entry, strchr_eq_none.mpr noColon]
    rfl
  · rw [parseEntrySpec_parts noTag noQualifier laid, entry_parts noTag noQualifier]

variable (lookups permsReqd ace) in
/-- An entry with a colon is cut there, and perhaps at the second colon. -/
theorem parseEntrySpec_heap {colon1 : Pointer} (found : heap.strchr entryStr colon = some colon1) :
    (parseEntrySpec lookups heap entryStr ace permsReqd).heap = heap.write colon1 0 ∨
      (parseEntrySpec lookups heap entryStr ace permsReqd).heap =
        (heap.write colon1 0).terminate
          ((heap.write colon1 0).strchr (colon1.advance 1) colon) := by
  -- Nothing is written behind the tests up to the one for the tag.
  rw [parseEntrySpec, found]
  dsimp only
  split
  · exact .inl rfl
  · split
    · exact .inl rfl
    · split
      · exact .inl rfl
      · split <;> exact .inr rfl

variable (lookups permsReqd ace) in
/-- A string behind an entry is left alone when the entry is parsed. -/
theorem parseEntrySpec_frame (laid : heap.Laid entryStr before text after) {other : Pointer}
    {front next rest : List UInt8} (laid_ : heap.Laid other front next rest)
    (block : other.block = entryStr.block)
    (behind : entryStr.offset + text.length < other.offset) :
    ∃ front, (parseEntrySpec lookups heap entryStr ace permsReqd).heap.Laid other front next
      rest := by
  obtain noColon | ⟨tag, qualifier, letters, noTag, noQualifier, rfl⟩ := exists_parts text
  · rw [parseEntrySpec, laid.strchr_none noColon]
    exact ⟨front, laid_⟩
  · rw [List.length_append, List.length_cons, List.length_append] at behind
    -- The first colon is before the other string.
    have place : (entryStr.advance tag.length).offset < other.offset := by
      rw [Pointer.offset_advance]
      omega
    obtain ⟨front, once⟩ := laid_.write_before place block.symm 0
    obtain same | same := parseEntrySpec_heap lookups permsReqd ace (laid.strchr_some noTag)
    · exact ⟨front, same ▸ once⟩
    · have rest_ := laid.cut.next fun mem =>
        laid.noNull (List.mem_append_right _ (List.mem_cons_of_mem _ mem))
      rw [same, Pointer.advance_advance]
      cases letters with
      | none =>
        rw [second, Option.elim_none, List.append_nil] at rest_
        rw [rest_.strchr_none noQualifier]
        exact ⟨front, once⟩
      -- So is the second one.
      | some letters =>
        rw [second, Option.elim_some] at rest_ behind
        rw [rest_.strchr_some noQualifier, Pointer.advance_advance]
        have place : (entryStr.advance (tag.length + 1 + qualifier.length)).offset <
            other.offset := by
          rw [Pointer.offset_advance]
          rw [List.length_cons] at behind
          omega
        exact once.write_before place block.symm 0

/-- What is stored for an item, where the permissions stay as they were if none are written. -/
def Item.stored (lookups : Lookups) (permsReqd : Bool) (ace : AccessControlEntry) (item : Item) :
    AccessControlEntry :=
  if permsReqd then item.entry lookups else { item.entry lookups with perms := ace.perms }

/-- The qualifier of a valid item is resolved. -/
theorem Item.Valid.qualifierId_eq {item : Item} (valid : item.Valid lookups permsReqd) :
    qualifierId lookups item.tag item.qualifier = (item.qual lookups, .ok ()) := by
  have resolvable := valid.resolvable
  rw [Item.qual] at resolvable ⊢
  -- Only the name of a user or a group is looked up.
  cases tag : item.tag with
  | user =>
    rw [tag] at resolvable
    rw [qualifierId, if_neg (resolvable (.inl rfl))]
  | group =>
    rw [tag] at resolvable
    rw [qualifierId, if_neg (resolvable (.inr rfl))]
  | _ => rfl

/-- A valid item is accepted and stored. -/
theorem entry_item {item : Item} (valid : item.Valid lookups permsReqd) :
    entry lookups permsReqd ace item.text = (item.stored lookups permsReqd ace, .ok ()) := by
  -- The tag is a spelling, the qualifier is resolved, and the letters are all read.
  have text : item.text = item.kind.spelled item.long ++ colon ::
      (item.qualifier ++ second (item.perms.map (List.map Letter.char))) := by
    rw [Item.text, second]
    cases item.perms <;> rfl
  have letters : (item.perms.map (List.map Letter.char)).getD [] =
      item.letters.map Letter.char := by
    rw [Item.letters]
    cases item.perms <;> rfl
  have noQualifier : colon ∉ item.qualifier := fun mem => (valid.plain colon mem).2 rfl
  have perms := valid.perms
  rw [text, entry_parts (item.kind.notMem_spelled item.long).1 noQualifier, letters, entryOf,
    tagType_spelled, Item.stored]
  dsimp only
  rw [valid.qualifierId_eq, permsLoop_map]
  cases permsReqd with
  | true => simp [perms.mpr rfl, Item.entry, union]
  | false =>
    have none_ : item.letters = [] :=
      not_not.mp fun some_ => absurd (perms.mp some_) Bool.false_ne_true
    simp [none_, Item.entry]

/-- Only resolved qualifiers are accepted. -/
theorem Item.resolvable_of_ok {item : Item}
    (found : (qualifierId lookups item.tag item.qualifier).2 = .ok ()) :
    item.tag = .user ∨ item.tag = .group → item.qual lookups ≠ errorId := by
  rintro (tag | tag)
  all_goals
    rw [Item.qual, tag]
    rw [tag, qualifierId] at found
    -- A name that cannot be looked up is an error.
    intro wrong
    rw [if_pos wrong] at found
    exact absurd found nofun

/-- What is accepted, and has no comma in it, is the text of a valid item. -/
theorem exists_item (noComma : comma ∉ text)
    (accepted : (entry lookups permsReqd ace text).2 = .ok ()) :
    ∃ item : Item, item.text = text ∧ item.Valid lookups permsReqd := by
  obtain noColon | ⟨tag, qualifier, letters, noTag, noQualifier, rfl⟩ := exists_parts text
  · rw [entry, strchr_eq_none.mpr noColon] at accepted
    exact absurd accepted nofun
  · rw [entry_parts noTag noQualifier, entryOf] at accepted
    -- The four tests come one after the other.
    split at accepted
    · exact absurd accepted nofun
    rename_i may
    split at accepted
    · exact absurd accepted nofun
    rename_i must
    split at accepted
    · exact absurd accepted nofun
    rename_i type found
    dsimp only at accepted
    split at accepted
    · exact absurd accepted nofun
    rename_i resolved
    obtain ⟨kind, long, rfl⟩ := exists_spelled found
    have word : ∃ word : Option (List Letter), word.map (List.map Letter.char) = letters := by
      cases letters with
      | none => exact ⟨none, rfl⟩
      | some letters =>
        split at accepted
        · rename_i nothing
          exact ⟨some [], congrArg some nothing.symm⟩
        · obtain ⟨word, rfl⟩ := exists_letters accepted
          exact ⟨some word, rfl⟩
    obtain ⟨word, rfl⟩ := word
    have type_ : (⟨kind, long, qualifier, word⟩ : Item).tag = type :=
      Option.some.inj ((tagType_spelled ⟨kind, long, qualifier, word⟩).symm.trans found)
    refine ⟨⟨kind, long, qualifier, word⟩, ?_, ?_, ?_, ?_⟩
    · cases word <;> rfl
    · refine fun char mem => ⟨?_, ?_⟩
      · rintro rfl
        exact noComma (by simp [mem])
      · rintro rfl
        exact noQualifier mem
    · exact Item.resolvable_of_ok (type_ ▸ resolved)
    · cases word with
      | none => cases permsReqd <;> simp_all [Item.letters]
      | some word => cases permsReqd <;> cases word <;> simp_all [Item.letters]

/-- The text of a valid item. -/
def Accepted (lookups : Lookups) (permsReqd : Bool) (text : List UInt8) : Prop :=
  ∃ item : Item, item.text = text ∧ item.Valid lookups permsReqd

variable (lookups permsReqd ace) in
/-- What is accepted is what is the text of a valid item. -/
theorem entry_ok_iff (noComma : comma ∉ text) :
    (entry lookups permsReqd ace text).2 = .ok () ↔ Accepted lookups permsReqd text := by
  refine ⟨exists_item noComma, ?_⟩
  rintro ⟨item, rfl, valid⟩
  rw [entry_item valid]

variable (lookups permsReqd ace) in
/-- An entry between commas is rejected, or it is accepted and stored. -/
theorem parseEntrySpec_cases (laid : heap.Laid entryStr before text after)
    (noComma : comma ∉ text) :
    (¬ Accepted lookups permsReqd text ∧ ∃ error,
        (parseEntrySpec lookups heap entryStr ace permsReqd).result = .error error) ∨
      Accepted lookups permsReqd text ∧
        (parseEntrySpec lookups heap entryStr ace permsReqd).result = .ok () ∧
        (parseEntrySpec lookups heap entryStr ace permsReqd).ace =
          (entry lookups permsReqd ace text).1 := by
  -- What is in memory matters only through the text of the entry.
  have parsed := parseEntrySpec_outcome lookups permsReqd ace laid
  have iff := entry_ok_iff lookups permsReqd ace noComma
  rw [← parsed, EntrySpec.outcome] at iff
  cases found : (parseEntrySpec lookups heap entryStr ace permsReqd).result with
  | error error =>
    rw [found] at iff
    exact .inl ⟨fun accepted => absurd (iff.mpr accepted) nofun, error, rfl⟩
  | ok _ =>
    rw [found] at iff
    exact .inr ⟨iff.mp rfl, rfl, congrArg Prod.fst parsed⟩

/-- What a loop over a text returns and stores. -/
structure LoopFacts (lookups : Lookups) (permsReqd : Bool) (n : Nat) (text : List UInt8)
    (aclist : Nat → AccessControlEntry) (parsed : Parsed) : Prop where
  result : ∀ count, parsed.result = .ok count ↔
    (∀ part ∈ text.splitOn comma, Accepted lookups permsReqd part) ∧
      n + (text.splitOn comma).length = count ∧ count ≤ maxEntries
  stored : ∀ count, parsed.result = .ok count →
    ∀ i part, (text.splitOn comma)[i]? = some part →
      parsed.aclist (n + i) = (entry lookups permsReqd (aclist (n + i)) part).1
  others : ∀ i, i < n ∨ maxEntries ≤ i → parsed.aclist i = aclist i

variable {n : Nat} {aclist : Nat → AccessControlEntry}

/-- Nothing is stored or returned when there are too many entries. -/
theorem loopFacts_full (full : n ≥ maxEntries) (text : List UInt8) :
    LoopFacts lookups permsReqd n text aclist
      (parseLoop lookups permsReqd n entryStr heap aclist) := by
  -- There is at least one more entry, for which there is no room.
  have some_ := List.length_pos_iff.mpr (List.splitOn_ne_nil comma text)
  rw [parseLoop, if_pos full]
  refine ⟨fun count => ⟨nofun, fun ⟨_, total, atMost⟩ => ?_⟩, nofun, fun _ _ => rfl⟩
  omega

/-- The loop ends with an error in the first entry. -/
theorem loopFacts_error {error : ParseError} {heap_ : Heap} {ace_ : AccessControlEntry}
    (room : n < maxEntries) {part : List UInt8} (first : part ∈ text.splitOn comma)
    (wrong : ¬ Accepted lookups permsReqd part) :
    LoopFacts lookups permsReqd n text aclist
      ⟨heap_, Function.update aclist n ace_, .error error⟩ := by
  -- Only the entry at n was written.
  refine ⟨fun count => ⟨nofun, fun all => absurd (all.1 part first) wrong⟩, nofun, fun i out => ?_⟩
  exact Function.update_of_ne (by omega) _ _

/-- The loop ends with the last entry. -/
theorem loopFacts_last {heap_ : Heap} (room : n < maxEntries) (last : comma ∉ text)
    (accepted : Accepted lookups permsReqd text) :
    LoopFacts lookups permsReqd n text aclist
      ⟨heap_, Function.update aclist n (entry lookups permsReqd (aclist n) text).1,
        .ok (n + 1)⟩ := by
  -- There is one part, and one element is stored for it.
  have parts : text.splitOn comma = [text] := List.splitOn_eq_singleton last
  refine ⟨fun count => ?_, fun count _ i part found => ?_, fun i out => ?_⟩
  · rw [parts, Except.ok.injEq, List.length_singleton]
    refine ⟨?_, fun all => all.2.1⟩
    rintro rfl
    exact ⟨fun part mem => List.mem_singleton.mp mem ▸ accepted, rfl, room⟩
  · rw [parts] at found
    cases i with
    | zero =>
      obtain rfl := Option.some.inj found
      exact Function.update_self ..
    | succ i => exact absurd found nofun
  · exact Function.update_of_ne (by omega) _ _

/-- The loop goes on behind a comma. -/
theorem LoopFacts.next {part rest : List UInt8} {parsed : Parsed} (room : n < maxEntries)
    (inner : comma ∉ part) (accepted : Accepted lookups permsReqd part)
    (later : LoopFacts lookups permsReqd (n + 1) rest
      (Function.update aclist n (entry lookups permsReqd (aclist n) part).1) parsed) :
    LoopFacts lookups permsReqd n (part ++ comma :: rest) aclist parsed := by
  -- The first part is stored in this turn, and the others are one further on.
  have parts : (part ++ comma :: rest).splitOn comma = part :: rest.splitOn comma :=
    List.splitOn_append_cons_self_of_not_mem inner rest
  refine ⟨fun count => (later.result count).trans ?_, fun count ok i part_ found => ?_,
    fun i out => ?_⟩
  · rw [parts, List.forall_mem_cons, List.length_cons]
    constructor
    · rintro ⟨all, total, atMost⟩
      exact ⟨⟨accepted, all⟩, by omega, atMost⟩
    · rintro ⟨⟨_, all⟩, total, atMost⟩
      exact ⟨all, by omega, atMost⟩
  · rw [parts] at found
    cases i with
    | zero =>
      obtain rfl := Option.some.inj found
      exact (later.others n (.inl n.lt_succ_self)).trans (Function.update_self ..)
    | succ i =>
      have there := later.stored count ok i part_ found
      rwa [Function.update_of_ne (by omega), Nat.add_right_comm, Nat.add_assoc] at there
  · refine (later.others i ?_).trans (Function.update_of_ne (by omega) _ _)
    exact out.imp_left Nat.lt_succ_of_lt

variable (lookups permsReqd n aclist) in
/-- That is what the loop returns and stores. -/
theorem loopFacts (laid : heap.Laid entryStr before text after) :
    LoopFacts lookups permsReqd n text aclist
      (parseLoop lookups permsReqd n entryStr heap aclist) := by
  -- The induction follows the commas.
  induction text using split_induction comma generalizing n heap entryStr before aclist with
  | last text last =>
    by_cases full : n ≥ maxEntries
    · exact loopFacts_full full text
    have first : text ∈ text.splitOn comma := by
      rw [List.splitOn_eq_singleton last]
      exact List.mem_singleton_self text
    rw [parseLoop, if_neg full, laid.strchr_none last]
    simp only [Heap.terminate]
    obtain ⟨wrong, error, found⟩ | ⟨accepted, found, ace⟩ :=
      parseEntrySpec_cases lookups permsReqd (aclist n) laid last
    · rw [found]
      exact loopFacts_error (not_le.mp full) first wrong
    · rw [found, ace]
      exact loopFacts_last (not_le.mp full) last accepted
  | inner part rest inner ih =>
    by_cases full : n ≥ maxEntries
    · exact loopFacts_full full _
    have first : part ∈ (part ++ comma :: rest).splitOn comma := by
      rw [List.splitOn_append_cons_self_of_not_mem inner]
      exact List.mem_cons_self
    have cut := laid.cut
    rw [parseLoop, if_neg full, laid.strchr_some inner]
    simp only [Heap.terminate]
    obtain ⟨wrong, error, found⟩ | ⟨accepted, found, ace⟩ :=
      parseEntrySpec_cases lookups permsReqd (aclist n) cut inner
    · rw [found]
      exact loopFacts_error (not_le.mp full) first wrong
    · -- The entries behind the comma are still as they were.
      have noNull : 0 ∉ rest := fun mem =>
        laid.noNull (List.mem_append_right _ (List.mem_cons_of_mem _ mem))
      obtain ⟨front, later⟩ := parseEntrySpec_frame lookups permsReqd (aclist n) cut
        (cut.next noNull) rfl (by rw [Pointer.offset_advance]; omega)
      rw [found, ace]
      exact (ih _ _ later).next (not_le.mp full) inner accepted

/-- The items of a text are those between its commas. -/
theorem aclText_eq_iff {items : List Item} (some_ : items ≠ [])
    (valid : ∀ item ∈ items, item.Valid lookups permsReqd) :
    aclText items = text ↔ text.splitOn comma = items.map Item.text :=
  intercalate_map_eq_iff some_ fun item mem => (valid item mem).comma_notMem

/-- Lists of items are what is accepted. -/
theorem documented_iff {count : Nat} :
    ((∀ part ∈ text.splitOn comma, Accepted lookups permsReqd part) ∧
        0 + (text.splitOn comma).length = count ∧ count ≤ maxEntries) ↔
      ∃ items, Documented lookups permsReqd items ∧ aclText items = text ∧
        items.length = count := by
  -- The parts are the texts of items, of which there are as many.
  constructor
  · rintro ⟨accepted, length, atMost⟩
    obtain ⟨items, split, valid⟩ := exists_map_write accepted
    have some_ : items ≠ [] := by
      rintro rfl
      exact List.splitOn_ne_nil comma text split
    have length_ : items.length = count := by rw [← length, split, List.length_map, Nat.zero_add]
    exact ⟨items, ⟨some_, length_ ▸ atMost, valid⟩, (aclText_eq_iff some_ valid).mpr split, length_⟩
  · rintro ⟨items, documented, same, rfl⟩
    have split := (aclText_eq_iff documented.some_ documented.valid).mp same
    rw [split]
    refine ⟨fun part mem => ?_, by simp, documented.atMost⟩
    obtain ⟨item, among, rfl⟩ := List.mem_map.mp mem
    exact ⟨item, rfl, documented.valid item among⟩

end

/-- `parseACL` does with a text what is documented. -/
structure KeepsGrammar (lookups : Lookups) (permsReqd : Bool) (text : List UInt8)
    (aclist : Nat → AccessControlEntry) (parsed : Parsed) : Prop where
  /-- Lists of items are accepted and stored, and their number is returned. -/
  accepted : ∀ items, Documented lookups permsReqd items → aclText items = text →
    parsed.returned = items.length ∧
      ∀ i item, items[i]? = some item →
        parsed.aclist i = item.stored lookups permsReqd (aclist i)
  /-- Nothing else is accepted. -/
  rejected : (¬ ∃ items, Documented lookups permsReqd items ∧ aclText items = text) →
    parsed.returned = -1
  /-- Nothing is stored behind the end of `aclist`. -/
  inside : ∀ i ≥ maxEntries, parsed.aclist i = aclist i

/-- `parseACL` keeps to the grammar. -/
theorem parseACL_keepsGrammar (lookups : Lookups) {heap : Heap} {aclStr : Pointer}
    {before text after : List UInt8} (laid : heap.Laid aclStr before text after)
    (aclist : Nat → AccessControlEntry) (permsReqd : Bool) :
    KeepsGrammar lookups permsReqd text aclist
      (parseACL lookups heap aclStr aclist permsReqd) := by
  -- The loop starts with nothing stored, so that its facts are those of the whole.
  obtain ⟨result, stored, others⟩ :=
    loopFacts lookups permsReqd 0 aclist laid
  simp only [documented_iff] at result
  refine ⟨fun items documented same => ?_, fun none_ => ?_, fun i out => others i (.inr out)⟩
  · have ok := (result items.length).mpr ⟨items, documented, same, rfl⟩
    refine ⟨by rw [parseACL, Parsed.returned, ok], fun i item found => ?_⟩
    have split := (aclText_eq_iff documented.some_ documented.valid).mp same
    have there := stored _ ok i item.text (by rw [split, List.getElem?_map, found]; rfl)
    rw [Nat.zero_add, entry_item (documented.valid item (List.mem_of_getElem? found))] at there
    exact there
  · rw [parseACL, Parsed.returned]
    cases ended : (parseLoop lookups permsReqd 0 aclStr heap aclist).result with
    | error error => rfl
    | ok count =>
      obtain ⟨items, documented, same, -⟩ := (result count).mp ended
      exact absurd ⟨items, documented, same⟩ none_

/-- An array that has all permissions in it. -/
def full (_ : Nat) : AccessControlEntry :=
  ⟨.other, 0, 7⟩

/-- There is one user whose name can be looked up. -/
def oneUser : Lookups :=
  ⟨fun name => if name = bytes "joe" then 1000 else errorId, fun _ => errorId⟩

/-- `"user:joe:rw-,g::r,m::rx"`. -/
def threeItems : List Item :=
  [⟨.user, true, bytes "joe", some [.read, .write, .dash]⟩, ⟨.group, false, [], some [.read]⟩,
    ⟨.mask, false, [], some [.read, .execute]⟩]

/-- All of them are items of the grammar. -/
theorem documented_threeItems : Documented oneUser true threeItems := by
  refine ⟨by decide, by decide, fun item mem => ?_⟩
  simp only [threeItems, List.mem_cons, List.not_mem_nil, or_false] at mem
  rcases mem with rfl | rfl | rfl
  -- The name of the user has neither a comma nor a colon in it.
  · have plain : (bytes "joe").all fun char => decide (char ≠ comma ∧ char ≠ colon) := by decide
    refine ⟨fun char mem => ?_, fun _ => by decide, by decide⟩
    exact of_decide_eq_true (List.all_eq_true.mp plain char mem)
  · exact ⟨fun _ => nofun, nofun, by decide⟩
  · exact ⟨fun _ => nofun, nofun, by decide⟩

/-- A memory block that has the text behind an option and in front of another string. -/
def threeHeap : Heap :=
  [[1], bytes "-m " ++ aclText threeItems ++ 0 :: bytes "file"]

/-- The three items are accepted, and each entry of the array is what has been written. -/
theorem parseACL_keepsGrammar_threeItems :
    let parsed := parseACL oneUser threeHeap ⟨1, 3⟩ full true
    parsed.returned = 3 ∧ parsed.aclist 0 = ⟨.user, 1000, 6⟩ ∧
      parsed.aclist 1 = ⟨.groupObj, 0, 4⟩ ∧ parsed.aclist 2 = ⟨.mask, 0, 5⟩ ∧
      ∀ i ≥ maxEntries, parsed.aclist i = ⟨.other, 0, 7⟩ := by
  -- The text lies in the block between an option and another string.
  have laid : threeHeap.Laid ⟨1, 3⟩ (bytes "-m ") (aclText threeItems) (bytes "file") :=
    ⟨rfl, rfl, by decide⟩
  have keeps := parseACL_keepsGrammar oneUser laid full true
  obtain ⟨returned, stored⟩ := keeps.accepted threeItems documented_threeItems rfl
  refine ⟨returned, ?_, ?_, ?_, keeps.inside⟩
  · rw [stored 0 _ rfl]
    decide
  · rw [stored 1 _ rfl]
    decide
  · rw [stored 2 _ rfl]
    decide

/-- No name can be looked up. -/
def noLookups : Lookups :=
  ⟨fun _ => errorId, fun _ => errorId⟩

/-- `"u:"`. -/
def owner : Item :=
  ⟨.user, false, [], none⟩

/-- Where no permissions are written, those of an entry are not what is written. -/
theorem parseACL_not_stores :
    ¬ ∀ (lookups : Lookups) (heap : Heap) (aclStr : Pointer) (before text after : List UInt8)
      (aclist : Nat → AccessControlEntry) (permsReqd : Bool) (items : List Item),
      heap.Laid aclStr before text after → Documented lookups permsReqd items →
        aclText items = text → ∀ i item, items[i]? = some item →
          (parseACL lookups heap aclStr aclist permsReqd).aclist i = item.entry lookups := by
  intro promised
  have valid : owner.Valid noLookups false := ⟨nofun, by decide, by decide⟩
  have documented : Documented noLookups false [owner] :=
    ⟨by decide, by decide, by simpa using valid⟩
  have laid : Heap.Laid [owner.text ++ [0]] ⟨0, 0⟩ [] owner.text [] := ⟨rfl, rfl, by decide⟩
  -- The entry is accepted, and its permissions are what they were.
  have facts := loopFacts noLookups false 0 full laid
  have ok := (facts.result 1).mpr (documented_iff.mpr ⟨[owner], documented, rfl, rfl⟩)
  have kept := facts.stored 1 ok 0 owner.text (by decide)
  rw [entry_item valid] at kept
  have wrong := promised noLookups _ _ _ _ _ full false [owner] laid documented rfl 0 owner rfl
  exact absurd (kept.symm.trans wrong) (by decide)

end SysProg.Acl
