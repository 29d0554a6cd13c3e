import SysProg.Acl.ParseACL

/-! The grammar of the entries of an ACL, and which texts are read by it. -/

namespace SysProg.Acl

open SysProg.UsersGroups (Id errorId)

/-- What an entry is for. -/
inductive Kind where
  | user
  | group
  | other
  | mask
  deriving DecidableEq, Repr

/-- The two spellings of a tag. -/
def Kind.spelled : Kind → Bool → List UInt8
  | .user, false => bytes "u"
  | .user, true => bytes "user"
  | .group, false => bytes "g"
  | .group, true => bytes "group"
  | .other, false => bytes "o"
  | .other, true => bytes "other"
  | .mask, false => bytes "m"
  | .mask, true => bytes "mask"

/-- A letter of a permissions string. -/
inductive Letter where
  | read
  | write
  | execute
  | dash
  deriving DecidableEq, Repr

/-- `'r'`, `'w'`, `'x'` or `'-'`. -/
def Letter.char : Letter → UInt8
  | .read => 114
  | .write => 119
  | .execute => 120
  | .dash => 45

/-- The permission for a letter. -/
def Letter.perm : Letter → Perms
  | .read => aclRead
  | .write => aclWrite
  | .execute => aclExecute
  | .dash => 0

/-- The union of the permissions for letters. -/
def union (letters : List Letter) : Perms :=
  letters.foldl (fun perms letter => perms ||| letter.perm) 0

/-- An item of an ACL as it is written, where the second colon may be left out. -/
structure Item where
  kind : Kind
  long : Bool
  qualifier : List UInt8
  perms : Option (List Letter)
  deriving DecidableEq, Repr

namespace Item

/-- `tag:[qualifier][:[perms]]`. -/
def text (item : Item) : List UInt8 :=
  item.kind.spelled item.long ++ colon :: (item.qualifier ++
    (item.perms.elim [] fun letters => colon :: letters.map Letter.char))

/-- The permissions that are written. -/
def letters (item : Item) : List Letter :=
  item.perms.getD []

/-- The tag with a qualifier or without. -/
def tag (item : Item) : Tag :=
  match item.kind with
  | .user => if item.qualifier = [] then .userObj else .user
  | .group => if item.qualifier = [] then .groupObj else .group
  | .other => .other
  | .mask => .mask

variable (lookups : Lookups)

/-- The resolved qualifier, for a user or a group. -/
def qual (item : Item) : Id :=
  match item.tag with
  | .user => lookups.userIdFromName item.qualifier
  | .group => lookups.groupIdFromName item.qualifier
  | _ => 0

/-- What the item is in `aclist`. -/
def entry (item : Item) : AccessControlEntry where
  tag := item.tag
  qual := item.qual lookups
  perms := union item.letters

/-- An item of the grammar, with permissions or without. -/
structure Valid (permsReqd : Bool) (item : Item) : Prop where
  plain : ∀ char ∈ item.qualifier, char ≠ comma ∧ char ≠ colon
  resolvable : item.tag = .user ∨ item.tag = .group → item.qual lookups ≠ errorId
  perms : item.letters ≠ [] ↔ permsReqd

end Item

/-- The text of items that are separated by commas. -/
def aclText (items : List Item) : List UInt8 :=
  [comma].intercalate (items.map Item.text)

/-- A list of items that is to be accepted. -/
structure Documented (lookups : Lookups) (permsReqd : Bool) (items : List Item) : Prop where
  some_ : items ≠ []
  atMost : items.length ≤ maxEntries
  valid : ∀ item ∈ items, item.Valid lookups permsReqd

/-- The tag type of a spelling. -/
theorem tagType_spelled (item : Item) :
    tagType (item.kind.spelled item.long) (item.qualifier ≠ []) = some item.tag := by
  obtain ⟨kind, long, qualifier, perms⟩ := item
  cases kind <;> cases long <;> cases qualifier <;> rfl

/-- Only spellings have tag types. -/
theorem exists_spelled {text : List UInt8} {hasQual : Bool} {tag : Tag}
    (found : tagType text hasQual = some tag) : ∃ kind long, Kind.spelled kind long = text := by
  -- The tests are made one after the other.
  unfold tagType at found
  split at found
  · rename_i either
    obtain rfl | rfl := either
    · exact ⟨.user, false, rfl⟩
    · exact ⟨.user, true, rfl⟩
  · split at found
    · rename_i either
      obtain rfl | rfl := either
      · exact ⟨.group, false, rfl⟩
      · exact ⟨.group, true, rfl⟩
    · split at found
      · rename_i either
        obtain rfl | rfl := either
        · exact ⟨.other, false, rfl⟩
        · exact ⟨.other, true, rfl⟩
      · split at found
        · rename_i either
          obtain rfl | rfl := either
          · exact ⟨.mask, false, rfl⟩
          · exact ⟨.mask, true, rfl⟩
        · exact absurd found nofun

/-- There is no colon and no comma in a spelling. -/
theorem Kind.notMem_spelled (kind : Kind) (long : Bool) :
    colon ∉ kind.spelled long ∧ comma ∉ kind.spelled long := by
  cases kind <;> cases long <;> decide

/-- There is no comma in the letters. -/
theorem Letter.comma_notMem (letters : List Letter) : comma ∉ letters.map Letter.char := by
  rw [List.mem_map]
  rintro ⟨letter, -, same⟩
  cases letter <;> exact absurd same (by decide)

/-- The loop over letters unites their permissions. -/
theorem permsLoop_map (perms : Perms) (letters : List Letter) :
    permsLoop perms (letters.map Letter.char) =
      (letters.foldl (fun perms letter => perms ||| letter.perm) perms, .ok ()) := by
  -- By induction on the letters, each of which adds its permission.
  induction letters generalizing perms with
  | nil => rfl
  | cons letter letters ih =>
    cases letter with
    | dash =>
      refine (ih perms).trans ?_
      simp [Letter.perm]
    | _ => exact ih _

/-- The loop accepts nothing but letters. -/
theorem exists_letters {perms : Perms} {text : List UInt8}
    (accepted : (permsLoop perms text).2 = .ok ()) :
    ∃ letters : List Letter, letters.map Letter.char = text := by
  -- The induction follows the loop.
  fun_induction permsLoop perms text with
  | case1 => exact ⟨[], rfl⟩
  | case2 perms text ih =>
    obtain ⟨letters, rfl⟩ := ih accepted
    exact ⟨.read :: letters, rfl⟩
  | case3 perms text _ ih =>
    obtain ⟨letters, rfl⟩ := ih accepted
    exact ⟨.write :: letters, rfl⟩
  | case4 perms text _ _ ih =>
    obtain ⟨letters, rfl⟩ := ih accepted
    exact ⟨.execute :: letters, rfl⟩
  | case5 => exact absurd accepted nofun
  | case6 perms char text _ _ _ dash ih =>
    obtain ⟨letters, rfl⟩ := ih accepted
    exact ⟨.dash :: letters, by rw [List.map_cons, not_not.mp dash]; rfl⟩

/-- There is no comma in the text of an item. -/
theorem Item.Valid.comma_notMem {lookups : Lookups} {permsReqd : Bool} {item : Item}
    (valid : item.Valid lookups permsReqd) : comma ∉ item.text := by
  have qualifier : comma ∉ item.qualifier := fun mem => (valid.plain comma mem).1 rfl
  have perms : comma ∉ item.perms.elim [] fun letters => colon :: letters.map Letter.char := by
    cases item.perms with
    | none => exact List.not_mem_nil
    | some letters => exact List.not_mem_cons_of_ne_of_not_mem (by decide) (Letter.comma_notMem _)
  -- The tag, the colon, the qualifier and the permissions.
  rw [text, List.mem_append, List.mem_cons, List.mem_append]
  rintro (tag | colon | mem | mem)
  · exact (item.kind.notMem_spelled item.long).2 tag
  · exact absurd colon (by decide)
  · exact qualifier mem
  · exact perms mem

end SysProg.Acl
