import SysProg.Inotify.Subtrees

/-! Renaming and zapping touch the items of a subtree, each of them once, and nothing else. -/

namespace SysProg.Inotify

/-- What follows the pathname of a directory in that of an item at or below it. -/
def Below (rest : List UInt8) : Prop :=
  rest = [] ∨ ∃ names, rest = slash :: names

/-- A pathname is at or below another exactly if it goes on with a slash, or does not go on. -/
theorem isBelow_iff {pathname path : List UInt8} :
    isBelow pathname path = true ↔ ∃ rest, Below rest ∧ path = pathname ++ rest := by
  rw [isBelow, Bool.and_eq_true, List.isPrefixOf_iff_prefix]
  constructor
  · rintro ⟨⟨rest, rfl⟩, next⟩
    refine ⟨rest, ?_, rfl⟩
    cases rest with
    | nil => exact .inl rfl
    | cons c names =>
      -- The byte behind the beginning is there, so it is the slash.
      have slash_ : c = slash := by simpa using next
      exact .inr ⟨names, by rw [slash_]⟩
  · rintro ⟨rest, below, rfl⟩
    refine ⟨List.prefix_append pathname rest, ?_⟩
    rcases below with rfl | ⟨names, rfl⟩
    · simp
    · simp

/-- Changing all elements in place, one after the other, is changing each of them. -/
theorem foldl_modify_range {α : Type*} (f : α → α) (l : List α) :
    (List.range l.length).foldl (fun l j => l.modify j f) l = l.map f := by
  -- After some steps, as many elements have been changed.
  have steps : ∀ count i, ((List.range count).foldl (fun l j => l.modify j f) l)[i]? =
      if i < count then l[i]?.map f else l[i]? := by
    intro count
    induction count with
    | zero => exact fun _ => rfl
    | succ count ih =>
      intro i
      rw [List.range_succ, List.foldl_append, List.foldl_cons, List.foldl_nil,
        List.getElem?_modify, ih]
      by_cases same : count = i
      · subst same
        simp
      · have onward : i < count + 1 ↔ i < count := by omega
        simp [same, onward]
  apply List.ext_getElem?
  intro i
  rw [steps, List.getElem?_map]
  split
  · rfl
  next outside => rw [List.getElem?_eq_none (Nat.le_of_not_lt outside), Option.map_none]

/-- Renaming works on the pathnames to which its arguments point at first. -/
theorem rewriteCachedPathsAt_eq (cache : Cache) (oldPathPrefix : PathArg) (oldName : List UInt8)
    (newPathPrefix : PathArg) (newName : List UInt8) :
    rewriteCachedPathsAt cache oldPathPrefix oldName newPathPrefix newName =
      rewriteCachedPaths cache (oldPathPrefix.pathname cache) oldName
        (newPathPrefix.pathname cache) newName :=
  foldl_modify_range _ cache

/-- A text that fits into a buffer for a pathname is not truncated. -/
theorem snprintf_of_fits {text : List UInt8} (fits : text.length ≤ pathMax - 1) :
    (snprintf text).val = text :=
  List.take_of_length_le fits

/-- What becomes of an item when a directory is renamed. -/
structure Renamed (old new : List UInt8) (before after : Slot) : Prop where
  wd : after.wd = before.wd
  /-- At or below the old pathname, exactly this beginning is replaced. -/
  replaced : 0 ≤ before.wd → ∀ rest, Below rest → before.path.val = old ++ rest →
    after.path.val = new ++ rest
  /-- Any other item, and every free slot, is as it was. -/
  other : (before.wd < 0 ∨ ¬ ∃ rest, Below rest ∧ before.path.val = old ++ rest) → after = before

/-- Rewriting a slot renames its item. -/
theorem Slot.rewrite_renamed {slot : Slot}
    {oldPathPrefix oldName newPathPrefix newName : List UInt8}
    (fitsOld : (join oldPathPrefix oldName).length ≤ pathMax - 1)
    (fitsNew : (join newPathPrefix newName).length ≤ pathMax - 1)
    (fits : 0 ≤ slot.wd → ∀ rest, Below rest → slot.path.val = join oldPathPrefix oldName ++ rest →
      (join newPathPrefix newName ++ rest).length ≤ pathMax - 1) :
    Renamed (join oldPathPrefix oldName) (join newPathPrefix newName) slot
      (slot.rewrite oldPathPrefix oldName newPathPrefix newName) := by
  have old := snprintf_of_fits fitsOld
  have new := snprintf_of_fits fitsNew
  unfold Slot.rewrite
  simp only
  split
  next below =>
    rw [old] at below
    obtain ⟨rest, there, path⟩ := isBelow_iff.mp below
    -- A free slot has no pathname, so it is not below anything.
    have live : 0 ≤ slot.wd := by
      by_contra free
      have none_ := (slot.unused (not_le.mp free)).2
      rw [path] at none_
      simp [join] at none_
    refine ⟨rfl, fun _ other _ same => ?_, fun free => ?_⟩
    · obtain rfl : rest = other := List.append_cancel_left (path.symm.trans same)
      show (snprintf _).val = _
      rw [old, new, path, List.drop_left, snprintf_of_fits (fits live rest there path)]
    · rcases free with free | none_
      · omega
      · exact absurd ⟨rest, there, path⟩ none_
  next apart =>
    rw [old] at apart
    refine ⟨rfl, fun _ rest there path => ?_, fun _ => rfl⟩
    exact absurd (isBelow_iff.mpr ⟨rest, there, path⟩) apart

/-- A rename replaces the old pathname in all items at or below it, and changes nothing else. -/
theorem rewriteCachedPathsAt_exact (cache : Cache) (oldPathPrefix newPathPrefix : PathArg)
    (oldName newName : List UInt8)
    (fitsOld : (join (oldPathPrefix.pathname cache) oldName).length ≤ pathMax - 1)
    (fitsNew : (join (newPathPrefix.pathname cache) newName).length ≤ pathMax - 1)
    (fits : ∀ slot ∈ cache, 0 ≤ slot.wd → ∀ rest, Below rest →
      slot.path.val = join (oldPathPrefix.pathname cache) oldName ++ rest →
        (join (newPathPrefix.pathname cache) newName ++ rest).length ≤ pathMax - 1) :
    List.Forall₂
      (Renamed (join (oldPathPrefix.pathname cache) oldName)
        (join (newPathPrefix.pathname cache) newName))
      cache (rewriteCachedPathsAt cache oldPathPrefix oldName newPathPrefix newName) := by
  -- The prefixes have been copied before any slot is rewritten.
  rw [rewriteCachedPathsAt_eq, rewriteCachedPaths, List.forall₂_map_right_iff,
    List.forall₂_same]
  exact fun slot mem => Slot.rewrite_renamed fitsOld fitsNew (fits slot mem)

/-- The directory `/a/b` is cached with `/a`, which it is in, and with its sibling `/a/bc`. -/
def siblings : Cache :=
  [Slot.of ⟨1, Int.one_nonneg⟩ ⟨[47, 97], (by decide : 2 < pathMax)⟩,
    Slot.of ⟨2, by decide⟩ ⟨[47, 97, 47, 98], by decide⟩,
    Slot.of ⟨3, by decide⟩ ⟨[47, 97, 47, 98, 99], by decide⟩, Slot.empty]

/-- The new prefix is in a slot that is itself rewritten. -/
theorem rewriteCachedPathsAt_exact_siblings :
    List.Forall₂ (Renamed [47, 97, 47, 98] [47, 97, 47, 98, 47, 99]) siblings
      (rewriteCachedPathsAt siblings (.cached 0) [98] (.cached 1) [99]) := by
  refine rewriteCachedPathsAt_exact siblings (.cached 0) (.cached 1) [98] [99] (by decide)
    (by decide) ?_
  intro slot mem _ rest _ path
  -- No cached pathname is longer than five bytes.
  have short : ∀ slot ∈ siblings, slot.path.val.length ≤ 5 := by decide
  have most := short slot mem
  have length : (join [47, 97, 47, 98] [99]).length = 6 := rfl
  rw [path, List.length_append] at most
  show (join [47, 97, 47, 98] [99] ++ rest).length ≤ 4095
  rw [List.length_append, length]
  omega

/-- The items that are freed if a pathname is zapped. -/
def Slot.Zaps (pathname : List UInt8) (slot : Slot) : Prop :=
  0 ≤ slot.wd ∧ ∃ rest, Below rest ∧ slot.path.val = pathname ++ rest

instance (pathname : List UInt8) (slot : Slot) : Decidable (slot.Zaps pathname) :=
  decidable_of_iff (0 ≤ slot.wd ∧ isBelow pathname slot.path.val = true)
    (and_congr_right fun _ => isBelow_iff)

/-- What becomes of a slot that the loop of `zapSubtree` has passed. -/
def Slot.zapped (pathname : List UInt8) (slot : Slot) : Slot :=
  if slot.Zaps pathname then Slot.empty else slot

/-- The slots of the items that are freed. -/
def zaps (pathname : List UInt8) (cache : Cache) : Cache :=
  cache.filter fun slot => slot.Zaps pathname

/-- What is promised of zapping a pathname. -/
structure ZapExact (pathname : List UInt8) (cnt : Nat) (cache : Cache) (result : ZapResult) :
    Prop where
  /-- All items at or below it have been freed, with one successful call for each. -/
  all : ∀ k, result.count = some k →
    k = cnt + (zaps pathname cache).length ∧
      result.cache = cache.map (Slot.zapped pathname) ∧
        result.calls = (zaps pathname cache).map fun slot => (slot.wd, true)
  /-- The loop has stopped at an item whose watch could not be removed. -/
  stopped : result.count = none → ∃ front slot rest,
    cache = front ++ slot :: rest ∧ slot.Zaps pathname ∧
      result.cache = front.map (Slot.zapped pathname) ++ slot :: rest ∧
        result.calls = ((zaps pathname front).map fun slot => (slot.wd, true)) ++ [(slot.wd, false)]
  /-- In either case, what is not as it was has been at or below it, and its watch is removed. -/
  touched : ∀ (j : Nat) (slot : Slot), cache[j]? = some slot → result.cache[j]? = some slot ∨
    slot.Zaps pathname ∧ result.cache[j]? = some Slot.empty ∧ (slot.wd, true) ∈ result.calls

/-- The loop frees the items that it finds, until a watch cannot be removed. -/
theorem zapLoop_exact (rmWatch : Nat → Int → Bool) (pn : List UInt8) (cnt : Nat) (cache : Cache) :
    ZapExact pn cnt cache (zapLoop rmWatch pn cnt cache) := by
  induction cache generalizing cnt with
  | nil => exact ⟨fun k same => ⟨(Option.some.inj same).symm, rfl, rfl⟩, nofun, nofun⟩
  | cons slot rest ih =>
    have zaps_iff : (decide (0 ≤ slot.wd) && isBelow pn slot.path.val) = true ↔ slot.Zaps pn := by
      rw [Bool.and_eq_true, decide_eq_true_iff, Slot.Zaps, isBelow_iff]
    unfold zapLoop
    by_cases here : slot.Zaps pn
    · have cleared : slot.zapped pn = Slot.empty := if_pos here
      rw [if_pos (zaps_iff.mpr here)]
      split
      · -- The watch is removed, and the slot is freed.
        obtain ⟨all, stopped, touched⟩ := ih (cnt + 1)
        refine ⟨fun k same => ?_, fun failed => ?_, fun j other there => ?_⟩
        · obtain ⟨count, cache, calls⟩ := all k same
          simp only [zaps, List.filter_cons, decide_eq_true here, if_true, List.length_cons,
            List.map_cons, cleared]
          refine ⟨?_, congrArg _ cache, congrArg _ calls⟩
          rw [count, zaps]
          omega
        · obtain ⟨front, stop, others, rfl, stops, cache, calls⟩ := stopped failed
          refine ⟨slot :: front, stop, others, rfl, stops, ?_, ?_⟩
          · rw [List.map_cons, cleared]
            exact congrArg _ cache
          · simp only [zaps, List.filter_cons, decide_eq_true here, if_true, List.map_cons]
            exact congrArg _ calls
        · cases j with
          | zero =>
            obtain rfl : slot = other := Option.some.inj there
            exact .inr ⟨here, rfl, List.mem_cons_self⟩
          | succ j =>
            exact (touched j other there).imp_right fun ⟨zaps, freed, called⟩ =>
              ⟨zaps, freed, List.mem_cons_of_mem _ called⟩
      -- The watch cannot be removed, and the loop stops here.
      · exact ⟨nofun, fun _ => ⟨[], slot, rest, rfl, here, rfl, rfl⟩, fun _ _ => .inl⟩
    · -- Another item, or a free slot.
      have kept : slot.zapped pn = slot := if_neg here
      rw [if_neg (mt zaps_iff.mp here)]
      obtain ⟨all, stopped, touched⟩ := ih cnt
      refine ⟨fun k same => ?_, fun failed => ?_, fun j other there => ?_⟩
      · obtain ⟨count, cache, calls⟩ := all k same
        simp only [zaps, List.filter_cons, decide_eq_false here, Bool.false_eq_true, if_false,
          List.map_cons, kept]
        exact ⟨count, congrArg _ cache, calls⟩
      · obtain ⟨front, stop, others, rfl, stops, cache, calls⟩ := stopped failed
        refine ⟨slot :: front, stop, others, rfl, stops, ?_, ?_⟩
        · rw [List.map_cons, kept]
          exact congrArg _ cache
        · simp only [zaps, List.filter_cons, decide_eq_false here, Bool.false_eq_true, if_false]
          exact calls
      · cases j with
        | zero => exact .inl there
        | succ j => exact touched j other there

/-- If every watch descriptor has one answer, the loop is the one that the events run. -/
theorem zapLoop_eq_zapSubtree (rmWatch : Int → Bool) (pn : List UInt8) (cnt : Nat)
    (cache : Cache) :
    (zapLoop (fun _ => rmWatch) pn cnt cache).count =
        (zapSubtree rmWatch pn cache).1.map (cnt + ·) ∧
      (zapLoop (fun _ => rmWatch) pn cnt cache).cache = (zapSubtree rmWatch pn cache).2 := by
  -- By induction on the cache, with the count of what has been removed so far.
  induction cache generalizing cnt with
  | nil => exact ⟨rfl, rfl⟩
  | cons slot rest ih =>
    unfold zapLoop zapSubtree
    split
    · split
      · obtain ⟨count, cache⟩ := ih (cnt + 1)
        refine ⟨?_, congrArg _ cache⟩
        simp only [count, Option.map_map]
        congr 1
        funext k
        simp only [Function.comp_apply]
        omega
      · exact ⟨rfl, rfl⟩
    · obtain ⟨count, cache⟩ := ih cnt
      exact ⟨count, congrArg _ cache⟩

end SysProg.Inotify
