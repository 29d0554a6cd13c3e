import SysProg.Inotify.Cache

/-! The loops over the cached items of a subtree, which may be named by a cached pathname. -/

namespace SysProg.Inotify

/-- An argument that points to a pathname. -/
inductive PathArg where
  | string (text : List UInt8)
  /-- The pathname in a cache slot, which changes when the slot does. -/
  | cached (slot : Nat)

/-- The pathname to which an argument points at the moment. -/
def PathArg.pathname (cache : Cache) : PathArg → List UInt8
  | .string text => text
  | .cached slot =>
    match cache[slot]? with
    | some item => item.path.val
    | none => []

/-- The loop of `rewriteCachedPaths`, in place, one slot after the other. -/
def rewriteLoop (oldPathPrefix oldName newPathPrefix newName : List UInt8) (cache : Cache) :
    Cache :=
  (List.range cache.length).foldl
    (fun cache j => cache.modify j (Slot.rewrite oldPathPrefix oldName newPathPrefix newName)) cache

/-- `rewriteCachedPaths`, which has read its arguments when it begins to change the cache. -/
def rewriteCachedPathsAt (cache : Cache) (oldPathPrefix : PathArg) (oldName : List UInt8)
    (newPathPrefix : PathArg) (newName : List UInt8) : Cache :=
  rewriteLoop (oldPathPrefix.pathname cache) oldName (newPathPrefix.pathname cache) newName cache

/-- What a call of `zapSubtree` does. -/
structure ZapResult where
  /-- What it returns, or nothing for -1. -/
  count : Option Nat
  cache : Cache
  /-- The watches that it asks `inotify_rm_watch` to remove, and whether that succeeds. -/
  calls : List (Int × Bool)

/-- The loop of `zapSubtree` with the slots that are left, where so many have been freed. -/
def zapLoop (rmWatch : Nat → Int → Bool) (pn : List UInt8) (cnt : Nat) : Cache → ZapResult
  | [] => ⟨some cnt, [], []⟩
  | slot :: rest =>
    if 0 ≤ slot.wd && isBelow pn slot.path.val then
      if rmWatch cnt slot.wd then
        let later := zapLoop rmWatch pn (cnt + 1) rest
        ⟨later.count, Slot.empty :: later.cache, (slot.wd, true) :: later.calls⟩
      else ⟨none, slot :: rest, [(slot.wd, false)]⟩
    else
      let later := zapLoop rmWatch pn cnt rest
      ⟨later.count, slot :: later.cache, later.calls⟩

/-- `zapSubtree`, which works with a copy of its argument; each call may be answered its own way. -/
def zapSubtreeAt (rmWatch : Nat → Int → Bool) (path : PathArg) (cache : Cache) : ZapResult :=
  zapLoop rmWatch (path.pathname cache) 0 cache

end SysProg.Inotify
