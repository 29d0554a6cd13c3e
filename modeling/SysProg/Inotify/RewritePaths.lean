import SysProg.Inotify.Subtrees
import SysProg.Lib.StringBuffer

/-! `rewriteCachedPaths` with the arrays that it writes to, and the messages that it logs. -/

namespace SysProg.Inotify

/-- `struct watch`. -/
structure CacheItem where
  wd : Int
  path : StringBuffer pathMax

/-- What is passed to `logMessage`. -/
inductive Message where
  /-- `"Rename: %s ==> %s\n"` -/
  | rename (fullPath newPrefix : List UInt8)
  /-- `"Truncated pathname: %s\n"` -/
  | truncated (newPath : List UInt8)
  /-- `"    wd %d [cache slot %d] ==> %s\n"` -/
  | rewritten (wd : Int) (slot : Nat) (newPath : List UInt8)
  deriving DecidableEq

/-- What is in the local arrays before they are written to, where `newPath` belongs to the loop. -/
structure Locals where
  fullPath : CharArray pathMax
  newPrefix : CharArray pathMax
  newPath : Nat → CharArray pathMax

/-- What the loop does with an item of the cache. -/
structure ItemRewriting where
  item : CacheItem
  messages : List Message

/-- What a call of `rewriteCachedPaths` does. -/
structure Rewriting where
  rename : Message
  iterations : List ItemRewriting

/-- The cache after a call. -/
def Rewriting.cache (rewriting : Rewriting) : List CacheItem :=
  rewriting.iterations.map ItemRewriting.item

/-- Everything that is logged in a call. -/
def Rewriting.log (rewriting : Rewriting) : List Message :=
  rewriting.rename :: rewriting.iterations.flatMap ItemRewriting.messages

/-- The format `"%s/%s"`. -/
def joinStrings (pathPrefix name : ByteString) : ByteString where
  val := join pathPrefix.val name.val
  property := List.not_mem_append pathPrefix.property
    (List.not_mem_cons_of_ne_of_not_mem (by decide) name.property)

/-- The body of the loop. -/
def rewriteItem (fullPath newPrefix : StringBuffer pathMax) (newPath : CharArray pathMax) (j : Nat)
    (item : CacheItem) : ItemRewriting :=
  let len := fullPath.string.val.length
  -- The beginning is the full pathname, and a slash or the null byte is behind it.
  if isBelow fullPath.string.val item.path.string.val then
    let (newPath, s) := StringBuffer.snprintf newPath (by decide)
      (newPrefix.string.append (item.path.string.drop len))
    { item := { item with path := newPath.strncpy }
      messages := (if s > pathMax then [.truncated newPath.string.val] else []) ++
        [.rewritten item.wd j newPath.string.val] }
  else ⟨item, []⟩

/-- `rewriteCachedPaths`, with the strings to which its arguments point when it is called. -/
def rewriteCachedArrays (locals : Locals) (cache : List CacheItem)
    (oldPathPrefix oldName newPathPrefix newName : ByteString) : Rewriting :=
  let (fullPath, _) :=
    StringBuffer.snprintf locals.fullPath (by decide) (joinStrings oldPathPrefix oldName)
  let (newPrefix, _) :=
    StringBuffer.snprintf locals.newPrefix (by decide) (joinStrings newPathPrefix newName)
  { rename := .rename fullPath.string.val newPrefix.string.val
    iterations := cache.zipIdx.map fun (item, j) =>
      rewriteItem fullPath newPrefix (locals.newPath j) j item }

end SysProg.Inotify
