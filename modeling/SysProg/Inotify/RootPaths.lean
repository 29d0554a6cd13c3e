import Mathlib.Data.List.DropRight
import SysProg.Inotify.Events

/-! The root directories from the command line, and the pathnames that `nftw` reports for them. -/

namespace SysProg.Inotify

/-- What `lstat` says of a file. -/
structure Stat where
  isDir : Bool
  ino : Nat
  dev : Nat
  deriving DecidableEq

/-- What tells one file from another. -/
def Stat.object (sb : Stat) : Nat × Nat :=
  (sb.ino, sb.dev)

/-- Copies the pathnames from the command line, which must be those of different directories. -/
def copyRootDirPaths (lstat : List UInt8 → Option Stat) (argv : List (List UInt8)) :
    Except Exit (List (Option (List UInt8))) :=
  if ∀ path ∈ argv, (lstat path).any Stat.isDir then
    -- The same file must not appear more than once.
    if argv.Pairwise fun first second =>
        (lstat first).map Stat.object ≠ (lstat second).map Stat.object then
      .ok (argv.map some)
    else .error .failure
  else .error .failure

/-- The name of a file in a directory. -/
abbrev FileName := { bytes : List UInt8 // bytes ≠ [] ∧ slash ∉ bytes }

/-- The pathname that `nftw` reports for its argument, of which it strips trailing slashes. -/
def nftwRoot (dir : List UInt8) : List UInt8 :=
  if dir.rdropWhile (· = slash) = [] then dir.take 1 else dir.rdropWhile (· = slash)

/-- The pathname that `nftw` reports for a file in a directory. -/
def nftwChild (dir name : List UInt8) : List UInt8 :=
  if dir = [slash] then slash :: name else join dir name

/-- The pathname that `nftw` reports for a file so many names below its argument. -/
def nftwPath (dir : List UInt8) (names : List FileName) : List UInt8 :=
  names.foldl (fun path name => nftwChild path name.val) (nftwRoot dir)

end SysProg.Inotify
