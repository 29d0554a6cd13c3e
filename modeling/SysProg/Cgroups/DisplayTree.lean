import SysProg.Lib.Filepath

/-! Displaying a tree of cgroup directories, each of them with an indent for its level. -/

namespace SysProg.Cgroups

open SysProg.Pathname (components)

/-- The byte of a blank. -/
def blank : UInt8 := 32

/-- The name of a file in a directory. -/
abbrev FileName := { bytes : List UInt8 // Filepath.IsName bytes }

/-- The pathname under which `filepath.Walk` visits a file that these names lead to. -/
def walkPath (root : List UInt8) (names : List FileName) : List UInt8 :=
  names.foldl (fun path name => Filepath.join path name.val) root

/-- `len(strings.Split(path, "/"))`. -/
def splitCnt (path : List UInt8) : Int :=
  (components path).length

/-- `strings.Repeat`, which panics if the count is negative. -/
def stringsRepeat (text : List UInt8) (count : Int) : Option (List UInt8) :=
  if count < 0 then none else some (List.replicate count.toNat text).flatten

/-- How `displayCgroup` shows a directory. -/
structure Heading where
  level : Int
  indent : List UInt8
  displayPath : List UInt8
  deriving DecidableEq

/-- The beginning of `displayCgroup`, which fails where it panics. -/
def displayCgroup (cgroupPath : List UInt8) (rootSlashCnt : Int) : Option Heading :=
  let level := splitCnt cgroupPath - rootSlashCnt
  (stringsRepeat [blank] (4 * level)).map fun indent =>
    { level := level
      indent := indent
      displayPath := if level > 0 then Filepath.base cgroupPath else cgroupPath }

/-- What `displayDirTree` displays for the directory that these names lead to. -/
def displayDirTree (path : List UInt8) (names : List FileName) : Option Heading :=
  let path := Filepath.clean path
  let rootSlashCnt := splitCnt path
  displayCgroup (walkPath path names) rootSlashCnt

end SysProg.Cgroups
