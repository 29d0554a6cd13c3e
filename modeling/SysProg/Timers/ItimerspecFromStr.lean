import SysProg.Lib.CString
import SysProg.Lib.Strtol

/-! How the timer programs read the times in an argument. -/

namespace SysProg.Timers

open SysProg.Strtol

/-- `':'`. -/
def colon : UInt8 := 58

/-- `'/'`. -/
def slash : UInt8 := 47

/-- A `struct timespec`. -/
structure Timespec where
  tvSec : Int
  tvNsec : Int
  deriving DecidableEq, Repr

/-- A `struct itimerspec`. -/
structure Itimerspec where
  itValue : Timespec
  itInterval : Timespec
  deriving DecidableEq, Repr

/-- What is done for `it_value` and again for `it_interval`: the string is cut at a slash. -/
def timespecFromStr (heap : Heap) (str : Pointer) : Heap × Timespec :=
  let sptr := heap.strchr str slash
  let heap := heap.terminate sptr
  (heap, {
    tvSec := atoi (heap.string str)
    tvNsec := match sptr with
      | some sptr => atoi (heap.string (sptr.advance 1))
      | none => 0 })

/-- `itimerspecFromStr`. -/
def itimerspecFromStr (heap : Heap) (str : Pointer) : Heap × Itimerspec :=
  let (heap, dupstr) := heap.strdup str
  let cptr := heap.strchr dupstr colon
  let heap := heap.terminate cptr
  let (heap, itValue) := timespecFromStr heap dupstr
  let (heap, itInterval) : Heap × Timespec :=
    match cptr with
    | none => (heap, ⟨0, 0⟩)
    | some cptr => timespecFromStr heap (cptr.advance 1)
  (heap.free dupstr, ⟨itValue, itInterval⟩)

end SysProg.Timers
