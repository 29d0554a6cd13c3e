import SysProg.Lib.Fields
import SysProg.Lib.Filling

/-! Wrapping the list of PIDs that is displayed for a namespace. -/

namespace SysProg.Namespaces

/-- Breaks a text into lines of at most `width` bytes, each of them behind the indent. -/
def wrapText (text : List UInt8) (width : Int) (indent : List UInt8) : List UInt8 :=
  match Fields.fields text with
  | [] => []
  | first :: rest =>
    Filling.wrapLoop List.length width indent (indent ++ first) first.length rest

end SysProg.Namespaces
