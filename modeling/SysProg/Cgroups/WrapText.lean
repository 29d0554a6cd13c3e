import SysProg.Lib.Fields
import SysProg.Lib.Filling

/-! Wrapping the lists of PIDs and TIDs that are displayed for a cgroup. -/

namespace SysProg.Cgroups

/-- `ESC`. -/
def esc : UInt8 := 27

/-- The byte `m`, which ends an escape sequence. -/
def letterM : UInt8 := 109

/-- Copies a word without its escape sequences, in one of which the rest of the word may begin. -/
def removeEscapes (inside : Bool) : List UInt8 → List UInt8
  | [] => []
  | byte :: rest =>
    if inside then removeEscapes (byte ≠ letterM) rest
    -- A sequence that does not end is no match for the regular expression `ESC + "[^m]*m"`.
    else if byte = esc ∧ letterM ∈ rest then removeEscapes true rest
    else byte :: removeEscapes false rest

/-- The length of a word as it is displayed, without the escape sequences for colours. -/
def displayLength (word : List UInt8) : Nat :=
  (removeEscapes false word).length

/--
Breaks a text into lines of at most `displayWidth` columns, each of them behind the indent.

The first line is also behind the prefix, and the others are behind as many blanks.
-/
def wrapText (text prefix_ : List UInt8) (displayWidth : Int) (indent : List UInt8) : List UInt8 :=
  match Fields.fields text with
  | [] => []
  | first :: rest =>
    let wrappedText := indent ++ prefix_ ++ first
    let column := prefix_.length + displayLength first
    let displayWidth := displayWidth - prefix_.length
    let indent := indent ++ List.replicate prefix_.length Filling.blank
    Filling.wrapLoop displayLength displayWidth indent wrappedText column rest

end SysProg.Cgroups
