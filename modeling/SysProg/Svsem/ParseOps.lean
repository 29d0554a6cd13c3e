import SysProg.Lib.Decimal
import SysProg.Lib.Strings

/-! How `svsem_op` parses the semaphore operations in an argument. -/

namespace SysProg.Svsem

open SysProg.Decimal SysProg.Strings

/-- `MAX_SEMOPS`. -/
def maxSemops : Nat := 1000

/-- `IPC_NOWAIT`. -/
def ipcNowait : Nat := 0x800

/-- `SEM_UNDO`. -/
def semUndo : Nat := 0x1000

/-- `','`. -/
def comma : UInt8 := 44

/-- `'+'`. -/
def plusSign : UInt8 := 43

/-- `'-'`. -/
def minusSign : UInt8 := 45

/-- `'='`. -/
def equalsSign : UInt8 := 61

/-- What `parseOps` has stored in an element of `sops`, where it may not have got to each field. -/
structure Sembuf where
  semNum : Option Nat
  semOp : Option Int
  semFlg : Option Nat
  deriving DecidableEq, Repr

/-- The errors with which the program exits. -/
inductive ParseError where
  /-- `"Too many operations (maximum=%d): \"%s\"\n"`. -/
  | tooManyOperations
  /-- `"Trailing comma or empty argument: \"%s\""`. -/
  | trailingComma
  /-- `"Expected initial digit: \"%s\"\n"`. -/
  | expectedInitialDigit
  /-- `"Expected '+', '-', or '=' in \"%s\"\n"`. -/
  | expectedSign
  /-- `"Expected digit after '%c' in \"%s\"\n"`. -/
  | expectedDigit (sign : UInt8)
  /-- `"Expected \"=0\" in \"%s\"\n"`. -/
  | expectedZero
  /-- `"Bad trailing character (%c) in \"%s\"\n"`. -/
  | badTrailingCharacter (flag : UInt8)
  deriving DecidableEq, Repr

/-- `LONG_MAX`. -/
def longMax : Nat := 2 ^ 63 - 1

/-- `strtol` with base 10, where there is a digit: the number, and what is behind its digits. -/
def strtol (text : List UInt8) : Nat × List UInt8 :=
  (min (digitsValue (text.takeWhile isDigit)) longMax, text.dropWhile isDigit)

/-- A number that is stored in an `unsigned short`. -/
def toUnsignedShort (number : Int) : Nat :=
  (number % 2 ^ 16).toNat

/-- A number that is stored in a `short`. -/
def toShort (number : Int) : Int :=
  number.bmod (2 ^ 16)

/-- The loop over the flags, and what is behind them. -/
def flagLoop (semFlg : Nat) : List UInt8 → Nat × List UInt8
  | flag :: flags =>
    -- 'n'
    if flag = 110 then flagLoop (semFlg ||| ipcNowait) flags
    -- 'u'
    else if flag = 117 then flagLoop (semFlg ||| semUndo) flags
    else (semFlg, flag :: flags)
  | [] => (semFlg, [])

/-- A turn of the loop up to the search for a comma, with what it stores. -/
def parseOp (remaining : List UInt8) : Sembuf × Except ParseError Unit :=
  match remaining with
  | [] => (⟨none, none, none⟩, .error .trailingComma)
  | first :: _ =>
    if !isDigit first then (⟨none, none, none⟩, .error .expectedInitialDigit)
    else
      let (number, sign) := strtol remaining
      let semNum := toUnsignedShort number
      match sign with
      | [] => (⟨some semNum, none, none⟩, .error .expectedSign)
      | sign :: value =>
        if sign ∉ [plusSign, minusSign, equalsSign] then
          (⟨some semNum, none, none⟩, .error .expectedSign)
        else if !value.head?.any isDigit then
          (⟨some semNum, none, none⟩, .error (.expectedDigit sign))
        else
          let (number, flags) := strtol value
          let semOp := toShort number
          let semOp := if sign = minusSign then toShort (-semOp) else semOp
          if sign = equalsSign ∧ semOp ≠ 0 then
            (⟨some semNum, some semOp, none⟩, .error .expectedZero)
          else
            let (semFlg, rest) := flagLoop 0 flags
            match rest with
            | [] => (⟨some semNum, some semOp, some semFlg⟩, .ok ())
            | flag :: _ =>
              (⟨some semNum, some semOp, some semFlg⟩,
                if flag = comma then .ok () else .error (.badTrailingCharacter flag))

/-- What `parseOps` does: the elements of `sops` in which it stores something, and its result. -/
structure Parsed where
  sops : List Sembuf
  result : Except ParseError Nat

/-- An element comes before all others. -/
def Parsed.after (parsed : Parsed) (element : Sembuf) : Parsed :=
  { parsed with sops := element :: parsed.sops }

/-- The loop of `parseOps`. -/
def parseLoop (numOps : Nat) (remaining : List UInt8) : Parsed :=
  if numOps ≥ maxSemops then ⟨[], .error .tooManyOperations⟩
  else
    match parseOp remaining with
    | (element, .error error) => ⟨[element], .error error⟩
    | (element, .ok ()) =>
      match strchr remaining comma with
      | none => ⟨[element], .ok (numOps + 1)⟩
      | some comma => (parseLoop (numOps + 1) (remaining.drop (comma + 1))).after element
termination_by maxSemops - numOps

/-- `parseOps`. -/
def parseOps (arg : List UInt8) : Parsed :=
  parseLoop 0 arg

end SysProg.Svsem
