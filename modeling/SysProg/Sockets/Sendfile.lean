import SysProg.Lib.Machine

/-! `sendfile` made of `read`, `write` and `lseek`. -/

namespace SysProg.Sockets.Sendfile

/-- `BUF_SIZE`. -/
def bufSize : Nat := 8192

/-- What `sendfile` is called with, and the file from which it reads. -/
structure Setup where
  file : List UInt8
  /-- The file offset of `in_fd`. -/
  pos : Nat
  /-- `*offset`, unless `offset` is `NULL`. -/
  offset : Option Int
  count : Nat

/-- Where `sendfile` stands. -/
inductive Pc where
  /-- The first test of `offset`. -/
  | start
  /-- `orig = lseek(in_fd, 0, SEEK_CUR)`. -/
  | saveOrig
  /-- `lseek(in_fd, *offset, SEEK_SET)`. -/
  | setOffset
  /-- `count > 0`. -/
  | loop
  /-- `read(in_fd, buf, toRead)`. -/
  | read
  /-- `write(out_fd, buf, numRead)`. -/
  | write
  /-- The second test of `offset`. -/
  | finish
  /-- `*offset = lseek(in_fd, 0, SEEK_CUR)`. -/
  | getOffset
  /-- `lseek(in_fd, orig, SEEK_SET)`. -/
  | restore
  | returned (value : Int)
  /-- `write` has transferred 0 bytes, which should never happen. -/
  | fatal
  deriving DecidableEq, Repr

/-- The variables of `sendfile`, the file offset, and what has been written. -/
structure State where
  pc : Pc
  count : Nat
  totSent : Nat
  orig : Nat
  /-- The bytes that the last `read` has brought. -/
  buf : List UInt8
  offset : Option Int
  pos : Nat
  out : List UInt8
  deriving DecidableEq

/-- `sendfile` is called. -/
def initial (setup : Setup) : State where
  pc := .start
  count := setup.count
  totSent := 0
  orig := 0
  buf := []
  offset := setup.offset
  pos := setup.pos
  out := []

/-- What the next statement does, which may be up to the system. -/
inductive Action where
  | test
  | lseek (succeeds : Bool)
  /-- `read` brings so many bytes. -/
  | read (numRead : Nat)
  | readFails
  /-- `write` accepts so many bytes. -/
  | write (numSent : Nat)
  | writeFails
  deriving DecidableEq, Repr

/-- How many bytes a `read` may bring, which brings none only at end-of-file. -/
def State.Readable (file : List UInt8) (state : State) (numRead : Nat) : Prop :=
  numRead ≤ min bufSize state.count ∧ numRead ≤ file.length - state.pos ∧
    (numRead = 0 → file.length ≤ state.pos)

instance (file : List UInt8) (state : State) (numRead : Nat) :
    Decidable (state.Readable file numRead) :=
  inferInstanceAs (Decidable (_ ∧ _ ∧ (_ → _)))

/-- One statement of `sendfile`. -/
def step (file : List UInt8) (state : State) (action : Action) : Option State :=
  match state.pc, action with
  | .start, .test =>
    some { state with pc := if state.offset.isSome then .saveOrig else .loop }
  | .saveOrig, .lseek succeeds =>
    if succeeds then some { state with pc := .setOffset, orig := state.pos }
    else some { state with pc := .returned (-1) }
  | .setOffset, .lseek succeeds =>
    match succeeds, state.offset with
    -- No file offset is negative.
    | true, some (.ofNat offset) => some { state with pc := .loop, pos := offset }
    | false, _ => some { state with pc := .returned (-1) }
    | _, _ => none
  | .loop, .test => some { state with pc := if state.count > 0 then .read else .finish }
  | .read, .read numRead =>
    if state.Readable file numRead then
      if numRead = 0 then some { state with pc := .finish }
      else some { state with
        pc := .write
        buf := (file.drop state.pos).take numRead
        pos := state.pos + numRead }
    else none
  | .read, .readFails => some { state with pc := .returned (-1) }
  | .write, .write numSent =>
    if numSent ≤ state.buf.length then
      if numSent = 0 then some { state with pc := .fatal }
      else some { state with
        pc := .loop
        out := state.out ++ state.buf.take numSent
        count := state.count - numSent
        totSent := state.totSent + numSent }
    else none
  | .write, .writeFails => some { state with pc := .returned (-1) }
  | .finish, .test =>
    some { state with
      pc := if state.offset.isSome then .getOffset else .returned state.totSent }
  | .getOffset, .lseek succeeds =>
    if succeeds then some { state with pc := .restore, offset := some state.pos }
    else some { state with pc := .returned (-1), offset := some (-1) }
  | .restore, .lseek succeeds =>
    if succeeds then some { state with pc := .returned state.totSent, pos := state.orig }
    else some { state with pc := .returned (-1) }
  | _, _ => none

/-- `sendfile` as it runs. -/
def sendfile (setup : Setup) : Machine State Action where
  step := step setup.file

end SysProg.Sockets.Sendfile
