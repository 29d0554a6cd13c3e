import SysProg.Lib.Lines
import SysProg.Seqnum.Servers

/-! The two functions that read a line: one byte at a time, and from a buffer that blocks fill. -/

namespace SysProg.Sockets

open Seqnum (ReadResult)

/-- What a call returns, and what it has placed into the buffer of its caller. -/
structure LineRead where
  value : Int
  buffer : List UInt8
  deriving DecidableEq, Repr

/-- The line that a call has delivered, without what follows it in the buffer. -/
def LineRead.line (result : LineRead) : List UInt8 :=
  result.buffer.take result.value.toNat

/-- The loop of `readLine`, where the bytes placed so far are `totRead` in number. -/
def readLineLoop (n : Nat) (buf : List UInt8) : List ReadResult → LineRead × List ReadResult
  -- EOF
  | [] => if buf.length = 0 then (⟨0, buf⟩, []) else (⟨buf.length, buf ++ [0]⟩, [])
  -- Interrupted: restart `read`.
  | .interrupted :: rest => readLineLoop n buf rest
  | .error :: rest => (⟨-1, buf⟩, rest)
  | .byte ch :: rest =>
    -- Bytes that do not fit are discarded.
    let buf := if buf.length < n - 1 then buf ++ [ch] else buf
    if ch = 10 then (⟨buf.length, buf ++ [0]⟩, rest) else readLineLoop n buf rest

/-- `readLine(fd, buffer, n)`, with what `read` is going to bring before and after. -/
def readLine (n : Nat) (reads : List ReadResult) : LineRead × List ReadResult :=
  -- `EINVAL`
  if n = 0 then (⟨-1, []⟩, reads) else readLineLoop n [] reads

/-- `RL_MAX_BUF`. -/
def rlMaxBuf : Nat := 10

/-- What one `read` can bring of the input. -/
abbrev Chunk :=
  {bytes : List UInt8 // bytes ≠ [] ∧ bytes.length ≤ rlMaxBuf}

/-- What `read(rlbuf->fd, rlbuf->buf, RL_MAX_BUF)` brings, unless it brings end-of-file. -/
inductive BlockRead where
  | bytes (chunk : Chunk)
  /-- `EINTR`. -/
  | interrupted
  /-- Any other error. -/
  | error
  deriving DecidableEq

/-- A `ReadLineBuf`, apart from the file descriptor from which it reads. -/
structure ReadLineBuf where
  buf : Vector UInt8 rlMaxBuf
  /-- Index of the next unread character. -/
  next : Nat
  /-- Number of characters, or what else `read` has returned. -/
  len : Int
  within : len ≤ rlMaxBuf

/-- `readLineBufInit`. -/
def readLineBufInit (rlbuf : ReadLineBuf) : ReadLineBuf :=
  { rlbuf with next := 0, len := 0, within := by decide }

/-- `read` has failed. -/
def ReadLineBuf.failed (rlbuf : ReadLineBuf) : ReadLineBuf :=
  { rlbuf with len := -1, within := by decide }

/-- `read` has met end-of-file. -/
def ReadLineBuf.ended (rlbuf : ReadLineBuf) : ReadLineBuf :=
  { rlbuf with len := 0, within := by decide }

/-- `read` has brought some bytes, the first of which is the next character. -/
def ReadLineBuf.filled (rlbuf : ReadLineBuf) (chunk : Chunk) : ReadLineBuf where
  buf := Vector.ofFn fun i => chunk.val.getD i rlbuf.buf[i]
  next := 0
  len := chunk.val.length
  within := Int.ofNat_le.mpr chunk.property.2

/-- The loop of `readLineBuf`, where the characters placed so far are `cnt` in number. -/
def readLineBufLoop (n : Nat) (rlbuf : ReadLineBuf) (buffer : List UInt8)
    (reads : List BlockRead) : LineRead × ReadLineBuf × List BlockRead :=
  if available : rlbuf.next < rlbuf.len then
    have within : rlbuf.next < rlMaxBuf := by
      have within := rlbuf.within
      omega
    let c := rlbuf.buf[rlbuf.next]
    let rlbuf := { rlbuf with next := rlbuf.next + 1 }
    -- Characters that do not fit are discarded.
    let buffer := if buffer.length < n then buffer ++ [c] else buffer
    if c = 10 then (⟨buffer.length, buffer⟩, rlbuf, reads)
    else readLineBufLoop n rlbuf buffer reads
  else
    -- There are no characters left, so further input is obtained.
    match reads with
    | [] => (⟨buffer.length, buffer⟩, rlbuf.ended, [])
    | .interrupted :: rest | .error :: rest => (⟨-1, buffer⟩, rlbuf.failed, rest)
    | .bytes chunk :: rest => readLineBufLoop n (rlbuf.filled chunk) buffer rest
termination_by (reads.length, (rlbuf.len - rlbuf.next).toNat)
decreasing_by
  · exact Prod.Lex.right _ (by omega)
  · exact Prod.Lex.left _ _ (Nat.lt_succ_self _)

/-- `readLineBuf(rlbuf, buffer, n)`, with what `read` is going to bring before and after. -/
def readLineBuf (n : Nat) (input : ReadLineBuf × List BlockRead) :
    LineRead × ReadLineBuf × List BlockRead :=
  -- `EINVAL`
  if n = 0 then (⟨-1, []⟩, input) else readLineBufLoop n input.1 [] input.2

/-- What successive calls return, each with the size of its buffer. -/
def calls {Input : Type*} (call : Nat → Input → LineRead × Input) :
    List Nat → Input → List LineRead
  | [], _ => []
  | n :: sizes, input => (call n input).1 :: calls call sizes (call n input).2

/-- The lines that calls have delivered, where end-of-file and errors deliver nothing. -/
def delivered (results : List LineRead) : List (List UInt8) :=
  (results.filter fun result => 0 < result.value).map LineRead.line

end SysProg.Sockets
