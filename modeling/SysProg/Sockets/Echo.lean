import SysProg.Lib.Pipeline

/-! The client of the echo service and its servers, which pass on what is typed. -/

namespace SysProg.Sockets.Echo

/-- What `printf("%.*s")` prints of a buffer, in which a null byte ends the string. -/
def printed (buf : List UInt8) : List UInt8 :=
  buf.takeWhile (· ≠ 0)

/-- `is_echo_cl.c`, where the parent writes the contents of `stdin` to the socket. -/
def isEchoClParent (room : Nat) : Stage UInt8 := ⟨100, id, some room⟩

/-- `is_echo_cl.c`, where the child prints the server's response. -/
def isEchoClChild : Stage UInt8 := ⟨100, printed, none⟩

/-- `handleRequest` of `is_echo_sv.c`, which copies socket input back to the socket. -/
def handleRequest (room : Nat) : Stage UInt8 := ⟨4096, id, some room⟩

/-- `main` of `is_echo_inetd_sv.c`, with the socket as its standard input and output. -/
def isEchoInetdSv (room : Nat) : Stage UInt8 := ⟨4096, id, some room⟩

/-- The programs that offer the service. -/
inductive Server where
  | isEchoSv
  | isEchoInetdSv
  deriving DecidableEq, Repr

/-- The loop of a server. -/
def Server.loop : Server → Nat → Stage UInt8
  | .isEchoSv => handleRequest
  | .isEchoInetdSv => Echo.isEchoInetdSv

/-- A client and the server that handles its connection, whose two directions have bounds. -/
def echo (server : Server) (roomToServer roomToClient : Nat) : List (Stage UInt8) :=
  [isEchoClParent roomToServer, server.loop roomToClient, isEchoClChild]

end SysProg.Sockets.Echo
