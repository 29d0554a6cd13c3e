import SysProg.Lib.ClassicBpf

/-! The seccomp filters that the sample programs install, on x86-64. -/

namespace SysProg.Seccomp

open ClassicBpf

/-- The six arguments of a system call are numbered from 0 on. -/
instance neZeroSix : NeZero 6 := ⟨by decide⟩

/-- `struct seccomp_data`, what a filter sees of a system call. -/
structure SeccompData where
  nr : BitVec 32
  arch : BitVec 32
  instructionPointer : BitVec 64
  args : Fin 6 → BitVec 64

/-- The two words of a 64-bit field, the least significant one first. -/
def words64 (field : BitVec 64) : List (BitVec 32) :=
  [field.setWidth 32, (field >>> 32).setWidth 32]

/-- The words that a `struct seccomp_data` lies in memory as. -/
def SeccompData.words (data : SeccompData) : List (BitVec 32) :=
  [data.nr, data.arch] ++ words64 data.instructionPointer ++ words64 (data.args 0) ++
    words64 (data.args 1) ++ words64 (data.args 2) ++ words64 (data.args 3) ++
    words64 (data.args 4) ++ words64 (data.args 5)

/-- `offsetof(struct seccomp_data, nr)`. -/
def offsetofNr : BitVec 32 := 0

/-- `offsetof(struct seccomp_data, arch)`. -/
def offsetofArch : BitVec 32 := 4

/-- `offsetof(struct seccomp_data, args[argNum])`. -/
def offsetofArg (argNum : Fin 6) : BitVec 32 :=
  BitVec.ofNat 32 (16 + 8 * argNum)

/-- Loading a word of the data, which has to be aligned. -/
def SeccompData.load (data : SeccompData) (offset : BitVec 32) : Option (BitVec 32) :=
  if offset.toNat % 4 = 0 then data.words[offset.toNat / 4]? else none

/-! The constants of the kernel's headers. -/

def auditArchX8664 : BitVec 32 := 0xC000003E
def auditArchI386 : BitVec 32 := 0x40000003
def retKillProcess : BitVec 32 := 0x80000000
def retErrno : BitVec 32 := 0x00050000
def retUserNotif : BitVec 32 := 0x7fc00000
def retAllow : BitVec 32 := 0x7fff0000
def nrOpen : BitVec 32 := 2
def nrLseek : BitVec 32 := 8
def nrMkdir : BitVec 32 := 83
def nrOpenat : BitVec 32 := 257
def oWronly : BitVec 32 := 1
def oRdwr : BitVec 32 := 2
def oCreat : BitVec 32 := 0x40
def eNotsup : BitVec 32 := 95

/-- `X32_SYSCALL_BIT`. -/
def x32SyscallBit : BitVec 32 := 0x40000000

/-- `BPF_LD | BPF_W | BPF_ABS`. -/
def loadWord (offset : BitVec 32) : SockFilter :=
  bpfStmt (bpfLd ||| bpfW ||| bpfAbs) offset

/-- `BPF_RET | BPF_K`. -/
def ret (value : BitVec 32) : SockFilter :=
  bpfStmt (bpfRet ||| bpfK) value

/-- The filter of `seccomp_arg64`. -/
def arg64Filter : List SockFilter := [
  -- Kill the process if the architecture is not what we expect
  loadWord offsetofArch,
  bpfJump (bpfJmp ||| bpfJeq ||| bpfK) auditArchX8664 0 2,
  -- Kill the process if this is an x32 system call (bit 30 is set)
  loadWord offsetofNr,
  bpfJump (bpfJmp ||| bpfJge ||| bpfK) x32SyscallBit 0 1,
  ret retKillProcess,
  -- Allow system calls other than lseek()
  bpfJump (bpfJmp ||| bpfJeq ||| bpfK) nrLseek 1 0,
  ret retAllow,
  -- Top 4 bytes of 'offset' argument; fail with errno==2 if nonzero
  loadWord (offsetofArg 1 + 4),
  bpfJump (bpfJmp ||| bpfJeq ||| bpfK) 0 1 0,
  ret (retErrno ||| 2),
  -- Bottom 4 bytes of 'offset' argument; fail with errno==1 if the value is > 1000
  loadWord (offsetofArg 1),
  bpfJump (bpfJmp ||| bpfJgt ||| bpfK) 1000 0 1,
  ret (retErrno ||| 1),
  ret retAllow]

/-- The filter of `seccomp_control_open`. -/
def controlOpenFilter : List SockFilter := [
  loadWord offsetofArch,
  bpfJump (bpfJmp ||| bpfJeq ||| bpfK) auditArchX8664 1 0,
  ret retKillProcess,
  loadWord offsetofNr,
  bpfJump (bpfJmp ||| bpfJge ||| bpfK) x32SyscallBit 0 1,
  ret retKillProcess,
  -- Is this an open() syscall? Then load its second argument, and jump to flags processing
  bpfJump (bpfJmp ||| bpfJeq ||| bpfK) nrOpen 0 2,
  loadWord (offsetofArg 1),
  bpfJump (bpfJmp ||| bpfJa) 3 0 0,
  -- Is this an openat() syscall? Then load its third argument
  bpfJump (bpfJmp ||| bpfJeq ||| bpfK) nrOpenat 1 0,
  ret retAllow,
  loadWord (offsetofArg 2),
  -- Kill the process if O_CREAT was specified
  bpfJump (bpfJmp ||| bpfJset ||| bpfK) oCreat 0 1,
  ret retKillProcess,
  -- Give ENOTSUP error on attempt to open for writing
  bpfJump (bpfJmp ||| bpfJset ||| bpfK) (oWronly ||| oRdwr) 0 1,
  ret (retErrno ||| eNotsup),
  ret retAllow]

def nrMqNotifyX8664 : BitVec 32 := 244
def nrMqNotifyI386 : BitVec 32 := 281
def nrMqNotifyX32 : BitVec 32 := 527

/-- The filter of `seccomp_multiarch`. -/
def multiarchFilter : List SockFilter := [
  loadWord offsetofArch,
  bpfJump (bpfJmp ||| bpfJeq ||| bpfK) auditArchX8664 0 5,
  loadWord offsetofNr,
  -- [3] Is this the x86-64 mq_notify() syscall?
  bpfJump (bpfJmp ||| bpfJeq ||| bpfK) nrMqNotifyX8664 0 1,
  ret (retErrno ||| nrMqNotifyX8664),
  -- [5] Is this the x32 mq_notify() syscall?
  bpfJump (bpfJmp ||| bpfJeq ||| bpfK) (nrMqNotifyX32 + x32SyscallBit) 0 5,
  ret (retErrno ||| nrMqNotifyX32),
  -- [7] Is this the i386 architecture?
  bpfJump (bpfJmp ||| bpfJeq ||| bpfK) auditArchI386 0 4,
  loadWord offsetofNr,
  bpfJump (bpfJmp ||| bpfJeq ||| bpfK) nrMqNotifyI386 0 1,
  ret (retErrno ||| nrMqNotifyI386),
  -- [11] Allow the system call.
  ret retAllow,
  -- [12] Kill the process if the architecture is not one of those that we expect.
  ret retKillProcess]

/-- `X86_64_CHECK_ARCH_AND_LOAD_SYSCALL_NR`. -/
def x8664CheckArchAndLoadSyscallNr : List SockFilter := [
  loadWord offsetofArch,
  bpfJump (bpfJmp ||| bpfJeq ||| bpfK) auditArchX8664 0 2,
  loadWord offsetofNr,
  bpfJump (bpfJmp ||| bpfJge ||| bpfK) x32SyscallBit 0 1,
  ret retKillProcess]

/-- A filter that has user space notified of one system call. -/
def notifyFilter (nr : BitVec 32) : List SockFilter :=
  x8664CheckArchAndLoadSyscallNr ++ [
    bpfJump (bpfJmp ||| bpfJeq ||| bpfK) nr 0 1,
    ret retUserNotif,
    -- Every other system call is allowed
    ret retAllow]

/-- The filter of `installNotifyFilter` in `seccomp_unotify_mkdir`. -/
def mkdirNotifyFilter : List SockFilter :=
  notifyFilter nrMkdir

/-- The filter of `installNotifyFilter` in `seccomp_unotify_openat`. -/
def openatNotifyFilter : List SockFilter :=
  notifyFilter nrOpenat

/-- What the kernel does with a system call, by the value that the filter returns for it. -/
inductive Action where
  | killProcess
  | errno (error : BitVec 32)
  | userNotif
  | allow
  /-- An action that none of the filters asks for. -/
  | other
  deriving DecidableEq, Repr

/-- The upper half of a returned value is the action, the lower half its data. -/
def action (value : BitVec 32) : Action :=
  let code := value &&& 0xffff0000
  if code = retKillProcess then .killProcess
  else if code = retErrno then .errno (value &&& 0xffff)
  else if code = retUserNotif then .userNotif
  else if code = retAllow then .allow
  else .other

/-- What a filter has the kernel do, if it returns anything. -/
def verdict (filter : List SockFilter) (data : SeccompData) : Option Action :=
  (run data.load filter).map action

end SysProg.Seccomp
