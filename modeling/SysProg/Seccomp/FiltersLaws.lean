import SysProg.Seccomp.Filters

/-! Every seccomp filter returns, and does with each system call what it is meant to do. -/

namespace SysProg.Seccomp

open ClassicBpf

/-- The offsets of the words of a `struct seccomp_data`. -/
def wordOffsets : List (BitVec 32) :=
  [0, 4, 8, 12, 16, 20, 24, 28, 32, 36, 40, 44, 48, 52, 56, 60]

/-- There is a word at each of these offsets. -/
theorem load_wordOffsets (data : SeccompData) :
    ∀ offset ∈ wordOffsets, ∃ word, data.load offset = some word := by
  intro offset mem
  simp only [wordOffsets, List.mem_cons, List.not_mem_nil, or_false] at mem
  -- The sixteen words of the structure.
  rcases mem with rfl | rfl | rfl | rfl | rfl | rfl | rfl | rfl | rfl | rfl | rfl | rfl | rfl |
    rfl | rfl | rfl <;> exact ⟨_, rfl⟩

/-- A call by another architecture, or by the x32 ABI. -/
def WrongAbi (data : SeccompData) : Prop :=
  data.arch ≠ auditArchX8664 ∨ x32SyscallBit ≤ data.nr

instance (data : SeccompData) : Decidable (WrongAbi data) :=
  inferInstanceAs (Decidable (_ ∨ _))

/-- What `seccomp_arg64` is meant to do, by the unsigned 64-bit offset of `lseek`. -/
def arg64Spec (data : SeccompData) : Action :=
  if WrongAbi data then .killProcess
  else if data.nr ≠ nrLseek then .allow
  else if (data.args 1).toNat ≤ 1000 then .allow
  else if (data.args 1).toNat < 2 ^ 32 then .errno 1
  else .errno 2

/-- A flag is set in a 64-bit argument. -/
def FlagSet (flags : BitVec 64) (flag : BitVec 32) : Prop :=
  flags &&& flag.setWidth 64 ≠ 0

instance (flags : BitVec 64) (flag : BitVec 32) : Decidable (FlagSet flags flag) :=
  inferInstanceAs (Decidable (_ ≠ _))

/-- What `seccomp_control_open` is meant to do with the flags of a file to be opened. -/
def flagsSpec (flags : BitVec 64) : Action :=
  if FlagSet flags oCreat then .killProcess
  else if FlagSet flags oWronly ∨ FlagSet flags oRdwr then .errno eNotsup
  else .allow

/-- What `seccomp_control_open` is meant to do. -/
def controlOpenSpec (data : SeccompData) : Action :=
  if WrongAbi data then .killProcess
  else if data.nr = nrOpen then flagsSpec (data.args 1)
  else if data.nr = nrOpenat then flagsSpec (data.args 2)
  else .allow

/-- What `seccomp_multiarch` is meant to do: `mq_notify` fails with its own number. -/
def multiarchSpec (data : SeccompData) : Action :=
  if data.arch = auditArchX8664 then
    if data.nr = nrMqNotifyX8664 then .errno 244
    else if data.nr = nrMqNotifyX32 ||| x32SyscallBit then .errno 527
    else .allow
  else if data.arch = auditArchI386 then
    if data.nr = nrMqNotifyI386 then .errno 281 else .allow
  else .killProcess

/-- What a notify filter is meant to do. -/
def notifySpec (nr : BitVec 32) (data : SeccompData) : Action :=
  if WrongAbi data then .killProcess
  else if data.nr = nr then .userNotif
  else .allow

/-- The upper half of a 64-bit number is zero when the number is below the size of a half. -/
theorem upper_eq_zero_iff (field : BitVec 64) :
    (field >>> 32).setWidth 32 = (0 : BitVec 32) ↔ field.toNat < 2 ^ 32 := by
  -- Shifting right by 32 is dividing by 2 ^ 32.
  rw [← BitVec.toNat_inj]
  have bound := field.isLt
  simp only [BitVec.toNat_setWidth, BitVec.toNat_ushiftRight, Nat.shiftRight_eq_div_pow]
  show _ = 0 ↔ _
  omega

/-- A flag of 32 bits is seen in the lower half of the argument. -/
theorem lower_flag_iff (flags : BitVec 64) (flag : BitVec 32) :
    flags.setWidth 32 &&& flag ≠ 0 ↔ FlagSet flags flag := by
  -- Above the lower half the flag has no bits.
  have whole : flags &&& flag.setWidth 64 = (flags.setWidth 32 &&& flag).setWidth 64 := by
    ext bit
    simp
    grind
  rw [FlagSet, whole]
  refine not_congr ⟨fun zero => by rw [zero]; rfl, fun zero => ?_⟩
  rw [← BitVec.toNat_inj, BitVec.toNat_setWidth_of_le (by decide)] at zero
  exact BitVec.eq_of_toNat_eq zero

/-- One of two flags is set in a word that has something in common with both. -/
theorem either_flag_iff (word first second : BitVec 32) :
    word &&& (first ||| second) ≠ 0 ↔ word &&& first ≠ 0 ∨ word &&& second ≠ 0 := by
  -- A word without bits in common with either flag has none in common with both.
  rw [BitVec.and_or_distrib_left, ne_eq]
  show ¬ (word &&& first ||| word &&& second) = 0#32 ↔ _
  rw [BitVec.or_eq_zero_iff, not_and_or]
  rfl

/-- The run of `seccomp_arg64`, with its jumps written out. -/
theorem run_arg64 (data : SeccompData) : run data.load arg64Filter =
    -- The instructions are followed one after the other; the jumps go forward only.
    if data.arch = auditArchX8664 then
      if x32SyscallBit ≤ data.nr then some retKillProcess
      else if data.nr = nrLseek then
        if (data.args 1 >>> 32).setWidth 32 = 0 then
          if 1000 < (data.args 1).setWidth 32 then some (retErrno ||| 1) else some retAllow
        else some (retErrno ||| 2)
      else some retAllow
    else some retKillProcess := rfl

/-- How the flags are processed by `seccomp_control_open`. -/
def processFlags (flags : BitVec 32) : Option (BitVec 32) :=
  if flags &&& oCreat ≠ 0 then some retKillProcess
  else if flags &&& (oWronly ||| oRdwr) ≠ 0 then some (retErrno ||| eNotsup)
  else some retAllow

/-- The run of `seccomp_control_open`, with its jumps written out. -/
theorem run_controlOpen (data : SeccompData) : run data.load controlOpenFilter =
    -- The two system calls have their flags in different arguments.
    if data.arch = auditArchX8664 then
      if x32SyscallBit ≤ data.nr then some retKillProcess
      else if data.nr = nrOpen then processFlags ((data.args 1).setWidth 32)
      else if data.nr = nrOpenat then processFlags ((data.args 2).setWidth 32)
      else some retAllow
    else some retKillProcess := rfl

/-- The run of `seccomp_multiarch`, with its jumps written out. -/
theorem run_multiarch (data : SeccompData) : run data.load multiarchFilter =
    -- Each ABI has its own number for the call.
    if data.arch = auditArchX8664 then
      if data.nr = nrMqNotifyX8664 then some (retErrno ||| nrMqNotifyX8664)
      else if data.nr = nrMqNotifyX32 + x32SyscallBit then some (retErrno ||| nrMqNotifyX32)
      else some retAllow
    else if data.arch = auditArchI386 then
      if data.nr = nrMqNotifyI386 then some (retErrno ||| nrMqNotifyI386) else some retAllow
    else some retKillProcess := rfl

/-- The run of a notify filter, with its jumps written out. -/
theorem run_notify (nr : BitVec 32) (data : SeccompData) : run data.load (notifyFilter nr) =
    -- The supervisor is asked about one number only.
    if data.arch = auditArchX8664 then
      if x32SyscallBit ≤ data.nr then some retKillProcess
      else if data.nr = nr then some retUserNotif
      else some retAllow
    else some retKillProcess := rfl

/-- In all filters a call by a wrong ABI kills, and the rest decides the others. -/
theorem map_checkAbi (data : SeccompData) {rest : Option (BitVec 32)} {spec : Action}
    (decides : rest.map action = some spec) :
    (if data.arch = auditArchX8664 then
      if x32SyscallBit ≤ data.nr then some retKillProcess else rest
    else some retKillProcess).map action =
      some (if WrongAbi data then .killProcess else spec) := by
  -- The architecture is checked first, and the x32 bit after it.
  by_cases arch : data.arch = auditArchX8664
  swap
  · have wrong : WrongAbi data := .inl arch
    rw [if_neg arch, if_pos wrong]
    rfl
  by_cases x32 : x32SyscallBit ≤ data.nr
  · have wrong : WrongAbi data := .inr x32
    rw [if_pos arch, if_pos x32, if_pos wrong]
    rfl
  · have right : ¬ WrongAbi data := not_or.mpr ⟨not_not.mpr arch, x32⟩
    rw [if_pos arch, if_neg x32, if_neg right]
    exact decides

/-- The offset of `lseek` is compared as one 64-bit number. -/
theorem verdict_arg64 (data : SeccompData) : verdict arg64Filter data = some (arg64Spec data) := by
  unfold verdict arg64Spec
  rw [run_arg64]
  apply map_checkAbi
  -- Other calls are allowed, and the offset of `lseek` is looked at.
  by_cases lseek : data.nr = nrLseek
  swap
  · rw [if_neg lseek, if_pos lseek]
    rfl
  rw [if_pos lseek, if_neg (not_not.mpr lseek)]
  -- The upper half decides whether the offset fits into the lower half at all.
  by_cases fits : (data.args 1).toNat < 2 ^ 32
  · rw [if_pos ((upper_eq_zero_iff _).mpr fits)]
    have lower : (1000 : BitVec 32) < (data.args 1).setWidth 32 ↔ ¬ (data.args 1).toNat ≤ 1000 := by
      rw [BitVec.lt_def, BitVec.toNat_setWidth, Nat.mod_eq_of_lt fits]
      exact not_le.symm
    by_cases small : (data.args 1).toNat ≤ 1000
    · rw [if_neg (mt lower.mp (not_not.mpr small)), if_pos small]
      rfl
    · rw [if_pos (lower.mpr small), if_neg small, if_pos fits]
      rfl
  · have large : ¬ (data.args 1).toNat ≤ 1000 := by omega
    rw [if_neg (mt (upper_eq_zero_iff _).mp fits), if_neg large, if_neg fits]
    rfl

/-- The flags are looked at as they are meant, wherever they come from. -/
theorem action_processFlags (flags : BitVec 64) :
    (processFlags (flags.setWidth 32)).map action = some (flagsSpec flags) := by
  unfold processFlags flagsSpec
  -- The halves and the pairs of flags are brought into the words of the specification.
  simp only [either_flag_iff, lower_flag_iff]
  by_cases creates : FlagSet flags oCreat
  · rw [if_pos creates, if_pos creates]
    rfl
  rw [if_neg creates, if_neg creates]
  by_cases writes : FlagSet flags oWronly ∨ FlagSet flags oRdwr
  · rw [if_pos writes, if_pos writes]
    rfl
  · rw [if_neg writes, if_neg writes]
    rfl

/-- Opening is controlled by the flags of `open` and `openat` alone. -/
theorem verdict_controlOpen (data : SeccompData) :
    verdict controlOpenFilter data = some (controlOpenSpec data) := by
  unfold verdict controlOpenSpec
  rw [run_controlOpen]
  apply map_checkAbi
  -- The flags are in the second argument of `open`, and in the third of `openat`.
  by_cases opens : data.nr = nrOpen
  · rw [if_pos opens, if_pos opens, action_processFlags]
  rw [if_neg opens, if_neg opens]
  by_cases opensAt : data.nr = nrOpenat
  · rw [if_pos opensAt, if_pos opensAt, action_processFlags]
  · rw [if_neg opensAt, if_neg opensAt]
    rfl

/-- Each of the three ABIs has its own number for `mq_notify`, and is told it. -/
theorem verdict_multiarch (data : SeccompData) :
    verdict multiarchFilter data = some (multiarchSpec data) := by
  unfold verdict multiarchSpec
  rw [run_multiarch]
  -- The number of an x32 call and the x32 bit have no bit in common.
  have bits : nrMqNotifyX32 + x32SyscallBit = nrMqNotifyX32 ||| x32SyscallBit := by decide
  rw [bits]
  -- One case for each ABI.
  split
  · split
    · rfl
    · split <;> rfl
  · split
    · split <;> rfl
    · rfl

/-- A notify filter notifies of its own system call. -/
theorem verdict_notify (nr : BitVec 32) (data : SeccompData) :
    verdict (notifyFilter nr) data = some (notifySpec nr data) := by
  unfold verdict notifySpec
  rw [run_notify]
  apply map_checkAbi
  -- Both agree once the ABI has been checked.
  split <;> rfl

/-- A notify filter notifies of no other system call. -/
theorem nr_of_userNotif {nr : BitVec 32} {data : SeccompData}
    (notifies : verdict (notifyFilter nr) data = some .userNotif) : data.nr = nr := by
  rw [verdict_notify, Option.some.injEq] at notifies
  unfold notifySpec at notifies
  split at notifies
  -- Only the branch of the call itself notifies.
  · exact absurd notifies (by decide)
  split at notifies
  · assumption
  · exact absurd notifies (by decide)

/--
A filter does with a call what a specification says.

None of its jumps leaves it, and its run ends in one of its own return instructions.
-/
def Meets (filter : List SockFilter) (spec : SeccompData → Action) (data : SeccompData) : Prop :=
  Checked filter wordOffsets ∧ ∃ insn ∈ filter, operation insn.code = some .ret ∧
    run data.load filter = some insn.k ∧ action insn.k = spec data

/-- A checked filter meets the specification that its verdict agrees with. -/
theorem meets_of_verdict {filter : List SockFilter} {spec : SeccompData → Action}
    {data : SeccompData} (checked : Checked filter wordOffsets)
    (agrees : verdict filter data = some (spec data)) : Meets filter spec data := by
  -- A checked filter ends in one of its return instructions.
  obtain ⟨insn, mem, returns, ran⟩ := run_of_checked checked (load_wordOffsets data)
  refine ⟨checked, insn, mem, returns, ran, ?_⟩
  rw [verdict, ran] at agrees
  exact Option.some.inj agrees

/-- The filters of the sample programs do what they are meant to do, for every system call. -/
theorem filters_correct (data : SeccompData) :
    Meets arg64Filter arg64Spec data ∧ Meets controlOpenFilter controlOpenSpec data ∧
    Meets multiarchFilter multiarchSpec data ∧
    Meets mkdirNotifyFilter (notifySpec nrMkdir) data ∧
    Meets openatNotifyFilter (notifySpec nrOpenat) data := by
  -- Each filter is checked by evaluation, and its verdict is its specification.
  refine ⟨?_, ?_, ?_, ?_, ?_⟩
  · exact meets_of_verdict (by decide) (verdict_arg64 data)
  · exact meets_of_verdict (by decide) (verdict_controlOpen data)
  · exact meets_of_verdict (by decide) (verdict_multiarch data)
  · exact meets_of_verdict (by decide) (verdict_notify nrMkdir data)
  · exact meets_of_verdict (by decide) (verdict_notify nrOpenat data)

end SysProg.Seccomp
