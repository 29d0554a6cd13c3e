import Mathlib.Tactic

/-! Classic BPF filters: how their instructions run, and why a checked filter always returns. -/

namespace SysProg.ClassicBpf

/-- `struct sock_filter`, one instruction of a filter. -/
structure SockFilter where
  code : BitVec 16
  jt : BitVec 8
  jf : BitVec 8
  k : BitVec 32
  deriving DecidableEq, Repr

/-! The classes, sizes, modes and sources that a code is made of. -/

def bpfLd : BitVec 16 := 0x00
def bpfJmp : BitVec 16 := 0x05
def bpfRet : BitVec 16 := 0x06
def bpfW : BitVec 16 := 0x00
def bpfAbs : BitVec 16 := 0x20
def bpfJa : BitVec 16 := 0x00
def bpfJeq : BitVec 16 := 0x10
def bpfJgt : BitVec 16 := 0x20
def bpfJge : BitVec 16 := 0x30
def bpfJset : BitVec 16 := 0x40
def bpfK : BitVec 16 := 0x00

/-- `BPF_STMT`. -/
def bpfStmt (code : BitVec 16) (k : BitVec 32) : SockFilter :=
  ⟨code, 0, 0, k⟩

/-- `BPF_JUMP`. -/
def bpfJump (code : BitVec 16) (k : BitVec 32) (jt jf : BitVec 8) : SockFilter :=
  ⟨code, jt, jf, k⟩

/-- How a conditional jump compares the accumulator with its constant. -/
inductive Test where
  | eq
  | gt
  | ge
  | set
  deriving DecidableEq, Repr

/-- The comparison is true, on unsigned numbers. -/
def Test.Holds : Test → BitVec 32 → BitVec 32 → Prop
  | .eq, accumulator, k => accumulator = k
  | .gt, accumulator, k => k < accumulator
  | .ge, accumulator, k => k ≤ accumulator
  | .set, accumulator, k => accumulator &&& k ≠ 0

instance : (test : Test) → (accumulator k : BitVec 32) → Decidable (test.Holds accumulator k)
  | .eq, accumulator, k => inferInstanceAs (Decidable (accumulator = k))
  | .gt, accumulator, k => inferInstanceAs (Decidable (k < accumulator))
  | .ge, accumulator, k => inferInstanceAs (Decidable (k ≤ accumulator))
  | .set, accumulator, k => inferInstanceAs (Decidable (accumulator &&& k ≠ 0))

/-- What an instruction does, among those that work on the accumulator and constants only. -/
inductive Operation where
  /-- Load a word of the input from a fixed offset. -/
  | load
  /-- Jump forward in any case. -/
  | jump
  /-- Jump forward by one of two distances. -/
  | branch (test : Test)
  /-- End the run with a constant. -/
  | ret
  deriving DecidableEq, Repr

/-- The operation that a code stands for. -/
def operation (code : BitVec 16) : Option Operation :=
  if code = bpfLd ||| bpfW ||| bpfAbs then some .load
  else if code = bpfJmp ||| bpfJa then some .jump
  else if code = bpfJmp ||| bpfJeq ||| bpfK then some (.branch .eq)
  else if code = bpfJmp ||| bpfJgt ||| bpfK then some (.branch .gt)
  else if code = bpfJmp ||| bpfJge ||| bpfK then some (.branch .ge)
  else if code = bpfJmp ||| bpfJset ||| bpfK then some (.branch .set)
  else if code = bpfRet ||| bpfK then some .ret
  else none

section Run

variable (load : BitVec 32 → Option (BitVec 32)) (program : List SockFilter)

/--
A run from an instruction, with the accumulator it finds.

All distances count from the next instruction. A run that leaves the program, meets an unknown code
or loads from a wrong offset has no result.
-/
def runFrom : (fuel pc : Nat) → (accumulator : BitVec 32) → Option (BitVec 32)
  | 0, _, _ => none
  | fuel + 1, pc, accumulator =>
    match program[pc]? with
    | none => none
    | some insn =>
      match operation insn.code with
      | none => none
      | some .load =>
        match load insn.k with
        | none => none
        | some word => runFrom fuel (pc + 1) word
      | some .jump => runFrom fuel (pc + 1 + insn.k.toNat) accumulator
      | some (.branch test) =>
        if test.Holds accumulator insn.k then runFrom fuel (pc + 1 + insn.jt.toNat) accumulator
        else runFrom fuel (pc + 1 + insn.jf.toNat) accumulator
      | some .ret => some insn.k

/-- What a filter returns; as it only jumps forward, it runs no instruction twice. -/
def run : Option (BitVec 32) :=
  runFrom load program program.length 0 0

/-- An instruction stays within a program of this length, and loads from offsets that exist. -/
def Stays (offsets : List (BitVec 32)) (length pc : Nat) (insn : SockFilter) : Prop :=
  match operation insn.code with
  | none => False
  | some .load => insn.k ∈ offsets ∧ pc + 1 < length
  | some .jump => pc + 1 + insn.k.toNat < length
  | some (.branch _) => pc + 1 + insn.jt.toNat < length ∧ pc + 1 + insn.jf.toNat < length
  | some .ret => True

/-- Every instruction of a program stays within it. -/
def Checked (offsets : List (BitVec 32)) : Prop :=
  program ≠ [] ∧ ∀ pc insn, program[pc]? = some insn → Stays offsets program.length pc insn

variable {load program}

/-- A run from inside a checked program ends in a return instruction of the program. -/
theorem runFrom_of_checked {offsets : List (BitVec 32)} (checked : Checked program offsets)
    (loads : ∀ offset ∈ offsets, ∃ word, load offset = some word) {fuel pc : Nat}
    (inside : pc < program.length) (enough : program.length ≤ fuel + pc)
    (accumulator : BitVec 32) :
    ∃ insn ∈ program, operation insn.code = some .ret ∧
      runFrom load program fuel pc accumulator = some insn.k := by
  -- Every jump goes forward, so the fuel never falls behind what is left of the program.
  induction fuel generalizing pc accumulator with
  | zero => omega
  | succ fuel ih =>
    have here : program[pc]? = some program[pc] := List.getElem?_eq_getElem inside
    have stays := checked.2 pc _ here
    unfold Stays at stays
    unfold runFrom
    rw [here]
    dsimp only
    -- One case for each operation; all but the last go on with less fuel.
    cases known : operation program[pc].code with
    | none => simp [known] at stays
    | some operation =>
      simp only [known] at stays ⊢
      cases operation with
      | load =>
        obtain ⟨word, loaded⟩ := loads _ stays.1
        rw [loaded]
        exact ih stays.2 (by omega) word
      | jump => exact ih stays (by omega) accumulator
      | branch test =>
        dsimp only
        split
        · exact ih stays.1 (by omega) accumulator
        · exact ih stays.2 (by omega) accumulator
      | ret => exact ⟨program[pc], List.getElem_mem inside, known, rfl⟩

/-- A checked program returns one of its constants, whatever the input. -/
theorem run_of_checked {offsets : List (BitVec 32)} (checked : Checked program offsets)
    (loads : ∀ offset ∈ offsets, ∃ word, load offset = some word) :
    ∃ insn ∈ program, operation insn.code = some .ret ∧ run load program = some insn.k :=
  runFrom_of_checked checked loads (List.length_pos_iff.mpr checked.1) (by omega) 0

end Run

instance (offsets : List (BitVec 32)) (length pc : Nat) (insn : SockFilter) :
    Decidable (Stays offsets length pc insn) := by
  unfold Stays
  split <;> infer_instance

/-- A program is checked one instruction at a time. -/
theorem checked_iff {offsets : List (BitVec 32)} {program : List SockFilter} :
    Checked program offsets ↔ program ≠ [] ∧ ∀ pc : Fin program.length,
      Stays offsets program.length pc program[pc] := by
  -- An instruction is found exactly at the places of the program.
  refine and_congr_right fun _ => ⟨fun all pc => all pc _ ?_, fun all pc insn here => ?_⟩
  · exact List.getElem?_eq_getElem pc.isLt
  · obtain ⟨inside, rfl⟩ := List.getElem?_eq_some_iff.mp here
    exact all ⟨pc, inside⟩

instance (offsets : List (BitVec 32)) (program : List SockFilter) :
    Decidable (Checked program offsets) :=
  decidable_of_iff' _ checked_iff

end SysProg.ClassicBpf
