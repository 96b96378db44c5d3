import Interpose.Word

/-!
# Forms of x86-64 instructions

What has to be known of an opcode to find the end of an instruction and to write it again in its
shortest spelling: which prefixes count, what the fields of the addressing byte are, and what
immediate follows. Opcodes without a form are invalid in 64-bit code. Relative branches are not
in these tables.
-/

namespace Interpose.X86

/-- What the operand size prefix and the width bit do. -/
inductive SizeRule where
  | none
  | v
  | default64
  | wide
  | wordOrDword
  deriving DecidableEq, Repr

/-- What a register number in an instruction denotes. -/
inductive RegRule where
  | small
  | full
  /-- A byte register; with an extension byte, four of them change their meaning. -/
  | byte
  deriving DecidableEq, Repr

inductive ModeRule where
  | any
  | memory
  | register
  deriving DecidableEq, Repr

inductive ImmRule where
  | none
  | bytes (count : Nat)
  | z
  | v
  | offset
  deriving DecidableEq, Repr

structure Form where
  size : SizeRule := .none
  hasModRM : Bool := true
  reg : RegRule := .small
  rm : RegRule := .full
  mode : ModeRule := .any
  plus : Option RegRule := .none
  imm : ImmRule := .none
  lockable : Bool := false
  implicitMemory : Bool := false
  mandatory : Option UInt8 := .none
  deriving DecidableEq, Repr

/-- Which of the prefixes that select opcodes is in force. -/
inductive Selector where
  | plain
  | p66
  | pF3
  | pF2
  deriving DecidableEq, Repr

structure ModRM where
  mode : Nat
  reg : Nat
  rm : Nat
  deriving DecidableEq, Repr

namespace ModRM

def ofByte (b : Nat) : ModRM := ⟨b / 64, b / 8 % 8, b % 8⟩

def isMemory (m : ModRM) : Bool := m.mode < 3

def byte (m : ModRM) : Nat := 64 * m.mode + 8 * m.reg + m.rm

end ModRM

def bare (size : SizeRule := .none) : Form := { size, hasModRM := false }

def withImm (imm : ImmRule) (size : SizeRule := .none) : Form := { size, hasModRM := false, imm }

def withReg (reg : RegRule) (size : SizeRule) (imm : ImmRule := .none) : Form :=
  { size, hasModRM := false, plus := some reg, imm }

def string (size : SizeRule) : Form := { size, hasModRM := false, implicitMemory := true }

def byteByte : Form := { reg := .byte, rm := .byte }

def sized : Form := { size := .v, reg := .full }

def groupV (imm : ImmRule := .none) : Form := { size := .v, imm }

def groupB (imm : ImmRule := .none) : Form := { rm := .byte, imm }

def vector (imm : ImmRule := .none) : Form := { reg := .full, imm }

def narrow (imm : ImmRule := .none) : Form := { rm := .small, imm }

def Form.memory (f : Form) : Form := { f with mode := .memory }

def Form.register (f : Form) : Form := { f with mode := .register }

def Form.locked (f : Form) : Form := { f with lockable := true }

def Form.widened (f : Form) : Form := { f with size := .wide }

def Form.behind (f : Form) : Selector → Form
  | .plain => f
  | .p66 => { f with mandatory := some 0x66 }
  | .pF3 => { f with mandatory := some 0xF3 }
  | .pF2 => { f with mandatory := some 0xF2 }

def Form.when (f : Form) (condition : Bool) : Option Form := if condition then some f else none

def select (s : Selector) (plain p66 pF3 pF2 : Option Form) : Option Form :=
  let chosen : Option Form :=
    match s with
    | .plain => plain
    | .p66 => p66
    | .pF3 => pF3
    | .pF2 => pF2
  chosen.map fun f => f.behind s

end Interpose.X86
