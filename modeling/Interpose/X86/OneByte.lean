import Interpose.X86.Form

/-!
# One-byte opcodes

The forms of opcodes without an escape byte, and of the floating point escapes.
-/

namespace Interpose.X86

def arithmeticForm? (op : Nat) : Option Form :=
  let compares := op / 8 == 7
  match op % 8 with
  | 0 => some { byteByte with lockable := !compares }
  | 1 => some { sized with lockable := !compares }
  | 2 => some byteByte
  | 3 => some sized
  | 4 => some (withImm (.bytes 1))
  | 5 => some (withImm .z .v)
  | _ => none

/-- The one-operand opcodes F6 and F7: test, not, neg and the multiplications. -/
def unaryForm (base : Form) (imm : ImmRule) (m : ModRM) : Form :=
  if m.reg ≤ 1 then { base with imm } else { base with lockable := m.reg ≤ 3 }

def indirectForm? (m : ModRM) : Option Form :=
  match m.reg with
  | 0 | 1 => some (groupV.locked)
  | 2 | 4 => some {}
  | 3 | 5 => some (groupV.memory)
  | 6 => some { size := .default64 }
  | _ => none

def floatRegister? (op : Nat) (m : ModRM) : Bool :=
  match op with
  | 0xD8 | 0xDC => true
  | 0xD9 =>
    match m.reg with
    | 2 => m.rm == 0
    | 4 => m.rm == 0 || m.rm == 1 || m.rm == 4 || m.rm == 5
    | 5 => m.rm ≠ 7
    | _ => true
  | 0xDA => m.reg ≤ 3 || (m.reg == 5 && m.rm == 1)
  | 0xDB => m.reg ≠ 7 && (m.reg ≠ 4 || m.rm ≤ 5)
  | 0xDD => m.reg ≤ 5
  | 0xDE => m.reg ≠ 3 || m.rm == 1
  | 0xDF => m.reg ≠ 7 && (m.reg ≠ 4 || m.rm ≤ 2)
  | _ => false

/-- Floating point opcodes with a memory operand; the environment has two layouts. -/
def floatMemory? (op : Nat) (m : ModRM) : Option Form :=
  match op, m.reg with
  | 0xD9, 1 | 0xDB, 4 | 0xDB, 6 | 0xDD, 5 => none
  | 0xD9, 4 | 0xD9, 6 | 0xDD, 4 | 0xDD, 6 => some { size := .wordOrDword }
  | _, _ => some {}

def floatForm? (op : Nat) (m : ModRM) : Option Form :=
  if m.isMemory then floatMemory? op m else Form.when { rm := .small } (floatRegister? op m)

def oneByteForm? (op : Nat) (m : ModRM) : Option Form :=
  if op < 0x40 then arithmeticForm? op
  else if op < 0x60 then some (withReg .full .default64)
  else if 0xB0 ≤ op ∧ op < 0xB8 then some (withReg .byte .none (.bytes 1))
  else if 0xB8 ≤ op ∧ op < 0xC0 then some (withReg .full .v .v)
  else if 0x91 ≤ op ∧ op < 0x98 then some (withReg .full .v)
  else if 0xD8 ≤ op ∧ op < 0xE0 then floatForm? op m
  else match op with
  | 0x63 => some sized
  | 0x68 => some (withImm .z .default64)
  | 0x69 => some { sized with imm := .z }
  | 0x6A => some (withImm (.bytes 1) .default64)
  | 0x6B => some { sized with imm := .bytes 1 }
  | 0x6C | 0x6E => some (string .none)
  | 0x6D | 0x6F => some (string .wordOrDword)
  | 0x80 => some { groupB (.bytes 1) with lockable := m.reg ≠ 7 }
  | 0x81 => some { groupV .z with lockable := m.reg ≠ 7 }
  | 0x83 => some { groupV (.bytes 1) with lockable := m.reg ≠ 7 }
  | 0x84 | 0x88 | 0x8A => some byteByte
  | 0x85 | 0x89 | 0x8B => some sized
  | 0x86 => some byteByte.locked
  | 0x87 => some sized.locked
  | 0x8C => groupV.when (m.reg ≤ 5)
  | 0x8D => some sized.memory
  | 0x8E => groupV.when (m.reg ≤ 5 && m.reg ≠ 1)
  | 0x8F => Form.when { size := .default64 } (m.reg == 0)
  | 0x90 => some (withReg .full .v)
  | 0x98 | 0x99 => some (bare .v)
  | 0x9B | 0x9E | 0x9F => some bare
  | 0x9C | 0x9D => some (bare .default64)
  | 0xA0 | 0xA2 => some { hasModRM := false, imm := .offset, implicitMemory := true }
  | 0xA1 | 0xA3 => some { size := .v, hasModRM := false, imm := .offset, implicitMemory := true }
  | 0xA4 | 0xA6 | 0xAA | 0xAC | 0xAE => some (string .none)
  | 0xA5 | 0xA7 | 0xAB | 0xAD | 0xAF => some (string .v)
  | 0xA8 => some (withImm (.bytes 1))
  | 0xA9 => some (withImm .z .v)
  | 0xC0 => some (groupB (.bytes 1))
  | 0xC1 => some (groupV (.bytes 1))
  | 0xC2 => some (withImm (.bytes 2))
  | 0xC3 => some bare
  | 0xC6 =>
    if m.reg = 0 then some (groupB (.bytes 1))
    else Form.when { imm := .bytes 1, rm := .small } (m == ⟨3, 7, 0⟩)
  | 0xC7 => (groupV .z).when (m.reg == 0)
  | 0xC8 => some (withImm (.bytes 3) .default64)
  | 0xC9 => some (bare .default64)
  | 0xCA => some (withImm (.bytes 2) .v)
  | 0xCB | 0xCF => some (bare .v)
  | 0xCC | 0xF1 | 0xF4 | 0xF5 => some bare
  | 0xCD => some (withImm (.bytes 1))
  | 0xD0 | 0xD2 => some groupB
  | 0xD1 | 0xD3 => some groupV
  | 0xD7 => some (string .none)
  | 0xE4 | 0xE6 => some (withImm (.bytes 1))
  | 0xE5 | 0xE7 => some (withImm (.bytes 1) .wordOrDword)
  | 0xEC | 0xEE => some bare
  | 0xED | 0xEF => some (bare .wordOrDword)
  | 0xF6 => some (unaryForm groupB (.bytes 1) m)
  | 0xF7 => some (unaryForm groupV .z m)
  | 0xF8 | 0xF9 | 0xFA | 0xFB | 0xFC | 0xFD => some bare
  | 0xFE => groupB.locked.when (m.reg ≤ 1)
  | 0xFF => indirectForm? m
  | _ => none

end Interpose.X86
