import Interpose.X86.Form

/-!
# Vector-extended opcodes

The forms of opcodes behind the C4 and C5 leads. Besides the fields of a legacy form they fix
whether the lead names a further register, and what its length and width bits may be.
-/

namespace Interpose.X86

inductive BitRule where
  | ignored
  | counts
  | zero
  | one
  deriving DecidableEq, Repr

structure VexForm where
  hasModRM : Bool := true
  mode : ModeRule := .any
  regInOpcode : Bool := false
  /-- The lead names a register of its own. -/
  named : Bool := false
  /-- The register field and the register of the lead are among eight masks. -/
  masks : Bool := false
  maskOperand : Bool := false
  length : BitRule := .counts
  width : BitRule := .ignored
  imm : Nat := 0
  vectorIndex : Bool := false
  implicitMemory : Bool := false
  deriving DecidableEq, Repr

namespace VexForm

def two : VexForm := {}

def three : VexForm := { named := true }

def memory (f : VexForm) : VexForm := { f with mode := .memory }

def register (f : VexForm) : VexForm := { f with mode := .register }

def short (f : VexForm) : VexForm := { f with length := .zero }

def long (f : VexForm) : VexForm := { f with length := .one }

def scalar (f : VexForm) : VexForm := { f with length := .ignored }

def narrowOnly (f : VexForm) : VexForm := { f with width := .zero }

def wideOnly (f : VexForm) : VexForm := { f with width := .one }

def eitherWidth (f : VexForm) : VexForm := { f with width := .counts }

def withImm (f : VexForm) : VexForm := { f with imm := 1 }

def onMasks (f : VexForm) : VexForm := { f with masks := true, maskOperand := true }

def onlyIf (f : VexForm) (condition : Bool) : Option VexForm := if condition then some f else none

end VexForm

open VexForm

def maskForm? (op pp : Nat) (m : ModRM) : Option VexForm :=
  let packed := pp ≤ 1
  match op with
  | 0x41 | 0x42 | 0x45 | 0x46 | 0x47 | 0x4A => three.long.eitherWidth.register.onMasks.onlyIf packed
  | 0x4B =>
    let f := three.long.register.onMasks
    if pp = 1 then some f.narrowOnly else f.eitherWidth.onlyIf packed
  | 0x44 | 0x98 | 0x99 => two.short.eitherWidth.register.onMasks.onlyIf packed
  | 0x90 => two.short.eitherWidth.onMasks.onlyIf packed
  | 0x91 => two.short.eitherWidth.memory.onMasks.onlyIf packed
  | 0x92 | 0x93 =>
    let f := if pp = 3 then two.short.eitherWidth.register else two.short.narrowOnly.register
    { f with masks := op == 0x92, maskOperand := op == 0x93 }.onlyIf
      (pp == 3 || (packed && !m.isMemory))
  | _ => none

def scalarForm? (op : Nat) (double : Bool) (m : ModRM) : Option VexForm :=
  match op with
  | 0x10 | 0x11 => if m.isMemory then some two.scalar else some three.scalar
  | 0x12 => some two
  | 0x16 => two.onlyIf !double
  | 0x2A => some three.scalar.eitherWidth
  | 0x2C | 0x2D => some two.scalar.eitherWidth
  | 0x51 | 0x58 | 0x59 | 0x5A | 0x5C | 0x5D | 0x5E | 0x5F => some three.scalar
  | 0x52 | 0x53 => three.scalar.onlyIf !double
  | 0x5B | 0x6F | 0x7F => two.onlyIf !double
  | 0x70 => some two.withImm
  | 0x7C | 0x7D | 0xD0 => three.onlyIf double
  | 0x7E => two.short.onlyIf !double
  | 0xC2 => some three.scalar.withImm
  | 0xE6 => some two
  | 0xF0 => two.memory.onlyIf double
  | _ => none

def packedForm? (op : Nat) (is66 : Bool) (m : ModRM) : Option VexForm :=
  match op with
  | 0x10 | 0x11 | 0x28 | 0x29 | 0x51 | 0x5A | 0x5B => some two
  | 0x12 | 0x16 => three.short.onlyIf (!is66 || m.isMemory)
  | 0x13 | 0x17 => some two.short.memory
  | 0x14 | 0x15 | 0x54 | 0x55 | 0x56 | 0x57 | 0x58 | 0x59 | 0x5C | 0x5D | 0x5E | 0x5F => some three
  | 0x2B => some two.memory
  | 0x2E | 0x2F => some two.scalar
  | 0x50 => some two.eitherWidth.register
  | 0x52 | 0x53 => two.onlyIf !is66
  | 0x77 => { two with hasModRM := false }.onlyIf !is66
  | 0xAE => { two.short.memory with regInOpcode := true }.onlyIf (!is66 && (m.reg == 2 || m.reg == 3))
  | 0xC2 | 0xC6 => some three.withImm
  | _ => none

def integerVexForm? (op : Nat) (m : ModRM) : Option VexForm :=
  let shift : VexForm := { named := true, mode := .register, regInOpcode := true, imm := 1 }
  if 0x60 ≤ op ∧ op ≤ 0x6D ∨ 0x74 ≤ op ∧ op ≤ 0x76 then some three
  else match op with
  | 0x6E | 0x7E => some two.short.eitherWidth
  | 0x6F | 0x7F => some two
  | 0x70 => some two.withImm
  | 0x71 | 0x72 => shift.onlyIf (m.reg == 2 || m.reg == 4 || m.reg == 6)
  | 0x73 => shift.onlyIf (m.reg == 2 || m.reg == 3 || m.reg == 6 || m.reg == 7)
  | 0x7C | 0x7D => some three
  | 0xC4 => some three.short.eitherWidth.withImm
  | 0xC5 => some two.short.eitherWidth.withImm.register
  | 0xD6 => some two.short
  | 0xD7 => some two.eitherWidth.register
  | 0xE6 => some two
  | 0xE7 => some two.memory
  | 0xF0 | 0xFF => none
  | 0xF7 => some { two.short.register with implicitMemory := true }
  | op => three.onlyIf (0xD0 ≤ op)

def secondMapForm? (op : Nat) (m : ModRM) : Option VexForm :=
  if op ≤ 0x0B ∨ 0x37 ≤ op ∧ op ≤ 0x40 ∨ 0xDC ≤ op ∧ op ≤ 0xDF then some three
  else if 0x1C ≤ op ∧ op ≤ 0x1E ∨ 0x20 ≤ op ∧ op ≤ 0x25 ∨ 0x30 ≤ op ∧ op ≤ 0x35 then some two
  else if 0x96 ≤ op ∧ op ≤ 0xBF ∧ 6 ≤ op % 16 then
    if op % 16 = 9 ∨ op % 16 = 11 ∨ op % 16 = 13 ∨ op % 16 = 15 then some three.scalar.eitherWidth
    else some three.eitherWidth
  else match op with
  | 0x0C | 0x0D => some three.narrowOnly
  | 0x0E | 0x0F | 0x13 | 0x18 | 0x58 | 0x59 | 0x78 | 0x79 => some two.narrowOnly
  | 0x16 | 0x36 => some three.long.narrowOnly
  | 0x17 => some two
  | 0x19 => some two.long.narrowOnly
  | 0x1A | 0x5A => some two.long.narrowOnly.memory
  | 0x28 | 0x29 | 0x2B => some three
  | 0x2A => some two.memory
  | 0x2C | 0x2D | 0x2E | 0x2F => some three.narrowOnly.memory
  | 0x41 | 0xDB => some two.short
  | 0x45 | 0x47 => some three.eitherWidth
  | 0x46 | 0x50 | 0x51 | 0x52 | 0x53 | 0xCF => some three.narrowOnly
  | 0x8C | 0x8E => some three.eitherWidth.memory
  | 0x90 | 0x91 | 0x92 | 0x93 =>
    { three.eitherWidth.memory with vectorIndex := true }.onlyIf (m.rm == 4)
  | 0xF7 => some three.short.eitherWidth
  | _ => none

def bitForm? (op pp : Nat) (m : ModRM) : Option VexForm :=
  let f := three.short.eitherWidth
  match op with
  | 0xF2 => f.onlyIf (pp == 0)
  | 0xF3 => { f with regInOpcode := true }.onlyIf (pp == 0 && 1 ≤ m.reg && m.reg ≤ 3)
  | 0xF5 => some f
  | 0xF6 => f.onlyIf (pp == 3)
  | 0xF7 => some f
  | _ => none

/-- Opcodes of the second map whose variants are chosen by the prefix: sums of products, half
precision loads and hashes. -/
def variantForm? (op pp : Nat) : Option VexForm :=
  match op with
  | 0x50 | 0x51 => three.narrowOnly.onlyIf (pp ≠ 1)
  | 0xD2 | 0xD3 => three.narrowOnly.onlyIf (pp ≠ 3)
  | 0x72 => two.narrowOnly.onlyIf (pp == 2)
  | 0xB0 => some two.narrowOnly.memory
  | 0xB1 => two.narrowOnly.memory.onlyIf (pp == 1 || pp == 2)
  | 0xB4 | 0xB5 => three.wideOnly.onlyIf (pp == 1)
  | 0xCB => three.long.narrowOnly.register.onlyIf (pp == 3)
  | 0xCC | 0xCD => two.long.narrowOnly.register.onlyIf (pp == 3)
  | 0xDA => if pp ≤ 1 then some three.short.narrowOnly else some three.narrowOnly
  | op => three.short.eitherWidth.memory.onlyIf (op / 16 == 14 && pp == 1)

def thirdMapForm? (op : Nat) : Option VexForm :=
  let form : Option VexForm :=
    if 0x08 ≤ op ∧ op ≤ 0x09 ∨ op = 0xDF then some two
    else if 0x0A ≤ op ∧ op ≤ 0x0B then some three.scalar
    else if 0x0C ≤ op ∧ op ≤ 0x0F ∨ 0x40 ≤ op ∧ op ≤ 0x42 ∨ op = 0x44 then
      if op = 0x41 then some three.short else some three
    else if 0x5C ≤ op ∧ op ≤ 0x5F ∨ 0x68 ≤ op ∧ op ≤ 0x6F ∨ 0x78 ≤ op ∧ op ≤ 0x7F then
      if op % 4 < 2 ∨ op < 0x60 then some three.eitherWidth else some three.scalar.eitherWidth
    else match op with
    | 0x00 | 0x01 => some two.long.wideOnly
    | 0x02 => some three.narrowOnly
    | 0x04 | 0x05 | 0x1D => some two.narrowOnly
    | 0x06 | 0x18 | 0x38 | 0x46 => some three.long.narrowOnly
    | 0x14 | 0x15 | 0x16 | 0x17 => some two.short.eitherWidth
    | 0x19 | 0x39 => some two.long.narrowOnly
    | 0x20 | 0x22 => some three.short.eitherWidth
    | 0x21 => some three.short
    | 0x30 | 0x31 | 0x32 | 0x33 => some two.short.eitherWidth.register.onMasks
    | 0x48 | 0x49 => some three.eitherWidth
    | 0x4A | 0x4B | 0x4C => some three.narrowOnly
    | 0x60 | 0x61 => some two.short.eitherWidth
    | 0x62 | 0x63 => some two.short
    | 0xCE | 0xCF => some three.wideOnly
    | 0xDE => some three.short.narrowOnly
    | _ => none
  form.map VexForm.withImm

/-- The form of an opcode by its map and selecting prefix (0 none, 1 66, 2 F3, 3 F2). -/
def vexForm? (map pp op : Nat) (m : ModRM) : Option VexForm :=
  match map, pp with
  | 1, 0 => packedForm? op false m <|> maskForm? op pp m
  | 1, 1 => packedForm? op true m <|> integerVexForm? op m <|> maskForm? op pp m
  | 1, 2 => scalarForm? op false m
  | 1, 3 => scalarForm? op true m <|> maskForm? op pp m
  | 2, 1 => secondMapForm? op m <|> variantForm? op pp
  | 2, pp => bitForm? op pp m <|> variantForm? op pp
  | 3, 1 => thirdMapForm? op
  | 3, 3 => two.short.eitherWidth.withImm.onlyIf (op == 0xF0)
  | _, _ => none

end Interpose.X86
