import Interpose.X86.Form

/-!
# Two- and three-byte opcodes

The forms of opcodes behind the escapes 0F, 0F 38 and 0F 3A. Where the prefixes 66, F3 and F2
select an opcode, they are part of it; elsewhere they keep their own meaning.
-/

namespace Interpose.X86

/-- The four columns of an opcode that moves or combines vectors, given which of them exist. -/
def vectors (s : Selector) (plain p66 pF3 pF2 : Bool) (imm : ImmRule := .none) : Option Form :=
  let f := vector imm
  select s (f.when plain) (f.when p66) (f.when pF3) (f.when pF2)

def narrowOrWide (s : Selector) (imm : ImmRule := .none) : Option Form :=
  select s (some (narrow imm)) (some (vector imm)) none none

def plainOnly (s : Selector) (f : Option Form) : Option Form := select s f none none none

def systemRegister? (s : Selector) (m : ModRM) : Option Form :=
  let rest := bare
  let exact : Option Form := some { rest with hasModRM := true, rm := .small }
  match m.reg, m.rm with
  | 4, _ | 6, _ => some groupV
  | 0, rm => plainOnly s (if rm ≤ 6 then exact else none)
  | 1, 0 => plainOnly s (exact.map fun f => { f with implicitMemory := true })
  | 1, 1 | 1, 2 | 1, 3 | 1, 7 => plainOnly s exact
  | 2, rm => plainOnly s (if rm ≠ 2 ∧ rm ≠ 3 then exact else none)
  | 3, 1 => select s exact none exact exact
  | 3, rm =>
    plainOnly s (exact.map fun f => { f with implicitMemory := rm == 0 || rm == 2 || rm == 3 ||
      rm == 7 })
  | 5, 0 => select s exact none exact exact
  | 5, 1 => select s none none none exact
  | 5, 2 | 5, 4 | 5, 5 => select s none none exact none
  | 5, 6 | 5, 7 => select s exact none exact none
  | 7, 0 | 7, 1 => plainOnly s exact
  | 7, 2 =>
    select s (exact.map fun f => { f with implicitMemory := true }) none exact none
  | 7, 3 | 7, 5 => plainOnly s exact
  | 7, 4 => plainOnly s (exact.map fun f => { f with implicitMemory := true })
  | 7, 6 => select s exact none exact exact
  | 7, 7 => select s exact none exact exact
  | _, _ => none

/-- The group 0F AE: saved state, fences and cache lines. -/
def stateForm? (s : Selector) (m : ModRM) : Option Form :=
  let whole : Option Form := some {}
  let wide : Option Form := some ({} : Form).widened
  if m.isMemory then
    match m.reg with
    | 0 | 1 | 5 => plainOnly s wide
    | 2 | 3 => plainOnly s whole
    | 4 => select s wide none wide none
    | 6 => select s wide whole whole none
    | _ => select s whole whole none none
  else
    match m.reg with
    | 0 | 1 | 2 | 3 => select s none none wide none
    | 4 => select s none none wide none
    | 5 => select s (some { rm := .small }) none wide none
    | 6 =>
      select s (some { rm := .small }) wide (some { implicitMemory := true }) wide
    | _ => plainOnly s (some { rm := .small })

def exchangeForm? (s : Selector) (m : ModRM) : Option Form :=
  let wide : Form := ({} : Form).widened
  if m.isMemory then
    match m.reg with
    | 1 => some wide.locked
    | 3 | 4 | 5 => plainOnly s (some wide)
    | 6 => select s (some {}) (some {}) (some {}) none
    | 7 => plainOnly s (some {})
    | _ => none
  else
    match m.reg, s with
    | 6, .pF3 => select s none none (some {}) none
    | 7, .pF3 => select s none none (some {}) none
    | 6, _ | 7, _ => some groupV
    | _, _ => none

/-- The shifts by an immediate in 0F 71 to 0F 73; two of them move whole wide registers. -/
def shiftForm? (op : Nat) (s : Selector) (m : ModRM) : Option Form :=
  let narrow : Form := { rm := .small, mode := .register, imm := .bytes 1 }
  let wide : Form := { mode := .register, imm := .bytes 1 }
  let both := m.reg == 2 || m.reg == 6 || (m.reg == 4 && op ≠ 0x73)
  let wideOnly := op == 0x73 && (m.reg == 3 || m.reg == 7)
  select s (narrow.when both) (wide.when (both || wideOnly)) none none

def hintForm? (s : Selector) (m : ModRM) : Option Form :=
  if s = .pF3 ∧ ¬ m.isMemory ∧ m.reg = 7 ∧ (m.rm = 2 ∨ m.rm = 3) then
    select s none none (some { rm := .small }) none
  else if s = .pF3 ∧ ¬ m.isMemory ∧ m.reg = 1 then select s none none (some { size := .wide }) none
  else some sized

def controlForm? (debug : Bool) (number : Nat) : Option Form :=
  Form.when { reg := .full, mode := .register }
    (if debug then number ≤ 7
      else number == 0 || number == 2 || number == 3 || number == 4 || number == 8)

/-- Opcodes 0F 1A and 0F 1B: bounds, whose registers are few. -/
def boundsForm? (op : Nat) (s : Selector) (m : ModRM) : Option Form :=
  match s with
  | .plain => if m.isMemory then some { hasModRM := true } else some sized
  | .p66 => select s none (some { rm := .small }) none none
  | .pF3 => select s none none (Form.when {} (op == 0x1A || m.isMemory)) none
  | .pF2 => select s none none none (some {})

def moveForm? (op : Nat) (s : Selector) (m : ModRM) : Option Form :=
  let mem := m.isMemory
  match op with
  | 0x10 | 0x11 => vectors s true true true true
  | 0x12 => vectors s true mem true true
  | 0x16 => vectors s true mem true false
  | 0x13 | 0x17 => vectors s mem mem false false
  | _ => vectors s true true false false

def computeForm? (op : Nat) (s : Selector) (m : ModRM) : Option Form :=
  let wideGpr : Option Form := some vector.widened
  if op = 0x50 then
    let f := vector.widened.register
    select s (some f) (some f) none none
  else if op = 0x51 ∨ op = 0x58 ∨ op = 0x59 ∨ op = 0x5A ∨ 0x5C ≤ op ∧ op ≤ 0x5F then
    vectors s true true true true
  else if op = 0x52 ∨ op = 0x53 then vectors s true false true false
  else if op < 0x58 then vectors s true true false false
  else if op = 0x5B then vectors s true true true false
  else if op < 0x6C ∨ 0x74 ≤ op ∧ op ≤ 0x76 then narrowOrWide s
  else match op with
  | 0x6C | 0x6D => vectors s false true false false
  | 0x6E => select s (some { reg := .small, size := .wide }) wideGpr none none
  | 0x6F | 0x7F => select s (some narrow) (some vector) (some vector) none
  | 0x70 =>
    let f := vector (.bytes 1)
    select s (some (narrow (.bytes 1))) (some f) (some f) (some f)
  | 0x77 => plainOnly s (some bare)
  | 0x78 =>
    select s (some vector) (Form.when { mode := .register, imm := .bytes 2 } (m.reg == 0)) none
      (some { reg := .full, mode := .register, imm := .bytes 2 })
  | 0x79 => select s (some vector) (some vector.register) none (some vector.register)
  | 0x7C | 0x7D => vectors s false true false true
  | 0x7E => select s (some { reg := .small, size := .wide }) wideGpr (some vector) none
  | _ => none

def insertForm? (op : Nat) (s : Selector) : Option Form :=
  match op with
  | 0xC2 =>
    let f := vector (.bytes 1)
    select s (some f) (some f) (some f) (some f)
  | 0xC3 => plainOnly s (some vector.widened.memory)
  | 0xC4 =>
    select s (some { size := .wide, imm := .bytes 1 }) (some (vector (.bytes 1)).widened) none none
  | 0xC5 =>
    select s (some { reg := .full, rm := .small, mode := .register, size := .wide, imm := .bytes 1 })
      (some (vector (.bytes 1)).widened.register) none none
  | _ => vectors s true true false false (.bytes 1)

def integerForm? (op : Nat) (s : Selector) : Option Form :=
  match op with
  | 0xD0 => vectors s false true false true
  | 0xD6 =>
    select s none (some vector) (some { reg := .full, rm := .small, mode := .register })
      (some { reg := .small, mode := .register })
  | 0xD7 =>
    select s (some { reg := .full, rm := .small, mode := .register, size := .wide })
      (some vector.widened.register) none none
  | 0xE6 => vectors s false true true true
  | 0xE7 => select s (some narrow.memory) (some vector.memory) none none
  | 0xF0 => select s none none none (some vector.memory)
  | 0xF7 =>
    select s (some { rm := .small, mode := .register, implicitMemory := true })
      (some { reg := .full, mode := .register, implicitMemory := true }) none none
  | _ => narrowOrWide s

def countForm? (plain : Option Form) (s : Selector) : Option Form :=
  if s = .pF3 then select s none none (some sized) none else plain

/-- The form of an opcode behind 0F; `extended` tells whether the register field is extended. -/
def twoByteForm? (op : Nat) (s : Selector) (m : ModRM) (extended : Bool) : Option Form :=
  if 0x40 ≤ op ∧ op < 0x50 then some sized
  else if 0x71 ≤ op ∧ op ≤ 0x73 then shiftForm? op s m
  else if 0x50 ≤ op ∧ op < 0x80 then computeForm? op s m
  else if 0x90 ≤ op ∧ op < 0xA0 then some groupB
  else if 0xC8 ≤ op ∧ op < 0xD0 then some (withReg .full .v)
  else if 0xD0 ≤ op ∧ op < 0xFF then integerForm? op s
  else if 0x10 ≤ op ∧ op < 0x18 then moveForm? op s m
  else match op with
  | 0x00 => groupV.when (m.reg ≤ 5)
  | 0x01 =>
    if m.isMemory then
      match m.reg with
      | 4 | 6 => some groupV
      | 5 => select s none none (some {}) none
      | _ => some {}
    else systemRegister? s m
  | 0x02 | 0x03 => some sized
  | 0x05 | 0x06 | 0x08 | 0x09 | 0x0B | 0x0E => some bare
  | 0x07 => some (bare .wide)
  | 0x0D => if m.isMemory then some {} else some sized
  | 0x0F => some (narrow (.bytes 1))
  | 0x18 => if m.isMemory ∧ m.reg ≤ 3 then some {} else some sized
  | 0x19 | 0x1D => some sized
  | 0x1A | 0x1B => boundsForm? op s m
  | 0x1C => if s = .plain ∧ m.isMemory ∧ m.reg = 0 then some {} else some sized
  | 0x1E => hintForm? s m
  | 0x1F => if m.reg = 0 then some groupV else some sized
  | 0x20 | 0x22 => controlForm? false (m.reg + if extended then 8 else 0)
  | 0x21 | 0x23 => controlForm? true (m.reg + if extended then 8 else 0)
  | 0x28 | 0x29 | 0x2E | 0x2F => vectors s true true false false
  | 0x2A =>
    let f : Form := { reg := .full, rm := .small }
    select s (some f) (some f) (some vector.widened) (some vector.widened)
  | 0x2B => vectors s m.isMemory m.isMemory m.isMemory m.isMemory
  | 0x2C | 0x2D =>
    let f : Form := { reg := .small, rm := .full }
    select s (some f) (some f) (some vector.widened) (some vector.widened)
  | 0x30 | 0x31 | 0x32 | 0x33 | 0x34 | 0x37 => some bare
  | 0x35 => some (bare .wide)
  | 0xA0 | 0xA1 | 0xA8 | 0xA9 => some (bare .default64)
  | 0xA2 | 0xAA => some bare
  | 0xA3 | 0xA5 | 0xAD | 0xAF => some sized
  | 0xA4 | 0xAC => some { sized with imm := .bytes 1 }
  | 0xAB | 0xB1 | 0xB3 | 0xBB | 0xC1 => some sized.locked
  | 0xAE => stateForm? s m
  | 0xB0 | 0xC0 => some byteByte.locked
  | 0xB2 | 0xB4 | 0xB5 => some sized.memory
  | 0xB6 | 0xBE => some { sized with rm := .byte }
  | 0xB7 | 0xB9 | 0xBF | 0xFF => some sized
  | 0xB8 => countForm? none s
  | 0xBA =>
    if m.reg < 4 then none else some { groupV (.bytes 1) with lockable := m.reg ≠ 4 }
  | 0xBC | 0xBD => countForm? (some sized) s
  | 0xC2 | 0xC3 | 0xC4 | 0xC5 | 0xC6 => insertForm? op s
  | 0xC7 => exchangeForm? s m
  | _ => none

def form38? (op : Nat) (s : Selector) (m : ModRM) : Option Form :=
  let only66 := vectors s false true false false
  if op ≤ 0x0B ∨ 0x1C ≤ op ∧ op ≤ 0x1E then narrowOrWide s
  else if op = 0x2A then vectors s false m.isMemory false false
  else if op = 0x10 ∨ op = 0x14 ∨ op = 0x15 ∨ op = 0x17 ∨ 0x20 ≤ op ∧ op ≤ 0x25 ∨
      0x28 ≤ op ∧ op ≤ 0x2B ∨ 0x30 ≤ op ∧ op ≤ 0x35 ∨ 0x37 ≤ op ∧ op ≤ 0x41 ∨ op = 0xCF ∨
      op = 0xDB then only66
  else if 0x80 ≤ op ∧ op ≤ 0x82 then vectors s false m.isMemory false false
  else if 0xC8 ≤ op ∧ op ≤ 0xCD then vectors s true false false false
  else match op with
  | 0xDC => vectors s false true true false
  | 0xDD | 0xDE | 0xDF => vectors s false true m.isMemory false
  | 0xD8 => select s none none (Form.when {} (m.isMemory && m.reg ≤ 3)) none
  | 0xF0 =>
    if s = .pF2 then select s none none none (some { reg := .full, rm := .byte, size := .wide })
    else if s = .pF3 then none else some sized.memory
  | 0xF1 =>
    if s = .pF2 then select s none none none (some sized)
    else if s = .pF3 then none else some sized.memory
  | 0xF5 => select s none (some vector.widened.memory) none none
  | 0xF6 =>
    select s (some vector.widened.memory) (some vector.widened) (some vector.widened) none
  | 0xF8 => vectors s false m.isMemory m.isMemory m.isMemory
  | 0xF9 => plainOnly s (some vector.widened.memory)
  | 0xFC =>
    let f : Option Form := some vector.widened.memory
    select s f f f f
  | 0xFA | 0xFB => select s none none (some vector.register) none
  | _ => none

def form3A? (op : Nat) (s : Selector) (m : ModRM) : Option Form :=
  let f := vector (.bytes 1)
  if op = 0x0F then narrowOrWide s (.bytes 1)
  else if op = 0xCC then plainOnly s (some f)
  else if op = 0xF0 then
    select s none none (Form.when { imm := .bytes 1, rm := .small } (m == ⟨3, 0, 0⟩)) none
  else if 0x14 ≤ op ∧ op ≤ 0x17 ∨ op = 0x20 ∨ op = 0x22 ∨ op = 0x60 ∨ op = 0x61 then
    select s none (some f.widened) none none
  else if 0x08 ≤ op ∧ op ≤ 0x0E ∨ op = 0x21 ∨ 0x40 ≤ op ∧ op ≤ 0x42 ∨ op = 0x44 ∨ op = 0x62 ∨
      op = 0x63 ∨ op = 0xCE ∨ op = 0xCF ∨ op = 0xDF then
    select s none (some f) none none
  else none

def isPackedFloat (suffix : UInt8) : Bool :=
  [0x0C, 0x0D, 0x1C, 0x1D, 0x86, 0x87, 0x8A, 0x8E, 0x90, 0x94, 0x96, 0x97, 0x9A, 0x9E, 0xA0, 0xA4,
    0xA6, 0xA7, 0xAA, 0xAE, 0xB0, 0xB4, 0xB6, 0xB7, 0xBB, 0xBF].contains suffix

end Interpose.X86
