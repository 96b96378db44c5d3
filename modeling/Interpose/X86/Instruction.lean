import Interpose.X86.OneByte
import Interpose.X86.TwoByte
import Interpose.X86.Vex

/-!
# Movable instructions

`Instruction.decode` takes one instruction off the front of some code and gives it as what is
needed to write it at another place: its shortest bytes, or the parts around an operand that
depends on the place. Prefixes without effect are dropped on the way.
-/

namespace Interpose.X86

inductive Branch where
  | jump
  | conditional (condition : Nat)
  | call
  | counted (opcode : UInt8)
  | transaction
  deriving DecidableEq, Repr

inductive Instruction where
  | fixed (bytes : Bytes)
  /-- An operand at a displacement from the next instruction. `lead` goes in front of the
  displacement, `lead32` when the address is cut to 32 bits, `tail` behind it. -/
  | relative (lead lead32 tail : Bytes) (target : Address)
  | branch (kind : Branch) (lead : Bytes) (target : Address)
  deriving DecidableEq, Repr

def maxInstructionLength : Nat := 15

structure Prefixes where
  segment : Option UInt8 := none
  lock : Bool := false
  operand16 : Bool := false
  address32 : Bool := false
  rep : Option UInt8 := none
  /-- The low half of the extension byte in front of the opcode. -/
  rex : Option Nat := none
  deriving DecidableEq, Repr

namespace Prefixes

/-- The prefixes with one more; only the last byte before the opcode extends it. The two segments
with a base of their own are not displaced by the others. -/
def add? (p : Prefixes) (b : UInt8) : Option Prefixes :=
  let p' := { p with rex := none }
  if b = 0x26 ∨ b = 0x2E ∨ b = 0x36 ∨ b = 0x3E then
    some (if p.segment = some 0x64 ∨ p.segment = some 0x65 then p' else { p' with segment := some b })
  else if b = 0x64 ∨ b = 0x65 then some { p' with segment := some b }
  else if b = 0x66 then some { p' with operand16 := true }
  else if b = 0x67 then some { p' with address32 := true }
  else if b = 0xF0 then some { p' with lock := true }
  else if b = 0xF2 ∨ b = 0xF3 then some { p' with rep := some b }
  else if b.toNat / 16 = 4 then some { p with rex := some (b.toNat % 16) }
  else none

def read (p : Prefixes) : Bytes → Prefixes × Bytes
  | [] => (p, [])
  | b :: rest =>
    match p.add? b with
    | some p => p.read rest
    | none => (p, b :: rest)

variable (p : Prefixes)

def rexBit (weight : Nat) : Bool := p.rex.any fun bits => bits / weight % 2 == 1

def wide : Bool := p.rexBit 8

def halved : Bool := p.operand16 && !p.wide

def selector : Selector :=
  if p.rep = some 0xF3 then .pF3
  else if p.rep = some 0xF2 then .pF2
  else if p.operand16 then .p66
  else .plain

def bytes (lock size16 address32 : Bool) (rep : Option UInt8) : Bytes :=
  p.segment.toList ++ (if lock then [0xF0] else []) ++ (if size16 then [0x66] else []) ++
    (if address32 then [0x67] else []) ++ rep.toList

end Prefixes

def takeBytes? (n : Nat) (code : Bytes) : Option (Bytes × Bytes) :=
  if n ≤ code.length then some (code.take n, code.drop n) else none

/-- The operand that the addressing byte describes. -/
structure Operand where
  isMemory : Bool
  bytes : Bytes
  base : Bool := false
  index : Bool := false
  relative : Option Int := none
  deriving DecidableEq, Repr

namespace Operand

def displacementSize (mode : Nat) : Nat :=
  match mode with
  | 1 => 1
  | 2 => 4
  | _ => 0

/-- A memory operand with a scale byte. An index that is not there needs the byte only for the
sake of the base or the scale. -/
def readScaled (m : ModRM) (baseBit indexBit : Bool) : Bytes → Option (Operand × Bytes)
  | [] => none
  | sib :: code => do
    let scale := sib.toNat / 64
    let index := sib.toNat / 8 % 8
    let base := sib.toNat % 8
    let hasBase := base ≠ 5 || m.mode ≠ 0
    let hasIndex := index ≠ 4 || indexBit
    let size := if hasBase then displacementSize m.mode else 4
    let (displacement, code) ← takeBytes? size code
    let short := hasBase && !hasIndex && base ≠ 4 && scale == 0
    let head : Bytes :=
      if short then [UInt8.ofNat ({ m with rm := base } : ModRM).byte]
      else [UInt8.ofNat m.byte, sib]
    pure ({ isMemory := true, bytes := head ++ displacement, base := hasBase && baseBit
            index := hasIndex && indexBit }, code)

def read (m : ModRM) (baseBit indexBit : Bool) (code : Bytes) : Option (Operand × Bytes) :=
  let byte := UInt8.ofNat m.byte
  if m.mode = 3 then some ({ isMemory := false, bytes := [byte], base := baseBit }, code)
  else if m.rm = 4 then readScaled m baseBit indexBit code
  else if m.mode = 0 ∧ m.rm = 5 then do
    let (displacement, code) ← takeBytes? 4 code
    pure ({ isMemory := true, bytes := [byte], relative := some (signed32 (leNat displacement)) },
      code)
  else do
    let (displacement, code) ← takeBytes? (displacementSize m.mode) code
    pure ({ isMemory := true, bytes := byte :: displacement, base := baseBit }, code)

end Operand

structure Parts where
  operand : Operand
  /-- The bytes in front of the operand, by whether addresses have 32 bits. -/
  lead : Bool → Bytes
  imm : Bytes

def Parts.instruction (p : Parts) (address32 : Bool) (next : Address) : Instruction :=
  match p.operand.relative with
  | none => .fixed (p.lead address32 ++ p.operand.bytes ++ p.imm)
  | some displacement =>
    let target := next.shift displacement
    .relative (p.lead false ++ p.operand.bytes) (p.lead true ++ p.operand.bytes) p.imm
      (if address32 then UInt64.ofNat (target.toNat % 4294967296) else target)

namespace ImmRule

def length (p : Prefixes) : ImmRule → Nat
  | none => 0
  | bytes count => count
  | z => if p.halved then 2 else 4
  | v => if p.wide then 8 else if p.halved then 2 else 4
  | offset => if p.address32 then 4 else 8

end ImmRule

namespace SizeRule

def keepsWide : SizeRule → Bool
  | v | wide => true
  | _ => false

def keeps16 : SizeRule → Bool
  | v | default64 | wordOrDword => true
  | _ => false

end SizeRule

def rexByte (w r x b forced : Bool) : Bytes :=
  let weight (bit : Bool) (n : Nat) : Nat := if bit then n else 0
  let bits := weight w 8 + weight r 4 + weight x 2 + weight b 1
  if forced || bits ≠ 0 then [UInt8.ofNat (0x40 + bits)] else []

def needsRex (rule : RegRule) (number : Nat) : Bool := rule == .byte && 4 ≤ number

def legacyParts? (p : Prefixes) (form : Form) (opcode : Bytes) (code : Bytes) :
    Option (Parts × Bytes) := do
  let last := (opcode.getLastD 0).toNat
  let (m, operand, code) ←
    if form.hasModRM then
      match code with
      | [] => none
      | b :: code => do
        let m := ModRM.ofByte b.toNat
        let (operand, code) ← Operand.read m (p.rexBit 1) (p.rexBit 2) code
        some (some m, operand, code)
    else some (none, ({ isMemory := false, bytes := [] } : Operand), code)
  guard (form.mode ≠ .memory || operand.isMemory)
  guard (form.mode ≠ .register || !operand.isMemory)
  guard (!p.lock || (form.lockable && operand.isMemory))
  let (imm, code) ← takeBytes? (form.imm.length p) code
  let registers := (m.map fun m => (form.reg, m.reg)).toList ++
    (m.map fun m => (if operand.isMemory then .small else form.rm, m.rm)).toList ++
    (form.plus.map fun rule => (rule, last % 8)).toList
  let forced := p.rex.isSome && registers.any fun (rule, number) => needsRex rule number
  let r := m.isSome && form.reg ≠ .small && p.rexBit 4
  let b :=
    if form.plus.isSome then p.rexBit 1
    else operand.base && (operand.isMemory || form.rm ≠ .small)
  let rex := rexByte (form.size.keepsWide && p.wide) r operand.index b forced
  let rep := if form.mandatory.isSome then none else p.rep
  let addressed := operand.isMemory || form.implicitMemory
  let lead (address32 : Bool) : Bytes :=
    p.bytes p.lock (form.size.keeps16 && p.halved) (address32 && addressed) rep ++
      form.mandatory.toList ++ rex ++ opcode
  pure ({ operand, lead, imm }, code)

def branchAt? (p : Prefixes) (kind : Branch) (n : Nat) (address : Address) (start : Nat)
    (code : Bytes) : Option (Instruction × Nat) := do
  guard !p.lock
  let (displacement, rest) ← takeBytes? n code
  let length := start - rest.length
  let value := Int.bmod (leNat displacement) (1 <<< (8 * n))
  let address32 := match kind with
    | .counted _ => p.address32
    | _ => false
  pure (.branch kind (p.bytes false false address32 p.rep)
    ((address + UInt64.ofNat length).shift value), length)

def peekModRM (code : Bytes) : ModRM := ModRM.ofByte (code.headD 0).toNat

def legacyAt? (p : Prefixes) (form : Form) (opcode : Bytes) (address : Address) (start : Nat)
    (code : Bytes) : Option (Instruction × Nat) := do
  let (parts, rest) ← legacyParts? p form opcode code
  let length := start - rest.length
  pure (parts.instruction p.address32 (address + UInt64.ofNat length), length)

structure VexLead where
  r : Bool
  x : Bool
  b : Bool
  map : Nat
  wide : Bool
  named : Nat
  long : Bool
  pp : Nat
  deriving DecidableEq, Repr

namespace VexLead

def read (short : Bool) (code : Bytes) : Option (VexLead × Bytes) :=
  let bit (b : UInt8) (weight : Nat) : Bool := b.toNat / weight % 2 == 1
  let build (r x b : Bool) (map : Nat) (wide : Bool) (last : UInt8) : VexLead :=
    { r, x, b, map, wide, named := 15 - last.toNat / 8 % 16, long := bit last 4,
      pp := last.toNat % 4 }
  match short, code with
  | true, last :: code => some (build (!bit last 128) false false 1 false last, code)
  | false, first :: last :: code =>
    some (build (!bit first 128) (!bit first 64) (!bit first 32) (first.toNat % 32) (bit last 128)
      last, code)
  | _, _ => none

def bytes (v : VexLead) : Bytes :=
  let weight (bit : Bool) (n : Nat) : Nat := if bit then n else 0
  let last := 8 * (15 - v.named) + weight v.long 4 + v.pp
  if v.x || v.b || v.wide || v.map ≠ 1 then
    [0xC4, UInt8.ofNat (weight (!v.r) 128 + weight (!v.x) 64 + weight (!v.b) 32 + v.map),
      UInt8.ofNat (weight v.wide 128 + last)]
  else [0xC5, UInt8.ofNat (weight (!v.r) 128 + last)]

end VexLead

namespace BitRule

def allows : BitRule → Bool → Bool
  | zero, bit => !bit
  | one, bit => bit
  | _, _ => true

def keeps (rule : BitRule) (bit : Bool) : Bool := rule ≠ .ignored && bit

end BitRule

def vexAt? (p : Prefixes) (short : Bool) (address : Address) (start : Nat) (code : Bytes) :
    Option (Instruction × Nat) := do
  guard (!p.lock && p.rex.isNone && p.selector == .plain)
  let (v, code) ← VexLead.read short code
  match code with
  | [] => none
  | op :: code => do
    let form ← vexForm? v.map v.pp op.toNat (peekModRM code)
    guard (form.length.allows v.long && form.width.allows v.wide && (form.named || v.named == 0))
    guard (!form.masks || (!v.r && v.named < 8))
    let (operand, code) ←
      if form.hasModRM then
        match code with
        | [] => none
        | b :: code => Operand.read (ModRM.ofByte b.toNat) v.b v.x code
      else some (({ isMemory := false, bytes := [] } : Operand), code)
    guard (form.mode ≠ .memory || operand.isMemory)
    guard (form.mode ≠ .register || !operand.isMemory)
    let (imm, code) ← takeBytes? form.imm code
    let v : VexLead :=
      { v with r := v.r && form.hasModRM && !form.regInOpcode, x := operand.index
               b := operand.base && (operand.isMemory || !form.maskOperand)
               wide := form.width.keeps v.wide
               long := form.length.keeps v.long }
    let addressed := operand.isMemory || form.implicitMemory
    let lead (address32 : Bool) : Bytes :=
      p.bytes false false (address32 && addressed) none ++ v.bytes ++ [op]
    let length := start - code.length
    pure (({ operand, lead, imm } : Parts).instruction p.address32
      (address + UInt64.ofNat length), length)

def escapedAt? (p : Prefixes) (address : Address) (start : Nat) :
    Bytes → Option (Instruction × Nat)
  | 0x38 :: op :: code => do
    let form ← form38? op.toNat p.selector (peekModRM code)
    legacyAt? p form [0x0F, 0x38, op] address start code
  | 0x3A :: op :: code => do
    let form ← form3A? op.toNat p.selector (peekModRM code)
    legacyAt? p form [0x0F, 0x3A, op] address start code
  | op :: code => do
    if op.toNat / 16 = 8 then branchAt? p (.conditional (op.toNat % 16)) 4 address start code
    else
      let m := peekModRM code
      -- Moves of control and debug registers take any mode for a register.
      let code := if op.toNat / 4 = 8 ∧ code ≠ [] then
        UInt8.ofNat ({ m with mode := 3 } : ModRM).byte :: code.drop 1 else code
      let form ← twoByteForm? op.toNat p.selector m (p.rexBit 4)
      let (instruction, length) ← legacyAt? p form [0x0F, op] address start code
      let suffix := (code.take (length - (start - code.length))).getLastD 0
      guard (op ≠ 0x0F || isPackedFloat suffix)
      pure (instruction, length)
  | [] => none

def opcodeAt? (p : Prefixes) (address : Address) (start : Nat) :
    Bytes → Option (Instruction × Nat)
  | 0x0F :: code => escapedAt? p address start code
  | 0xC5 :: code => vexAt? p true address start code
  | 0xC4 :: code => vexAt? p false address start code
  | 0xE8 :: code => branchAt? p .call 4 address start code
  | 0xE9 :: code => branchAt? p .jump 4 address start code
  | 0xEB :: code => branchAt? p .jump 1 address start code
  | 0xC7 :: 0xF8 :: code =>
    branchAt? p .transaction (if p.halved then 2 else 4) address start code
  | op :: code =>
    if op.toNat / 16 = 7 then branchAt? p (.conditional (op.toNat % 16)) 1 address start code
    else if op.toNat / 4 = 56 then branchAt? p (.counted op) 1 address start code
    else if op = 0x90 ∧ p.rep = some 0xF3 then
      legacyAt? { p with rex := none } (bare.behind .pF3) [op] address start code
    else do legacyAt? p (← oneByteForm? op.toNat (peekModRM code)) [op] address start code
  | [] => none

namespace Instruction

/-- The instruction at the front of some code that stands at `address`, with its length. -/
def decode? (address : Address) (code : Bytes) : Option (Instruction × Nat) :=
  let code := code.take maxInstructionLength
  let (p, rest) := ({} : Prefixes).read code
  (opcodeAt? p address code.length rest).filter fun r => 0 < r.2 && r.2 ≤ code.length

end Instruction

end Interpose.X86
