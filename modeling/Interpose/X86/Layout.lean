import Interpose.X86.Instruction

/-!
# Laying out moved instructions

Instructions taken from one place are written one after the other at another. A target that is one
of them follows it; other targets stay where they are. Every instruction starts at the size of its
longest form and shrinks while that keeps its target in reach; a target out of every reach is
jumped to through a pointer behind the code.
-/

namespace Interpose.X86

inductive Shape where
  | undecided
  | short
  | near
  | long
  deriving DecidableEq, Repr

inductive Target where
  | none
  | inside (index : Nat)
  | outside (address : Address)
  deriving DecidableEq, Repr

structure Slot where
  instruction : Instruction
  target : Target
  place : Address := 0
  size : Nat
  shape : Shape := .undecided
  done : Bool := false
  deriving DecidableEq, Repr

def totalSize (slots : List Slot) : Nat := slots.foldl (fun n slot => n + slot.size) 0

def pointerJumpSize : Nat := 6

namespace Branch

def shortSize (lead : Nat) : Branch → Nat
  | transaction => lead + 5
  | _ => lead + 2

def nearSize (lead : Nat) : Branch → Nat
  | jump | call => lead + 5
  | conditional _ | transaction => lead + 6
  | counted _ => lead + 9

def longSize (lead : Nat) : Branch → Nat
  | jump | call => pointerJumpSize
  | conditional _ => 2 + pointerJumpSize
  | counted _ => lead + 4 + pointerJumpSize
  | transaction => lead + 6

def hasShort : Branch → Bool
  | call => false
  | _ => true

def fitsShort (kind : Branch) (gap : Int) : Bool :=
  match kind with
  | transaction => -32768 ≤ gap && gap ≤ 32767
  | _ => fits8 gap

end Branch

namespace Instruction

def longestSize : Instruction → Nat
  | fixed bytes => bytes.length
  | relative _ lead32 tail _ => lead32.length + 4 + tail.length
  | branch kind lead _ => max (kind.nearSize lead.length) (kind.longSize lead.length)

def target? : Instruction → Option Address
  | fixed _ => none
  | relative _ _ _ target => some target
  | branch _ _ target => some target

end Instruction

/-- The first of the instructions that stood at an address. Address zero is no place of two. -/
def insideIndex? (origins : List Address) (a : Address) : Option Nat :=
  if a = 0 ∧ origins.count 0 > 1 then none else origins.findIdx? (· == a)

def Target.address (t : Target) (slots : List Slot) : Address :=
  match t with
  | none => 0
  | inside index => (slots[index]?.map Slot.place).getD 0
  | outside address => address

namespace Slot

/-- The gap from the end of a form of the given size to the target. A target further on in the
block comes nearer by what the instructions before it have shrunk. -/
def gap (s : Slot) (slots : List Slot) (size gained : Nat) : Int :=
  let gap := distance (s.place + UInt64.ofNat size) (s.target.address slots)
  match s.target with
  | .inside _ => if 0 ≤ gap then gap - gained else gap
  | _ => gap

def isInside (s : Slot) : Bool :=
  match s.target with
  | .inside _ => true
  | _ => false

def farFromShort (gap : Int) : Bool := gap < -1280 || 1270 < gap

def shrinkBranch (s : Slot) (slots : List Slot) (gained : Nat) (kind : Branch) (lead : Nat) : Slot :=
  let short := kind.shortSize lead
  let near := kind.nearSize lead
  let shortGap := s.gap slots short gained
  let nearGap := s.gap slots near gained
  if s.shape = .short then { s with done := true }
  else if kind.hasShort && kind.fitsShort shortGap then
    { s with shape := .short, size := short, done := kind ≠ .transaction }
  else if kind = .transaction then { s with shape := .near, size := near }
  else if s.isInside || fits32 nearGap then
    let gap := if s.isInside then shortGap else nearGap
    { s with shape := .near, size := near, done := !kind.hasShort || farFromShort gap }
  else { s with shape := .long }

def shrinkRelative (s : Slot) (slots : List Slot) (gained lead lead32 tail : Nat) : Slot :=
  let size := lead + 4 + tail
  if s.shape = .short ∨ s.shape = .near then { s with done := true }
  else if s.isInside || fits32 (s.gap slots size gained) then
    { s with shape := .short, size := size, done := true }
  else if (s.target.address slots).toNat < 4294967296 then
    { s with shape := .near, size := lead32 + 4 + tail, done := true }
  else { s with shape := .long }

def shrink (s : Slot) (slots : List Slot) (gained : Nat) : Slot :=
  if s.done then s
  else match s.instruction with
  | .fixed _ => s
  | .relative lead lead32 tail _ =>
    s.shrinkRelative slots gained lead.length lead32.length tail.length
  | .branch kind lead _ => s.shrinkBranch slots gained kind lead.length

end Slot

/-- One pass over the slots from the given one on: each is placed behind the one before it and
shrunk. With `counting`, what was gained before a slot brings later targets nearer. Tells whether
anything became shorter. -/
def shrinkFrom (counting : Bool) : (remaining : Nat) → List Slot → (index : Nat) → Address →
    (gained : Nat) → List Slot × Bool
  | 0, slots, _, _, gained => (slots, gained ≠ 0)
  | remaining + 1, slots, index, place, gained =>
    match slots[index]? with
    | none => (slots, gained ≠ 0)
    | some slot =>
      let placed := { slot with place }
      let slots := slots.set index placed
      let shrunk := placed.shrink slots (if counting then gained else 0)
      shrinkFrom counting remaining (slots.set index shrunk) (index + 1)
        (place + UInt64.ofNat shrunk.size) (gained + (slot.size - shrunk.size))

/-- Passes until nothing becomes shorter. Every pass but the last takes a byte off the total. -/
def settle : (fuel : Nat) → Address → List Slot → List Slot
  | 0, _, slots => slots
  | fuel + 1, base, slots =>
    match shrinkFrom true slots.length slots 0 base 0 with
    | (slots, true) => settle fuel base slots
    | (slots, false) => slots

def placeAll : Address → List Slot → List Slot
  | _, [] => []
  | place, slot :: slots =>
    { slot with place } :: placeAll (place + UInt64.ofNat slot.size) slots

/-- The slots of instructions with the addresses they come from, settled for a base. -/
def arrange (base : Address) (code : List (Instruction × Address)) : List Slot :=
  let origins := code.map (·.2)
  let slots := code.map fun (instruction, _) =>
    let target : Target :=
      match instruction.target? with
      | none => .none
      | some a =>
        match insideIndex? origins a with
        | some index => .inside index
        | none => .outside a
    ({ instruction, target, size := instruction.longestSize } : Slot)
  let (slots, _) := shrinkFrom false slots.length (placeAll base slots) 0 base 0
  settle (totalSize slots + 1) base slots

def displacement32? (next target : Address) : Option Bytes :=
  let gap := distance next target
  if fits32 gap then some (leBytes 4 (UInt64.ofInt gap).toNat) else none

def displacement8? (next target : Address) : Option Bytes :=
  let gap := distance next target
  if fits8 gap then some (leBytes 1 (UInt64.ofInt gap).toNat) else none

def pointerJump? (isCall : Bool) (place pointer : Address) (size : Nat) : Option Bytes := do
  let displacement ← displacement32? (place + UInt64.ofNat pointerJumpSize) pointer
  let bytes : Bytes := [0xFF, if isCall then 0x15 else 0x25] ++ displacement
  pure (bytes ++ List.replicate (size - bytes.length) 0x90)

namespace Branch

def shortBytes? (kind : Branch) (lead : Bytes) (place target : Address) : Option Bytes :=
  let next := place + UInt64.ofNat (kind.shortSize lead.length)
  match kind with
  | jump => (displacement8? next target).map (lead ++ [0xEB] ++ ·)
  | conditional condition =>
    (displacement8? next target).map (lead ++ [UInt8.ofNat (0x70 + condition)] ++ ·)
  | counted opcode => (displacement8? next target).map (lead ++ [opcode] ++ ·)
  | transaction =>
    let gap := distance next target
    if -32768 ≤ gap ∧ gap ≤ 32767 then
      some (lead ++ [0x66, 0xC7, 0xF8] ++ leBytes 2 (UInt64.ofInt gap).toNat)
    else none
  | call => none

def nearBytes? (kind : Branch) (lead : Bytes) (place target : Address) : Option Bytes := do
  let displacement ← displacement32? (place + UInt64.ofNat (kind.nearSize lead.length)) target
  match kind with
  | jump => pure (lead ++ [0xE9] ++ displacement)
  | conditional condition => pure (lead ++ [0x0F, UInt8.ofNat (0x80 + condition)] ++ displacement)
  | call => pure (lead ++ [0xE8] ++ displacement)
  | counted opcode => pure (lead ++ [opcode, 2, 0xEB, 5, 0xE9] ++ displacement)
  | transaction => pure (lead ++ [0xC7, 0xF8] ++ displacement)

/-- The branch through a pointer: conditions are inverted to jump over it, counters jump to it. -/
def longBytes? (kind : Branch) (lead : Bytes) (place pointer : Address) (size : Nat) :
    Option Bytes :=
  let through (isCall : Bool) (head : Bytes) : Option Bytes :=
    (pointerJump? isCall (place + UInt64.ofNat head.length) pointer (size - head.length)).map
      (head ++ ·)
  match kind with
  | jump => through false []
  | call => through true []
  | conditional condition =>
    through false [UInt8.ofNat (0x70 + (if condition % 2 = 0 then condition + 1 else condition - 1)),
      UInt8.ofNat pointerJumpSize]
  | counted opcode => through false (lead ++ [opcode, 2, 0xEB, UInt8.ofNat pointerJumpSize])
  | transaction => none

end Branch

namespace Slot

def needsPointer (s : Slot) : Bool :=
  match s.instruction, s.shape with
  | .branch _ _ _, .long => true
  | _, _ => false

/-- The bytes of a slot; they have to fill it exactly. -/
def bytes? (s : Slot) (slots : List Slot) (pointer : Address) : Option Bytes :=
  let target := s.target.address slots
  let bytes : Option Bytes :=
    match s.instruction, s.shape with
    | .fixed bytes, _ => some bytes
    | .relative lead _ tail _, .short =>
      (displacement32? (s.place + UInt64.ofNat s.size) target).map (lead ++ · ++ tail)
    | .relative _ lead32 tail _, .near =>
      let gap := (target - (s.place + UInt64.ofNat s.size)).toNat
      some (lead32 ++ leBytes 4 gap ++ tail)
    | .branch kind lead _, .short => kind.shortBytes? lead s.place target
    | .branch kind lead _, .near => kind.nearBytes? lead s.place target
    | .branch kind lead _, .long => kind.longBytes? lead s.place pointer s.size
    | _, _ => none
  bytes.filter fun bytes => bytes.length == s.size

end Slot

def writeSlots? (slots : List Slot) : List Slot → (pointer : Address) → Option Bytes
  | [], _ => some []
  | s :: rest, pointer => do
    let bytes ← s.bytes? slots pointer
    let code ← writeSlots? slots rest (if s.needsPointer then pointer + 8 else pointer)
    pure (bytes ++ code)

/-- The code of instructions, with the addresses they come from, at a new base. Pointers follow
the code at the next multiple of eight, breakpoints fill the space between. -/
def encodeAt? (base : Address) (code : List (Instruction × Address)) : Option Bytes := do
  let slots := arrange base code
  let size := totalSize slots
  let stop := base + UInt64.ofNat size
  let padding := (8 - stop.toNat % 8) % 8
  let written ← writeSlots? slots slots (stop + UInt64.ofNat padding)
  let pointers := (slots.filter Slot.needsPointer).flatMap fun s =>
    leBytes 8 (s.target.address slots).toNat
  if pointers.isEmpty then pure written
  else pure (written ++ List.replicate padding 0xCC ++ pointers)

end Interpose.X86
