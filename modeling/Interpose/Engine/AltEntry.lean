import Interpose.Arch.Redirect
import Interpose.X86.Layout

/-!
# Alternate entries

The instructions that a redirect clobbers are moved to fresh executable memory, followed by a jump
to what they were in front of; the place they are moved to enters the code behind the redirect. How
instructions are taken apart and written again is a `Relocator`, of which only the lengths are
relied on. The one of the 64-bit instruction set refuses what it cannot take apart, which are among
others all instructions behind an EVEX or XOP prefix.
-/

namespace Interpose

def longestInstruction : Nat := 15

/-- Takes instructions off some code and writes them at another place. -/
structure Relocator where
  Piece : Type
  decode? : Address → Bytes → Option (Piece × Nat)
  jump : Address → Piece
  /-- The code of instructions, with the addresses they come from, at a new place. -/
  encode? : Address → List (Piece × Address) → Option Bytes
  decode_length : ∀ {a : Address} {code : Bytes} {piece : Piece} {n : Nat},
    decode? a code = some (piece, n) → 0 < n ∧ n ≤ longestInstruction ∧ n ≤ code.length

theorem X86.Instruction.decode?_length {a : Address} {code : Bytes} {i : X86.Instruction} {n : Nat}
    (h : X86.Instruction.decode? a code = some (i, n)) :
    0 < n ∧ n ≤ longestInstruction ∧ n ≤ code.length := by
  obtain ⟨-, hn⟩ := Option.filter_eq_some_iff.1 h
  simp only [X86.maxInstructionLength, List.length_take, Bool.and_eq_true, decide_eq_true_eq] at hn
  have := hn.1
  have := hn.2
  simp only [longestInstruction]
  omega

def X86.relocator : Relocator where
  Piece := X86.Instruction
  decode? := X86.Instruction.decode?
  jump := .branch .jump []
  encode? := X86.encodeAt?
  decode_length := X86.Instruction.decode?_length

def Isa.relocator? : Isa → Option Relocator
  | x86_64 => some X86.relocator
  | _ => none

namespace Relocator

variable (rel : Relocator)

set_option linter.unusedVariables false in
/-- Whole instructions from `entry + consumed` on, until `wanted` bytes from the entry are
covered; with them, how many bytes are. -/
def split (entry : Address) (wanted : Nat) (consumed : Nat) (code : Bytes) :
    Attempt (List (rel.Piece × Address) × Nat) :=
  if consumed < wanted then
    let place := entry + UInt64.ofNat consumed
    if code.isEmpty then .refuse (.relocation (.outOfBytes place))
    else
      match h : rel.decode? place code with
      | none => .refuse (.relocation (.invalidInstruction place))
      | some (piece, n) => do
        let (pieces, total) ← split entry wanted (consumed + n) (code.drop n)
        pure ((piece, place) :: pieces, total)
  else .ok ([], consumed)
termination_by wanted - consumed
decreasing_by
  have := (rel.decode_length h).1
  omega

variable {σ : Type} (sys : System σ)

/-- The instructions that cover the first `minLength` bytes at the entry, and a jump behind them. -/
def clobbered (entry : Address) (minLength : Nat) (s : σ) : Attempt (List (rel.Piece × Address)) := do
  let bound ← checked (minLength + longestInstruction)
  let count ← sys.readable entry bound s
  if count < minLength then .refuse (.relocation (.tooFewReadable count entry))
  else
    let code ← sys.read entry count s
    let (pieces, total) ← rel.split entry minLength 0 code
    pure (pieces ++ [(rel.jump (entry + UInt64.ofNat total), 0)])

def capacity (minLength : Nat) : Nat := (minLength + longestInstruction) * 2 + 14

def fill (pieces : List (rel.Piece × Address)) (memory : Range) : Action σ Unit := do
  match rel.encode? memory.base pieces with
  | none => throw (.refused (.relocation .unencodable))
  | some code =>
    if memory.length < code.length then throw (.refused (.relocation (.tooLong code.length)))
    let _ ← sys.patch memory.base code none
    sys.registerGuarded memory [0]

/-- Allocates within reach of a near jump from an address, or else anywhere. -/
def allocateAround (a : Address) (request : Request) : Action σ Range := do
  match ← (sys.allocate (request.near a Redirect.nearReach)).attempt with
  | .ok memory => pure memory
  | .error _ => sys.allocate request

/-- Moves what a redirect of `minLength` bytes clobbers to memory near the entry, or else anywhere.
The base of the allocation is the alternate entry. -/
def createAlternateEntry (entry : Address) (minLength : Nat) : Action σ Range := do
  let pieces ← Attempt.lift (rel.clobbered sys entry minLength (← get))
  let memory ← allocateAround sys entry
    { size := capacity minLength, alignment := sys.codeAlignment 16, executable := true }
  (rel.fill sys pieces memory).guarded (sys.release memory)
  pure memory

end Relocator

end Interpose
