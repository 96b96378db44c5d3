import Interpose.Call.Abi
import Interpose.Features
import Interpose.Memory.Request

/-!
# Systems

What the engine asks of the system that holds the memory. An operation acts on a state of the
system and either gives a result or fails; a failure keeps what was done to the state before it.
-/

namespace Interpose

abbrev Action (σ : Type) := EStateM Failure σ

def Attempt.lift {σ α : Type} (x : Attempt α) : Action σ α := fun s =>
  match x with
  | .ok a => .ok a s
  | .error e => .error e s

/-- Undoes a step when what follows it fails, and fails likewise. -/
def Action.guarded {σ α : Type} (x : Action σ α) (cleanup : σ → σ) : Action σ α := fun s =>
  match x s with
  | .ok a s => .ok a s
  | .error e s => .error e (cleanup s)

def Action.attempt {σ α : Type} (x : Action σ α) : Action σ (Except Error α) := fun s =>
  match x s with
  | .ok a s => .ok (.ok a) s
  | .error (.refused e) s => .ok (.error e) s
  | .error .fault s => .error .fault s

structure System (σ : Type) where
  os : OsKind
  nativeAbi? : Option Abi
  maxAllocation : Nat
  guard : Option Nat
  allocate : Request → Action σ Range
  release : Range → σ → σ
  /-- Overwrites bytes. With room for the bytes replaced, these are the result. -/
  patch : Address → Bytes → (room : Option Nat) → Action σ Bytes
  registerTargets : Range → List Nat → Action σ Unit
  read : Address → Nat → σ → Attempt Bytes
  readable : Address → Nat → σ → Attempt Nat

namespace System

variable {σ : Type} (sys : System σ)

def features : FeatureBits :=
  let pages := SystemFeature.rwxPages.union SystemFeature.rxPages
  if sys.guard.isSome then pages.union SystemFeature.controlFlowGuard else pages

def readBytes (a : Address) (n : Nat) (s : σ) : Attempt Bytes :=
  if wordLimit ≤ 2 * n then .error .fault else sys.read a n s

def readPointer (s : σ) (a : Address) : Attempt Address := do
  pure (UInt64.ofNat (leNat (← sys.read a 8 s)))

/-- Allocates, then fills the allocation; it is given back if that fails. -/
def allocating {α : Type} (q : Request) (fill : Range → Action σ α) : Action σ α := do
  let range ← sys.allocate q
  (fill range).guarded (sys.release range)

def codeAlignment (least : Nat) : Nat := max (sys.guard.getD 0) least

def registerGuarded (range : Range) (offsets : List Nat) : Action σ Unit :=
  if sys.guard.isSome then sys.registerTargets range offsets else pure ()

end System

end Interpose
