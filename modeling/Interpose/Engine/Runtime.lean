import Interpose.Call.Glue
import Interpose.Memory.System

/-!
# Runtimes

What the engine asks of the program that runs the methods. Native functions are their own entry
points; a scripted runtime follows tables of entries, those reported now and those reported once a
method is compiled.
-/

namespace Interpose

/-- Where a hooked method stands in the virtual table of a compiler's interface. -/
structure VtableLayout where
  slotIndex : Nat
  slotCount : Nat
  deriving DecidableEq, Repr

structure Runtime (ρ : Type) where
  kind : RuntimeKind
  features : FeatureBits
  abi : Abi
  entryPoint : Method → ρ → Attempt Address
  compile : Method → Action ρ Unit
  identify : MethodRef → MethodRef := id
  needsContext : Method → Bool := fun _ => false
  pins : Method → Bool := fun _ => false
  emitGlue : Glue → Action ρ MethodRef :=
    fun glue => throw (.refused (.glueUnsupported glue.name))
  /-- Methods that are expected not to be compiled yet. -/
  probeCandidates : List Method := []
  vtableLayout? : Option VtableLayout := none

namespace Runtime

def native {ρ : Type} (abi : Abi) : Runtime ρ where
  kind := .native
  features := .none
  abi := abi
  entryPoint m _ :=
    if m.handle = 0 then .refuse (.misuse (.noNativeAddress m.fullName)) else .ok m.handle
  compile _ := pure ()

def ofSystem {σ ρ : Type} (sys : System σ) : Attempt (Runtime ρ) :=
  match sys.nativeAbi? with
  | some abi => .ok (native abi)
  | none => .refuse (.unsupported (.noNativeAbi sys.os))

end Runtime

structure Script where
  features : FeatureBits := .none
  abi : Abi := .systemV64
  compiled : List (Address × Address) := []
  contexts : List Address := []
  canonical : List (Address × MethodRef) := []
  candidates : List Method := []
  vtableLayout? : Option VtableLayout := none
  emitsGlue : Bool := false

structure ScriptState where
  /-- The entries reported for handles; others are their own entries. Later pairs count. -/
  entries : List (Address × Address) := []
  compileCount : Nat := 0
  emitted : List Glue := []

def lastOf? {α : Type} (key : Address) (pairs : List (Address × α)) : Option α :=
  (pairs.reverse.find? fun pair => pair.1 == key).map (·.2)

namespace ScriptState

def entry (s : ScriptState) (handle : Address) : Address :=
  (lastOf? handle s.entries).getD handle

def setEntry (s : ScriptState) (handle entry : Address) : ScriptState :=
  { s with entries := s.entries ++ [(handle, entry)] }

end ScriptState

namespace Script

variable (script : Script)

def compile (m : Method) (s : ScriptState) : ScriptState :=
  let s := { s with compileCount := s.compileCount + 1 }
  match lastOf? m.handle script.compiled with
  | some entry => s.setEntry m.handle entry
  | none => s

def emitGlue (glue : Glue) : Action ScriptState MethodRef := do
  if !script.emitsGlue then throw (.refused (.glueUnsupported glue.name))
  let emitted := (← get).emitted
  modify fun s => { s with emitted := s.emitted ++ [glue] }
  pure {
    identity := .emitted emitted.length
    method := {
      name := glue.name
      handle := 0xF0000000 + UInt64.ofNat ((emitted.length + 1) * 0x100)
      returnType := glue.returnType } }

def runtime : Runtime ScriptState where
  kind := .coreClr
  features := script.features
  abi := script.abi
  entryPoint m s := .ok (s.entry m.handle)
  compile m := modify (script.compile m)
  identify r := (lastOf? r.method.handle script.canonical).getD r
  needsContext m := script.contexts.contains m.handle
  emitGlue := script.emitGlue
  probeCandidates := script.candidates
  vtableLayout? := script.vtableLayout?

end Script

end Interpose
