import Interpose.Config.Settings
import Interpose.Engine.Detour
import Interpose.Engine.Runtime
import Interpose.Engine.StubPage

/-!
# Platforms

An instruction set, a system and a runtime that work together under some settings. Operations on
the whole act on a `World`: the state of the memory, the state of the runtime, and the address of
the shared prestub once it has been probed.
-/

namespace Interpose

structure Platform (σ ρ : Type) where
  isa : Isa
  system : System σ
  runtime : Runtime ρ
  settings : Settings := {}

structure World (σ ρ : Type) where
  memory : σ
  runtime : ρ
  prestub : Option Address := none

namespace World

variable {σ ρ α : Type}

def onMemory (x : Action σ α) : Action (World σ ρ) α := fun w =>
  match x w.memory with
  | .ok a memory => .ok a { w with memory }
  | .error e memory => .error e { w with memory }

def onRuntime (x : Action ρ α) : Action (World σ ρ) α := fun w =>
  match x w.runtime with
  | .ok a runtime => .ok a { w with runtime }
  | .error e runtime => .error e { w with runtime }

def ask (x : World σ ρ → Attempt α) : Action (World σ ρ) α := fun w =>
  match x w with
  | .ok a => .ok a w
  | .error e => .error e w

end World

namespace Platform

variable {σ ρ : Type} (p : Platform σ ρ)

def features : Features := ⟨p.isa.features, p.system.features, p.runtime.features⟩

def abi : Abi := p.runtime.abi

/-- The canonical reference to a method, on runtimes that need one. -/
def identify (r : MethodRef) : MethodRef :=
  if p.runtime.features.contains RuntimeFeature.methodIdentification then p.runtime.identify r
  else r

/-- Makes the runtime compile a method; an open generic definition has no code. -/
def compile (r : MethodRef) : Action (World σ ρ) Unit := do
  if r.method.isOpenGeneric then
    throw (.refused (.misuse (.compilesOpenGeneric r.method.fullName)))
  World.onRuntime (p.runtime.compile (p.identify r).method)

def pins (r : MethodRef) : Bool :=
  p.runtime.features.contains RuntimeFeature.methodPinning && p.runtime.pins r.method

def disablesInlining : Bool := p.runtime.features.contains RuntimeFeature.disableInlining

def createDetour (source target : Address) (limit : Option Nat) (writable : Option Address) :
    Action (World σ ρ) Detour :=
  World.onMemory (Detour.create p.system p.isa source target limit writable)

def createEntryDetour (rel? : Option Relocator) (source target : Address) (limit : Option Nat)
    (writable : Option Address) : Action (World σ ρ) EntryDetour :=
  World.onMemory (EntryDetour.createWith p.system p.isa rel? p.settings.createAltEntry source target
    limit writable)

/-- The method to redirect another to: the target, or glue in front of it. -/
def detourTarget (source target : MethodRef) : Action (World σ ρ) MethodRef := do
  let target := p.identify target
  match ← Attempt.lift (planFixup p.abi source.method target.method
      (p.runtime.needsContext source.method)) with
  | .direct => pure target
  | .glue glue => World.onRuntime (p.runtime.emitGlue glue)

def createProxy (slots : Nat) : Action (World σ ρ) StubPage.Proxy :=
  World.onMemory (StubPage.createProxy p.system p.isa slots)

end Platform

end Interpose
