import Interpose.Engine.Platform

/-!
# Walking to a method's body

Runtimes that compile late report entries that are thunks: jumps to the body, to a routine that
compiles the method, or to one prestub that all methods not compiled yet share. A walk follows
thunks from the reported entry until nothing is recognised. A thunk that leads to compilation makes
it compile the method and start again; all starts together look at a limited number of entries.
-/

namespace Interpose

/-- Stands for the prestub when none could be told; no code is there. -/
def noPrestub : Address := Address.top

structure Thunk.Link where
  next : Address
  fixup : Bool
  deriving DecidableEq, Repr

namespace Platform

variable {σ ρ : Type} (p : Platform σ ρ)

def window : Nat :=
  match p.settings.readLimit with
  | some limit => min p.isa.thunks.maxMinLength limit
  | none => p.isa.thunks.maxMinLength

/-- The thunk at an entry; nothing readable or nothing recognised is none. -/
def thunkAt (entry : Address) (s : σ) : Attempt (Option Thunk.Link) := do
  let count ← p.system.readable entry p.window s
  if count = 0 then pure none
  else
    let code ← p.system.read entry (min count p.window) s
    match p.isa.thunks.find? code with
    | none => pure none
    | some found =>
      let meaning := found.pattern.meaning
      let next ← meaning.target (p.system.readPointer s) entry found.offset found.hit.address
      pure (some ⟨next, meaning.kind.precodeFixup⟩)

def unstable (name : String) : Failure := .refused (.unstableEntry name p.settings.walkLimit)

/-- Follows thunks without compiling anything; an entry that leads to itself is the end. -/
def traceFrom (name : String) (s : σ) :
    (remaining : Nat) → (entry : Address) → (previous : Option Address) → Attempt Address
  | 0, _, _ => .error (p.unstable name)
  | remaining + 1, entry, previous =>
    if previous = some entry then .ok entry
    else do
      match ← p.thunkAt entry s with
      | none => pure entry
      | some link => traceFrom name s remaining link.next (some entry)

def trace (m : Method) (w : World σ ρ) : Attempt Address := do
  let entry ← p.runtime.entryPoint m w.runtime
  p.traceFrom m.fullName w.memory p.settings.walkLimit entry none

def traceAll (w : World σ ρ) : List Method → Attempt (List Address)
  | [] => .ok []
  | m :: rest =>
    match p.trace m w with
    | .ok a => (traceAll w rest).map (a :: ·)
    | .error (.refused _) => traceAll w rest
    | .error .fault => .error .fault

def shared (addresses : List Address) : Address :=
  (addresses.find? fun a => 1 < addresses.count a).getD noPrestub

/-- The prestub: where several methods lead that are not compiled yet. -/
def probe (w : World σ ρ) : Attempt Address :=
  (p.traceAll w p.runtime.probeCandidates).map shared

/-- The prestub, probed when it is first asked for. -/
def prestub : Action (World σ ρ) Address := do
  let w ← get
  match w.prestub with
  | some a => pure a
  | none =>
    let a ← World.ask p.probe
    modify fun w => { w with prestub := some a }
    pure a

def compiles (link : Thunk.Link) : Action (World σ ρ) Bool :=
  if link.fixup then pure true else do pure (link.next == (← p.prestub))

/-- The walk from an entry. `previous` is the entry looked at before, `prepared` tells that the
method was compiled since; only then may the same entry come twice in a row. -/
def walkFrom (r : MethodRef) : (remaining : Nat) → (entry : Address) →
    (previous : Option Address) → (prepared : Bool) → Action (World σ ρ) Address
  | 0, _, _, _ => throw (p.unstable r.method.fullName)
  | remaining + 1, entry, previous, prepared =>
    if !prepared && previous == some entry then
      throw (.refused (.thunkLoop r.method.fullName entry))
    else do
      match ← World.ask fun w => p.thunkAt entry w.memory with
      | none => pure entry
      | some link =>
        if ← p.compiles link then
          p.compile r
          let entry' ← World.ask fun w => p.runtime.entryPoint r.method w.runtime
          walkFrom r remaining entry' (some entry) true
        else walkFrom r remaining link.next (some entry) false

def methodBody (r : MethodRef) : Action (World σ ρ) Address := do
  let entry ← World.ask fun w => p.runtime.entryPoint r.method w.runtime
  if p.runtime.features.contains RuntimeFeature.bodyWalk then
    p.walkFrom r p.settings.walkLimit entry none false
  else pure entry

end Platform

end Interpose
