import Interpose.Engine.AltEntry

/-!
# Detours

A detour is a redirect that has been written over some code, with the bytes it replaced. Undoing
it restores them. The stub of a redirect lives as long as a jump to it may be in place: it is given
back only after the bytes that lead to it are gone.
-/

namespace Interpose

structure Detour where
  redirect : Redirect
  /-- Where the bytes are written; not the source when that is mapped a second time. -/
  writeAddress : Address
  backup : Bytes
  stub : Option Range
  applied : Bool
  deriving DecidableEq, Repr

structure EntryDetour where
  detour : Detour
  alternate : Option Range
  deriving DecidableEq, Repr

section

variable {σ : Type} (sys : System σ)

def System.releaseOption (range : Option Range) (s : σ) : σ :=
  match range with
  | some range => sys.release range s
  | none => s

namespace Detour

variable (isa : Isa)

def plan (source target : Address) (limit : Option Nat) : Attempt Redirect :=
  if source = target then .refuse (.selfDetour source) else isa.plan source target limit

def apply (redirect : Redirect) (writeAddress : Address) : Action σ Detour := do
  let (bytes, stub) ← isa.encodeFront sys redirect
  let backup ← Action.guarded (sys.patch writeAddress bytes (some bytes.length))
    (sys.releaseOption stub)
  pure { redirect, writeAddress, backup, stub, applied := true }

/-- Redirects `source` to `target`. The bytes go to a second, writable mapping of the source if one
is given. -/
def create (source target : Address) (limit : Option Nat) (writable : Option Address) :
    Action σ Detour := do
  let redirect ← Attempt.lift (plan isa source target limit)
  apply sys isa redirect (writable.getD source)

variable (d : Detour)

def undo : Action σ Detour := do
  if !d.applied then pure d
  else do
    let _ ← sys.patch d.writeAddress d.backup none
    modify (sys.releaseOption d.stub)
    pure { d with applied := false, stub := none }

/-- Points the detour elsewhere within the bytes saved. The old stub is given back once the new
bytes are in place, the new one if they cannot be written. -/
def retarget (target : Address) : Action σ Detour := do
  if !d.applied then throw (.refused (.misuse (.notApplied d.redirect.source)))
  let redirect ← Attempt.lift (plan isa d.redirect.source target (some d.backup.length))
  let (bytes, stub) ← isa.encodeFront sys redirect
  let _ ← Action.guarded (sys.patch d.writeAddress bytes none) (sys.releaseOption stub)
  modify (sys.releaseOption d.stub)
  pure { d with redirect, stub }

/-- Gives the detour up: it is undone if that is possible, and its stub is given back anyway. -/
def drop : Action σ Unit := do
  match ← (d.undo sys).attempt with
  | .ok d => modify (sys.releaseOption d.stub)
  | .error _ => modify (sys.releaseOption d.stub)

end Detour

namespace EntryDetour

variable (isa : Isa)

def alternateFor (rel? : Option Relocator) (wanted : Bool) (redirect : Redirect) :
    Action σ (Option Range) :=
  match rel? with
  | some rel =>
    if wanted then do
      match ← (rel.createAlternateEntry sys redirect.source redirect.size).attempt with
      | .ok memory => pure (some memory)
      | .error _ => pure none
    else pure none
  | none => pure none

/-- Like `Detour.create`, keeping the code behind the redirect reachable where the relocator
allows it. -/
def createWith (rel? : Option Relocator) (wanted : Bool) (source target : Address)
    (limit : Option Nat) (writable : Option Address) : Action σ EntryDetour := do
  let redirect ← Attempt.lift (Detour.plan isa source target limit)
  let alternate ← alternateFor sys rel? wanted redirect
  let detour ← (Detour.apply sys isa redirect (writable.getD source)).guarded
    (sys.releaseOption alternate)
  pure { detour, alternate }

def create (wanted : Bool) (source target : Address) (limit : Option Nat)
    (writable : Option Address) : Action σ EntryDetour :=
  createWith sys isa isa.relocator? wanted source target limit writable

variable (d : EntryDetour)

def undo : Action σ EntryDetour := do
  let detour ← d.detour.undo sys
  modify (sys.releaseOption d.alternate)
  pure { detour, alternate := none }

def drop : Action σ Unit := do
  d.detour.drop sys
  modify (sys.releaseOption d.alternate)

end EntryDetour

end

end Interpose
