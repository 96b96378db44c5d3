import Interpose.Arch.Isa
import Interpose.Memory.System

/-!
# Redirects

The bytes that send control from one address to another. `Isa.plan` picks the encoding that fits
a size limit, `Isa.encode` writes it; an encoding that needs a stub allocates it.
-/

namespace Interpose

structure Redirect where
  source : Address
  target : Address
  size : Nat
  kind : RedirectKind
  deriving DecidableEq, Repr

def maxRedirectSize : Nat := 16

namespace Redirect

/-- Stubs are placed at most this far away, so that a near jump reaches them. -/
def nearReach : Address := 0x7FF00000

def rel32Gap (source target : Address) : Int := distance (source + 5) target

def rel32Bytes (displacement : Int) : Bytes :=
  0xE9 :: leBytes 4 (UInt64.ofInt displacement).toNat

def abs64Bytes (target : Address) : Bytes :=
  [0xFF, 0x25, 0x00, 0x00, 0x00, 0x00] ++ leBytes 8 target.toNat

def branchGap? (source target : Address) : Option Int :=
  let gap := distance source target
  if gap % 4 = 0 ∧ -134217728 ≤ gap ∧ gap < 134217728 then some gap else none

def branchBytes (gap : Int) : Bytes := leBytes 4 (0x14000000 + ((gap / 4) % 67108864).toNat)

def literalBytes (target : Address) : Bytes :=
  leBytes 4 0x58000051 ++ leBytes 4 0xD61F0220 ++ leBytes 8 target.toNat

end Redirect

namespace Isa

open Redirect

def checkLimit (source target : Address) (size : Nat) (limit : Option Nat) : Attempt Unit :=
  match limit with
  | some limit => if limit < size then .refuse (.noEncoding source target limit) else .ok ()
  | none => .ok ()

/-- The encoding of a redirect in at most `limit` bytes. -/
def plan (isa : Isa) (source target : Address) (limit : Option Nat) : Attempt Redirect :=
  match isa with
  | x86_64 => do
    checkLimit source target 5 limit
    if fits32 (rel32Gap source target) then pure ⟨source, target, 5, .rel32⟩
    else if limit.all (14 ≤ ·) then pure ⟨source, target, 14, .abs64Indirect⟩
    else pure ⟨source, target, 5, .rel32ViaStub⟩
  | x86 => do
    checkLimit source target 5 limit
    pure ⟨source, target, 5, .rel32⟩
  | aarch64 => do
    checkLimit source target 4 limit
    if (branchGap? source target).isSome then pure ⟨source, target, 4, .branch26⟩
    else do
      checkLimit source target 16 limit
      pure ⟨source, target, 16, .literalBranch⟩

variable {σ : Type} (sys : System σ)

def stubRequest (source : Address) : Request :=
  Request.near { size := 14, alignment := sys.codeAlignment 16, executable := true } source
    nearReach

/-- Writes an absolute jump into executable memory near `source` and a near jump to it. -/
def encodeViaStub (source target : Address) : Action σ (Bytes × Option Range) :=
  sys.allocating (stubRequest sys source) fun stub => do
    let _ ← sys.patch stub.base (abs64Bytes target) none
    let gap := rel32Gap source stub.base
    if fits32 gap then pure (rel32Bytes gap, some stub)
    else throw (.refused (.allocation 14 16 .stubOutOfReach))

def directBytes (isa : Isa) (r : Redirect) : Attempt Bytes :=
  match isa, r.kind with
  | x86_64, .rel32 =>
    let gap := rel32Gap r.source r.target
    if fits32 gap then .ok (rel32Bytes gap) else .refuse (.noEncoding r.source r.target r.size)
  | x86_64, .abs64Indirect => .ok (abs64Bytes r.target)
  | x86, .rel32 => .ok (rel32Bytes (rel32Gap r.source r.target))
  | aarch64, .branch26 =>
    match branchGap? r.source r.target with
    | some gap => .ok (branchBytes gap)
    | none => .refuse (.noEncoding r.source r.target r.size)
  | aarch64, .literalBranch => .ok (literalBytes r.target)
  | isa, kind => .refuse (.misuse (.foreignRedirect kind isa.kind))

def encodeBytes (isa : Isa) (r : Redirect) : Action σ (Bytes × Option Range) :=
  if isa = x86_64 ∧ r.kind = .rel32ViaStub then encodeViaStub sys r.source r.target
  else do pure (← Attempt.lift (isa.directBytes r), none)

/-- The bytes of a redirect for a buffer with the given room. An encoding longer than the size the
redirect states runs past a buffer that holds just that size. -/
def encode (isa : Isa) (r : Redirect) (room : Nat) : Action σ (Bytes × Option Range) := do
  if room < r.size then throw (.refused (.misuse (.bufferTooSmall r.size room)))
  let (bytes, stub) ← isa.encodeBytes sys r
  if room < bytes.length then throw .fault
  pure (bytes, stub)

/-- Writes a redirect over the front of a buffer: how many bytes were written, the buffer then, and
the stub. -/
def encodeInto (isa : Isa) (r : Redirect) (buffer : Bytes) :
    Action σ (Nat × Bytes × Option Range) := do
  let (bytes, stub) ← isa.encode sys r buffer.length
  pure (bytes.length, bytes ++ buffer.drop bytes.length, stub)

def encodeFront (isa : Isa) (r : Redirect) : Action σ (Bytes × Option Range) := do
  let (count, buffer, stub) ← isa.encodeInto sys r (List.replicate maxRedirectSize 0)
  pure (buffer.take count, stub)

end Isa

end Interpose
