import Interpose.Kind
import Interpose.Text.Hex

/-!
# Failures

Every refusal is a cause with its own constructor; `Error.message` alone words them. `Failure`
adds the fault of machine arithmetic that left its range, after which nothing more happens.
-/

namespace Interpose

inductive Unsupported where
  | noEncoder (arch : ArchKind)
  | noNativeAbi (os : OsKind)
  | hostSuppliedRuntime (runtime : RuntimeKind)
  | noProxyStub (arch : ArchKind)
  deriving DecidableEq, Repr

inductive Misuse where
  | emptyAllocation
  | alignmentNotPowerOfTwo (alignment : Nat)
  | emptyWindow (low high : Address)
  | alignmentBelowGuard (alignment required : Nat)
  | backupTooSmall (room written : Nat)
  | unmappedCallTargets (base : Address)
  | bufferTooSmall (needed room : Nat)
  | foreignRedirect (kind : RedirectKind) (arch : ArchKind)
  | notApplied (source : Address)
  | indexFieldOutside (offset length : Nat)
  | tooManySlots (count : Nat)
  | compilesOpenGeneric (method : String)
  | detoursToOpenGeneric (method : String)
  | noUserArgumentSlot
  | noNativeAddress (method : String)
  deriving DecidableEq, Repr

inductive AllocationFlaw where
  | aboveMaximum
  | limitReached
  | windowFull
  | stubOutOfReach
  | stubAboveMaximum (maximum : Nat)
  | exhausted
  deriving DecidableEq, Repr

inductive AccessFlaw where
  | unmapped (count : Nat)
  | outsideScan
  | partlyMapped
  deriving DecidableEq, Repr

inductive RelocationFlaw where
  | tooFewReadable (count : Nat) (entry : Address)
  | outOfBytes (at_ : Address)
  | invalidInstruction (at_ : Address)
  | tooLong (needed : Nat)
  | unencodable
  deriving DecidableEq, Repr

inductive PatternFlaw where
  | badToken (token : String) (why : Text.NumberFlaw)
  | noTokens
  | noItems (name : String)
  | tooManyAddressBytes (name : String) (count : Nat)
  | matchesNothing (name : String)
  deriving DecidableEq, Repr

inductive ConfigFlaw where
  | unknownRuntime (key text : String)
  | notANumber (key text : String)
  | notABoolean (key text : String)
  | zeroWalkLimit
  | zeroReadLimit
  deriving DecidableEq, Repr

inductive FileFlaw where
  | notFound
  | isDirectory
  | notText
  deriving DecidableEq, Repr

inductive Error where
  | unsupported (what : Unsupported)
  | tripleTaken
  | selfDetour (address : Address)
  | misuse (why : Misuse)
  | noEncoding (source target : Address) (limit : Nat)
  | allocation (size alignment : Nat) (why : AllocationFlaw)
  | unreadable (address : Address) (why : AccessFlaw)
  | unwritable (address : Address) (why : AccessFlaw)
  | unstableEntry (method : String) (iterations : Nat)
  | thunkLoop (method : String) (entry : Address)
  | relocation (why : RelocationFlaw)
  | glueUnsupported (name : String)
  | pattern (why : PatternFlaw)
  | config (why : ConfigFlaw)
  | file (why : FileFlaw)
  | json
  | toml
  deriving DecidableEq, Repr

/-- What stops an operation: a refusal it reports, or arithmetic out of range. -/
inductive Failure where
  | refused (why : Error)
  | fault
  deriving DecidableEq, Repr

abbrev Attempt (α : Type) := Except Failure α

abbrev Attempt.refuse {α : Type} (why : Error) : Attempt α := .error (.refused why)

def checked (n : Nat) : Attempt Nat := if n < wordLimit then .ok n else .error .fault

def Address.plus (a : Address) (n : Nat) : Attempt Nat := checked (a.toNat + n)

/-- The least multiple of a power of two from `n` on. The sum with the alignment has to stay in
range, and an alignment of zero has no complement mask. -/
def alignUp (n alignment : Nat) : Attempt Nat :=
  if alignment = 0 ∨ wordLimit ≤ n + alignment then .error .fault
  else .ok ((n + alignment - 1) &&& (wordLimit - alignment))

namespace Unsupported

def message : Unsupported → String
  | noEncoder arch => s!"no detour encoder for {arch.name}"
  | noNativeAbi os => s!"no native ABI known for {os.name}"
  | hostSuppliedRuntime runtime => s!"runtime {runtime.name} must be supplied by the host"
  | noProxyStub arch => s!"no vtable proxy stub for {arch.name}"

end Unsupported

def ArchKind.prose : ArchKind → String
  | .x86_64 => "x86-64"
  | kind => kind.name

namespace Misuse

def message : Misuse → String
  | emptyAllocation => "allocation size must be non-zero"
  | alignmentNotPowerOfTwo alignment => s!"allocation alignment {alignment} is not a power of two"
  | emptyWindow low high => s!"empty placement window {Text.address low}..{Text.address high}"
  | alignmentBelowGuard alignment required =>
    s!"alignment {alignment} is below the CFG requirement of {required}"
  | backupTooSmall room written => s!"backup buffer holds {room} bytes, patch writes {written}"
  | unmappedCallTargets base => s!"call targets registered for unmapped range {Text.address base}"
  | bufferTooSmall needed room => s!"detour needs {needed} bytes, buffer holds {room}"
  | foreignRedirect kind arch => s!"{kind.name} is not an {arch.prose} detour"
  | notApplied source => s!"detour at {Text.address source} is not applied"
  | indexFieldOutside offset length =>
    s!"index field at {offset} does not fit a {length} byte stub template"
  | tooManySlots count => s!"{count} slots overflow the stub index field"
  | compilesOpenGeneric method => s!"cannot compile generic definition {method}"
  | detoursToOpenGeneric method => s!"cannot detour to open generic definition {method}"
  | noUserArgumentSlot => "ABI argument order has no user argument slot"
  | noNativeAddress method => s!"{method} has no native address"

end Misuse

namespace AllocationFlaw

def message : AllocationFlaw → String
  | aboveMaximum => "larger than the maximum allocation size"
  | limitReached => "allocation limit reached"
  | windowFull => "no free range inside the placement window"
  | stubOutOfReach => "jump stub landed out of rel32 reach"
  | stubAboveMaximum maximum => s!"stub is larger than the maximum allocation of {maximum} bytes"
  | exhausted => "Cannot allocate memory (os error 12)"

end AllocationFlaw

namespace AccessFlaw

def message : AccessFlaw → String
  | unmapped count => s!"{count} bytes not mapped"
  | outsideScan => "outside the scanned bytes"
  | partlyMapped => "range is not fully mapped"

end AccessFlaw

namespace RelocationFlaw

def message : RelocationFlaw → String
  | tooFewReadable count entry => s!"only {count} bytes readable at {Text.address entry}"
  | outOfBytes place => s!"ran out of bytes decoding {Text.address place}"
  | invalidInstruction place => s!"invalid instruction at {Text.address place}"
  | tooLong needed => s!"relocated prologue needs {needed} bytes"
  | unencodable => "the prologue cannot be relocated"

end RelocationFlaw

namespace PatternFlaw

def message : PatternFlaw → String
  | badToken token why => s!"Invalid pattern token '{token}': {why.message}"
  | noTokens => "Pattern is empty"
  | noItems name => s!"pattern '{name}' is empty"
  | tooManyAddressBytes name count => s!"pattern '{name}' captures {count} address bytes (max 8)"
  | matchesNothing name => s!"pattern '{name}' matches no bytes"

end PatternFlaw

namespace ConfigFlaw

def message : ConfigFlaw → String
  | unknownRuntime key text => s!"{key}: unknown runtime '{text}'"
  | notANumber key text => s!"{key}: '{text}' is not a number"
  | notABoolean key text => s!"{key}: '{text}' is not a boolean"
  | zeroWalkLimit => "walk_iteration_limit must be at least 1"
  | zeroReadLimit => "thunk_read_limit must be at least 1"

end ConfigFlaw

namespace FileFlaw

def message : FileFlaw → String
  | notFound => "No such file or directory (os error 2)"
  | isDirectory => "Is a directory (os error 21)"
  | notText => "stream did not contain valid UTF-8"

end FileFlaw

namespace Error

def message : Error → String
  | unsupported what => "Platform not supported: " ++ what.message
  | tripleTaken => "Platform triple has already been initialized"
  | selfDetour address => s!"Cannot detour {Text.address address} to itself"
  | misuse why => "Invalid argument: " ++ why.message
  | noEncoding source target limit =>
    s!"No detour encoding from {Text.address source} to {Text.address target} fits in {limit} bytes"
  | allocation size alignment why =>
    s!"Failed to allocate {size} bytes (alignment {alignment}): {why.message}"
  | unreadable address why =>
    s!"Failed to read memory at address 0x{Text.hexLower address.toNat}: {why.message}"
  | unwritable address why =>
    s!"Failed to change protection at address 0x{Text.hexLower address.toNat}: {why.message}"
  | unstableEntry method iterations =>
    s!"Entry point of {method} did not stabilize after {iterations} iterations"
  | thunkLoop method entry => s!"Thunk walk for {method} looped back to {Text.address entry}"
  | relocation why => "Failed to create alternate entry point: " ++ why.message
  | glueUnsupported name => s!"Runtime cannot emit glue method {name}"
  | pattern why => "Invalid pattern: " ++ why.message
  | config why => "Invalid configuration: " ++ why.message
  | file why => "IO error: " ++ why.message
  | json => "JSON error: malformed signature file"
  | toml => "TOML error: malformed configuration file"

def isNotFound : Error → Bool
  | file .notFound => true
  | _ => false

def isUnsupported : Error → Bool
  | unsupported _ => true
  | glueUnsupported _ => true
  | _ => false

end Error

end Interpose
