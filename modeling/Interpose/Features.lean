import Interpose.Word

/-!
# Features

Capability bits of the three parts of a platform. Bits without a name are kept and never shown.
-/

namespace Interpose

structure FeatureBits where
  bits : UInt32
  deriving DecidableEq, Repr

namespace FeatureBits

def none : FeatureBits := ⟨0⟩

def contains (s wanted : FeatureBits) : Bool := s.bits &&& wanted.bits == wanted.bits

def union (s t : FeatureBits) : FeatureBits := ⟨s.bits ||| t.bits⟩

def names (table : List (String × FeatureBits)) (s : FeatureBits) : List String :=
  (table.filter fun entry => s.contains entry.2).map (·.1)

end FeatureBits

namespace ArchFeature

def fixedInstructionSize : FeatureBits := ⟨1⟩
/-- One redirect reaches any address without memory of its own. -/
def absoluteJump : FeatureBits := ⟨2⟩
def alternateEntry : FeatureBits := ⟨4⟩

def table : List (String × FeatureBits) :=
  [("FIXED_INSTRUCTION_SIZE", fixedInstructionSize), ("ABSOLUTE_64BIT_JUMP", absoluteJump),
    ("CREATE_ALT_ENTRY_POINT", alternateEntry)]

end ArchFeature

namespace SystemFeature

def rwxPages : FeatureBits := ⟨1⟩
def rxPages : FeatureBits := ⟨2⟩
/-- Targets of indirect calls have to be registered before they are called. -/
def controlFlowGuard : FeatureBits := ⟨4⟩

def table : List (String × FeatureBits) :=
  [("RWX_PAGES", rwxPages), ("RX_PAGES", rxPages), ("CONTROL_FLOW_GUARD", controlFlowGuard)]

end SystemFeature

namespace RuntimeFeature

def bodyWalk : FeatureBits := ⟨1⟩
def customCompile : FeatureBits := ⟨2⟩
def methodPinning : FeatureBits := ⟨4⟩
/-- References have to be made canonical before they are compared. -/
def methodIdentification : FeatureBits := ⟨8⟩
def disableInlining : FeatureBits := ⟨16⟩
def genericSharing : FeatureBits := ⟨32⟩

def table : List (String × FeatureBits) :=
  [("REQUIRES_BODY_THUNK_WALKING", bodyWalk), ("REQUIRES_CUSTOM_METHOD_COMPILE", customCompile),
    ("REQUIRES_METHOD_PINNING", methodPinning),
    ("REQUIRES_METHOD_IDENTIFICATION", methodIdentification),
    ("DISABLE_INLINING", disableInlining), ("GENERIC_SHARING", genericSharing)]

end RuntimeFeature

structure Features where
  arch : FeatureBits := .none
  system : FeatureBits := .none
  runtime : FeatureBits := .none
  deriving DecidableEq, Repr

namespace Features

def display (f : Features) : String :=
  let names := f.arch.names ArchFeature.table ++ f.system.names SystemFeature.table ++
    f.runtime.names RuntimeFeature.table
  if names.isEmpty then "(none)" else " | ".intercalate names

end Features

end Interpose
