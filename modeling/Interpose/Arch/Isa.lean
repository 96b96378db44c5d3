import Interpose.Features
import Interpose.Pattern.Signature

/-!
# Instruction sets

The instruction sets that redirects can be written for, with what the engine has to know of each:
its features, the thunks it recognises in front of method bodies, and the code that forwards a
call through a slot of a wrapped object.
-/

namespace Interpose

inductive Isa where
  | x86
  | x86_64
  | aarch64
  deriving DecidableEq, Repr

namespace Isa

def kind : Isa → ArchKind
  | x86 => .x86
  | x86_64 => .x86_64
  | aarch64 => .aarch64

def ofKind : ArchKind → Attempt Isa
  | .x86 => .ok x86
  | .x86_64 => .ok x86_64
  | .aarch64 => .ok aarch64
  | .arm => .refuse (.unsupported (.noEncoder .arm))

def features : Isa → FeatureBits
  | x86 => .none
  | x86_64 => ArchFeature.absoluteJump.union ArchFeature.alternateEntry
  | aarch64 => ArchFeature.fixedInstructionSize.union ArchFeature.absoluteJump

end Isa

namespace Thunk

def code (bytes : Bytes) : List Item := bytes.map .literal

def target (n : Nat) : List Item := List.replicate n .address

def operand (n : Nat) : List Item := List.replicate n .any

def pattern (name : String) (meaning : AddressMeaning) (items : List Item)
    (hc : addressCount items ≤ 8 := by decide) (hm : 0 < minLength items := by decide) : Pattern :=
  ⟨name, items, meaning, true, hc, hm⟩

def relative (offset : Address) (indirect fixup : Bool) : AddressMeaning :=
  ⟨⟨.rel32, indirect, fixup⟩, offset⟩

/-- Longer shapes come in front of those that begin them. The first slot of a fixup precode holds
the body once the method is compiled; until then it leads to the tail that calls the fixup. -/
def x86_64 : List Pattern := [
  pattern "fixup precode (jmp [rip]; mov r10; jmp [rip])" (relative 6 true false)
    (code [0xFF, 0x25] ++ target 4 ++ code [0x4C, 0x8B, 0x15] ++ operand 4 ++ code [0xFF, 0x25] ++
      operand 4),
  pattern "fixup precode tail (mov r10, [rip]; jmp [rip])" (relative 13 true true)
    (code [0x4C, 0x8B, 0x15] ++ operand 4 ++ code [0xFF, 0x25] ++ target 4),
  pattern "fixup precode (call rel32; pop rsi)" (relative 5 false true)
    (code [0xE8] ++ target 4 ++ code [0x5E]),
  pattern "stub precode (mov r10, imm64; jmp rel32)" (relative 15 false false)
    (code [0x49, 0xBA] ++ operand 8 ++ code [0xE9] ++ target 4),
  pattern "mov rax, imm64; jmp rax" ⟨⟨.abs64, false, false⟩, 0⟩
    (code [0x48, 0xB8] ++ target 8 ++ code [0xFF, 0xE0]),
  pattern "jmp [rip+disp32]" (relative 6 true false) (code [0xFF, 0x25] ++ target 4),
  pattern "jmp rel32" (relative 5 false false) (code [0xE9] ++ target 4)]

def x86 : List Pattern := [
  pattern "jmp rel32" (relative 5 false false) (code [0xE9] ++ target 4),
  pattern "jmp [abs32]" ⟨⟨.abs32, true, false⟩, 0⟩ (code [0xFF, 0x25] ++ target 4),
  pattern "mov eax, imm32; jmp eax" ⟨⟨.abs32, false, false⟩, 0⟩
    (code [0xB8] ++ target 4 ++ code [0xFF, 0xE0])]

def aarch64 : List Pattern := [
  pattern "ldr x16, #8; br x16" ⟨⟨.abs64, false, false⟩, 0⟩
    (code [0x50, 0x00, 0x00, 0x58, 0x00, 0x02, 0x1F, 0xD6] ++ target 8),
  pattern "ldr x17, #8; br x17" ⟨⟨.abs64, false, false⟩, 0⟩
    (code [0x51, 0x00, 0x00, 0x58, 0x20, 0x02, 0x1F, 0xD6] ++ target 8)]

end Thunk

def Isa.thunks : Isa → Collection
  | x86 => .ofList Thunk.x86
  | x86_64 => .ofList Thunk.x86_64
  | aarch64 => .ofList Thunk.aarch64

structure ProxyStub where
  template : Bytes
  indexOffset : Nat
  /-- The field holds the distance of the slot in bytes instead of its index. -/
  premultiplied : Bool
  deriving DecidableEq, Repr

def ProxyStub.ofCode (code : Bytes) : ProxyStub where
  template := code ++ [0, 0, 0, 0] ++ List.replicate (12 - code.length) 0xCC
  indexOffset := code.length
  premultiplied := true

/-- The receiver is replaced by the object it wraps, whose virtual table is then jumped through.
The receiver's register is the convention's first. -/
def Isa.proxyStub? (isa : Isa) (os : OsKind) : Option ProxyStub :=
  match isa with
  | x86_64 =>
    if os = .windows then some (.ofCode [0x48, 0x8B, 0x49, 0x08, 0x48, 0x8B, 0x01, 0xFF, 0xA0])
    else some (.ofCode [0x48, 0x8B, 0x7F, 0x08, 0x48, 0x8B, 0x07, 0xFF, 0xA0])
  | x86 => some (.ofCode [0x8B, 0x49, 0x04, 0x8B, 0x01, 0xFF, 0xA0])
  | aarch64 => none

end Interpose
