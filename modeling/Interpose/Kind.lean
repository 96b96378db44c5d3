import Interpose.Text.Blank

/-!
# What a platform is made of

Instruction sets, operating systems and execution engines, with the names they are shown and
recognised by. Recognition ignores the case of letters.
-/

namespace Interpose

inductive ArchKind where
  | x86
  | x86_64
  | arm
  | aarch64
  deriving DecidableEq, Repr

inductive OsKind where
  | linux
  | windows
  | macOs
  | freeBsd
  | unknown
  deriving DecidableEq, Repr

inductive RuntimeKind where
  | native
  | coreClr
  | mono
  | framework
  deriving DecidableEq, Repr

inductive RedirectKind where
  | rel32
  /-- A jump through an absolute target stored behind it. -/
  | abs64Indirect
  /-- A near relative jump to a stub that holds an absolute jump. -/
  | rel32ViaStub
  | branch26
  /-- A branch through a register loaded from the word behind it. -/
  | literalBranch
  deriving DecidableEq, Repr

def RedirectKind.name : RedirectKind → String
  | rel32 => "Rel32"
  | abs64Indirect => "Abs64Indirect"
  | rel32ViaStub => "Rel32ViaStub"
  | branch26 => "Branch26"
  | literalBranch => "LiteralBranch"

/-- The first entry whose name agrees with `text` up to case. -/
def lookupName? {α : Type} (table : List (String × α)) (text : String) : Option α :=
  (table.find? fun entry => Text.sameLetters entry.1 text).map (·.2)

namespace ArchKind

def name : ArchKind → String
  | x86 => "x86"
  | x86_64 => "x86_64"
  | arm => "arm"
  | aarch64 => "aarch64"

def ofName? (text : String) : Option ArchKind :=
  lookupName? [("x86", x86), ("x86_64", x86_64), ("amd64", x86_64), ("x64", x86_64), ("arm", arm),
    ("aarch64", aarch64), ("arm64", aarch64)] text

def tag : ArchKind → String
  | x86 => "X86"
  | x86_64 => "X86_64"
  | arm => "Arm"
  | aarch64 => "Aarch64"

def ofTag? (text : String) : Option ArchKind :=
  [x86, x86_64, arm, aarch64].find? fun kind => kind.tag == text

def pointerSize : ArchKind → Nat
  | x86 | arm => 4
  | x86_64 | aarch64 => 8

end ArchKind

namespace OsKind

def name : OsKind → String
  | linux => "linux"
  | windows => "windows"
  | macOs => "macos"
  | freeBsd => "freebsd"
  | unknown => "unknown"

def ofName? (text : String) : Option OsKind :=
  lookupName? [("linux", linux), ("windows", windows), ("macos", macOs), ("freebsd", freeBsd),
    ("unknown", unknown)] text

def tag : OsKind → String
  | linux => "Linux"
  | windows => "Windows"
  | macOs => "MacOs"
  | freeBsd => "FreeBsd"
  | unknown => "Unknown"

def ofTag? (text : String) : Option OsKind :=
  [linux, windows, macOs, freeBsd, unknown].find? fun kind => kind.tag == text

end OsKind

namespace RuntimeKind

def name : RuntimeKind → String
  | native => "native"
  | coreClr => "coreclr"
  | mono => "mono"
  | framework => "framework"

def ofName? (text : String) : Option RuntimeKind :=
  lookupName? [("native", native), ("coreclr", coreClr), ("mono", mono),
    ("framework", framework)] text

def ofTag? (text : String) : Option RuntimeKind :=
  [native, coreClr, mono, framework].find? fun kind => kind.name == text

end RuntimeKind

end Interpose
