import Interpose.Command.Line
import Interpose.Command.Report
import Interpose.Config.Sources
import Interpose.Engine.AltEntry
import Interpose.Engine.HostPlatform
import Interpose.Pattern.Scan

/-!
# Running commands

What each command prints.
-/

namespace Interpose.Command

open Report Paint

def version : String := "shunt 0.2.0"

def infoReport (around : Surroundings) (config : Option String) : Report Unit := do
  let settings ← engine <| match config with
    | some path => Settings.load (around.contentOf path)
    | none => Settings.ofEnvironment around
  let p ← engine (Platform.ofHost settings)
  line (bold "Platform triple")
  line s!"  Architecture: {green p.isa.kind.name}"
  line s!"  System:       {green p.system.os.name}"
  line s!"  Runtime:      {green p.runtime.kind.name}"
  line s!"  Features:     {p.features.display}"
  line ""
  let order := ", ".intercalate (p.abi.argumentOrder.map Slot.name)
  line (bold "Calling convention")
  line s!"  Argument order:   {order}"
  line s!"  Classifier:       {p.abi.classifier.name}"
  line s!"  Returns buffer:   {p.abi.returnsReturnBuffer}"
  line ""
  line (bold "Memory")
  line s!"  Max allocation:   0x{Text.hex p.system.maxAllocation} bytes"
  let guardText := match p.system.guard with
    | some alignment => yellow "enabled" ++ s!" (alignment {alignment})"
    | none => dimmed "disabled"
  line s!"  Control Flow Guard: {guardText}"
  line ""
  line (bold "Detours")
  line s!"  Known thunks:     {p.isa.thunks.size}"
  line s!"  Alternate entry:  {p.isa.relocator?.isSome}"
  let stubText := match p.isa.proxyStub? p.system.os with
    | some stub => s!"{stub.template.length} bytes"
    | none => dimmed "unavailable"
  line s!"  Vtable proxy stub: {stubText}"
  line ""
  line (bold "Engine config")
  line s!"  Walk limit:       {p.settings.walkLimit}"
  line s!"  Create alt entry: {p.settings.createAltEntry}"
  match p.settings.readLimit with
  | some limit => line s!"  Thunk read limit: {limit}"
  | none => pure ()

def marks (s : Signature) : List String :=
  [s.address.kind.encoding.name] ++ (if s.address.kind.indirect then ["indirect"] else []) ++
    (if s.address.kind.precodeFixup then ["precode"] else []) ++
    (if s.atStart then ["anchored"] else [])

def signatureReport (s : Signature) : Report Unit := do
  line ""
  line s!"  {green s.name}"
  line s!"    {s.pattern}"
  let shown := dimmed (", ".intercalate (marks s))
  line s!"    {shown} (relative to +{s.address.relativeTo.toNat})"

def patternsReport (arch : ArchKind) (exportPath : Option String) :
    Report (Option (String × String)) := do
  let isa ← engine (Isa.ofKind arch)
  let set := SignatureSet.ofCollection arch.name isa.thunks
  match exportPath with
  | some path => pure (some (path, set.format))
  | none => do
    line s!"{set.signatures.length} thunk patterns for {bold arch.name}"
    set.signatures.forM signatureReport
    pure none

def bytesOf (around : Surroundings) : ByteSource → Except ToolFailure Bytes
  | .typed text => Text.readBytes text
  | .file path =>
    match around.contentOf path with
    | .ok bytes => .ok bytes
    | .error why => .error (.file why)

def findingReport (base : Address) (data : Bytes) (found : Finding) : Report Unit := do
  line (green "Matched" ++ " " ++ bold found.pattern.name)
  let place ← engine (base.plus found.offset)
  line s!"  At:      0x{Text.hex place} (+{found.offset})"
  line s!"  Bytes:   {Text.hexPairs ((data.drop found.offset).take found.length)}"
  match found.target with
  | some target =>
    if target ≠ found.decoded then
      line s!"  Target:  {Text.address target} (through [{Text.address found.decoded}])"
    else line s!"  Target:  {Text.address target}"
  | none =>
    let note := dimmed "(pointer outside scanned bytes)"
    line s!"  Target:  [{Text.address found.decoded}] {note}"
  if found.pattern.meaning.kind.precodeFixup then
    line ("  " ++ yellow "Jumps into a precode fixup routine")

def scanReport (around : Surroundings) (arch : ArchKind) (source : ByteSource) (baseText : String)
    (signatures : Option String) (search : Bool) : Report Unit := do
  let data ← input (bytesOf around source)
  let base ← input (Text.readAddress baseText)
  let patterns ← match signatures with
    | some path => do
      let text ← engine (Settings.textOf (around.contentOf path))
      let set ← engine (SignatureSet.parse text)
      engine set.toCollection
    | none => do pure (← engine (Isa.ofKind arch)).thunks
  line s!"Scanning {data.length} bytes at {Text.address base} against {patterns.size} patterns"
  match ← engine (patterns.scan ⟨base, data⟩ search) with
  | none => line (yellow "No thunk pattern matched")
  | some found => findingReport base data found

/-- Shows the bytes of a redirect. A stub it needs is made in the host's memory to be shown. -/
def encodeReport (arch : ArchKind) (sourceText targetText : String) (limit : Option Nat) :
    Report Unit := do
  let source ← input (Text.readAddress sourceText)
  let target ← input (Text.readAddress targetText)
  let isa ← engine (Isa.ofKind arch)
  let redirect ← engine (isa.plan source target limit)
  let (bytes, stub) ← engine <|
    match isa.encode Host.system redirect maxRedirectSize {} with
    | .ok made _ => .ok made
    | .error why _ => .error why
  line s!"Detour {Text.address source} -> {Text.address target} on {bold arch.name}"
  line s!"  Kind:  {green redirect.kind.name}"
  line s!"  Size:  {bytes.length} bytes"
  line s!"  Bytes: {Text.hexPairs bytes}"
  match stub with
  | some stub =>
    let note := dimmed "(allocated in this process for illustration)"
    let place ← engine stub.display
    line s!"  Stub:  {place} {note}"
  | none => pure ()

def report (around : Surroundings) : Command → Report (Option (String × String))
  | info config => do infoReport around config; pure none
  | patterns arch path => patternsReport arch path
  | scan arch source base signatures search => do
    scanReport around arch source base signatures search
    pure none
  | encode arch source target limit => do encodeReport arch source target limit; pure none

def Stop.outcome : Stop → Outcome
  | help => { code := 0, stdout := ["Usage: shunt <info|patterns|scan|encode> [options]"] }
  | version => { code := 0, stdout := [Command.version] }
  | _ => { code := 2, stderr := ["error: these arguments make no command; try 'shunt --help'"] }

def run (around : Surroundings) (words : List String) : Outcome :=
  match read words with
  | .error stop => stop.outcome
  | .ok command => .ofReport (command.report around)

def inputPaths (lookup : String → Option String) : Command → List String
  | info config => (config <|> lookup "SHUNT_CONFIG").toList
  | patterns _ _ => []
  | scan _ source _ signatures _ =>
    (match source with
      | .file path => [path]
      | .typed _ => []) ++ signatures.toList
  | encode _ _ _ _ => []

end Interpose.Command
