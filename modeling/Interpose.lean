import Interpose.Arch.Isa
import Interpose.Arch.Redirect
import Interpose.Call.Abi
import Interpose.Call.Glue
import Interpose.Call.Method
import Interpose.Call.TypeRef
import Interpose.Command.Line
import Interpose.Command.Options
import Interpose.Command.Report
import Interpose.Command.Run
import Interpose.Config.Settings
import Interpose.Config.Sources
import Interpose.Engine.AltEntry
import Interpose.Engine.Detour
import Interpose.Engine.HostPlatform
import Interpose.Engine.Platform
import Interpose.Engine.Runtime
import Interpose.Engine.StubPage
import Interpose.Engine.Walk
import Interpose.Failure
import Interpose.Features
import Interpose.Json.Reader
import Interpose.Json.Value
import Interpose.Kind
import Interpose.Main
import Interpose.Memory.Host
import Interpose.Memory.Request
import Interpose.Memory.Scratch
import Interpose.Memory.Space
import Interpose.Memory.System
import Interpose.Pattern.Basic
import Interpose.Pattern.ByteSet
import Interpose.Pattern.Collection
import Interpose.Pattern.Match
import Interpose.Pattern.Scan
import Interpose.Pattern.Signature
import Interpose.Pattern.Text
import Interpose.Proofs.Action
import Interpose.Proofs.Memory.Layout
import Interpose.Table
import Interpose.Text.Blank
import Interpose.Text.Hex
import Interpose.Text.HexInput
import Interpose.Text.Printable
import Interpose.Text.Quoted
import Interpose.Text.Reader
import Interpose.Toml.Document
import Interpose.Toml.Reader
import Interpose.Toml.Value
import Interpose.Word
import Interpose.X86.Form
import Interpose.X86.Instruction
import Interpose.X86.Layout
import Interpose.X86.OneByte
import Interpose.X86.TwoByte
import Interpose.X86.Vex
import Interpose.Call.Record
import Interpose.Proofs.Memory.View
import Interpose.Proofs.Memory.Allocation
import Interpose.Proofs.Memory.Placement
import Interpose.Proofs.Memory.Heap
import Interpose.Proofs.Memory.Extension
import Interpose.Proofs.Arch.Encoding
import Interpose.Proofs.Engine.AltEntry
import Interpose.Proofs.Engine.Detour
import Interpose.Proofs.Engine.Session
import Interpose.Proofs.Pattern.Filing
import Interpose.Proofs.Pattern.Scan
import Interpose.Proofs.Arch.Transfer
import Interpose.Proofs.Engine.Walk
import Interpose.Proofs.Call.Glue
import Interpose.Proofs.Engine.StubPage
import Interpose.Proofs.Engine.Film
import Interpose.Proofs.Engine.Standing
import Interpose.Proofs.Engine.Filmed
import Interpose.Proofs.Engine.Aim
import Interpose.Proofs.Pattern.Text
import Interpose.Proofs.Pattern.Export
import Interpose.Proofs.Pattern.Front
import Interpose.Proofs.Engine.Failing
import Interpose.Proofs.X86.Layout
import Interpose.Proofs.Memory.Log
import Interpose.Proofs.Memory.Reading
import Interpose.Proofs.Engine.Targets
import Interpose.Proofs.Engine.Handed
import Interpose.Proofs.Engine.Recognition
import Interpose.Proofs.Pattern.Match
import Interpose.Proofs.Pattern.AtStart
import Interpose.Proofs.Engine.Course
import Interpose.Proofs.Pattern.Window
import Interpose.Proofs.Engine.Cycle
import Interpose.Proofs.Engine.Budget
import Interpose.Proofs.Engine.Prestub
import Interpose.Proofs.Call.Direct
import Interpose.Proofs.Engine.Unfilled
import Interpose.Proofs.Arch.Branch
import Interpose.Proofs.Engine.Proxy
import Interpose.Proofs.Memory.Readable
import Interpose.Proofs.Engine.Relocation
import Interpose.Proofs.Memory.Extent
import Interpose.Proofs.Pattern.Loaded
import Interpose.Proofs.Text.HexInput
import Interpose.Proofs.Pattern.Listing
