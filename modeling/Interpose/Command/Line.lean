import Interpose.Command.Options
import Interpose.Kind
import Interpose.Text.Hex

/-!
# Command lines

The commands of the tool and the words that ask for them.
-/

namespace Interpose

inductive ByteSource where
  | typed (text : String)
  | file (path : String)
  deriving DecidableEq, Repr

inductive Command where
  | info (config : Option String)
  | patterns (arch : ArchKind) (exportPath : Option String)
  | scan (arch : ArchKind) (source : ByteSource) (base : String) (signatures : Option String)
      (search : Bool)
  | encode (arch : ArchKind) (source target : String) (limit : Option Nat)
  deriving DecidableEq, Repr

namespace Command

def readLimit? (text : String) : Option Nat := (Text.readNumber 10 wordLimit text.toList).toOption

def anyText (_ : String) : Bool := true

def isPath (text : String) : Bool := !text.isEmpty

def archOption : OptionSpec :=
  .value "arch" (some 'a') fun text => (ArchKind.ofName? text).isSome

def archOf (given : Given) : ArchKind :=
  ((given.lookup "arch").bind ArchKind.ofName?).getD .x86_64

def need (given : Given) (name : String) : Except Stop String :=
  match given.lookup name with
  | some text => .ok text
  | none => .error (.missingOption name)

def readInfo (words : List String) : Except Stop Command := do
  let given ← readOptions [.value "config" (some 'c') isPath] words []
  pure (info (given.lookup "config"))

def readPatterns (words : List String) : Except Stop Command := do
  let given ← readOptions [archOption, .value "export" (some 'e') isPath] words []
  pure (patterns (archOf given) (given.lookup "export"))

def readScan (words : List String) : Except Stop Command := do
  let given ← readOptions [archOption, .value "hex" none anyText, .value "file" none isPath,
    .value "base" (some 'b') anyText, .value "signatures" (some 's') isPath, .flag "search"] words []
  let source ← match given.lookup "hex", given.lookup "file" with
    | some _, some _ => throw (Stop.conflict "hex" "file")
    | some text, none => pure (ByteSource.typed text)
    | none, some path => pure (ByteSource.file path)
    | none, none => throw (Stop.missingOption "hex")
  pure (scan (archOf given) source ((given.lookup "base").getD "0x0") (given.lookup "signatures")
    (given.lookup "search").isSome)

def readEncode (words : List String) : Except Stop Command := do
  let given ← readOptions [archOption, .value "from" none anyText, .value "to" none anyText,
    .value "max-size" none fun text => (readLimit? text).isSome] words []
  pure (encode (archOf given) (← need given "from") (← need given "to")
    ((given.lookup "max-size").bind readLimit?))

/-- Help is about the tool or about one command. -/
def readHelp : List String → Stop
  | [] => .help
  | [topic] =>
    if ["info", "patterns", "scan", "encode", "help"].contains topic then .help
    else .unknownCommand topic
  | _ :: word :: _ => .unknownCommand word

def read : List String → Except Stop Command
  | [] => .error .noCommand
  | "info" :: words => readInfo words
  | "patterns" :: words => readPatterns words
  | "scan" :: words => readScan words
  | "encode" :: words => readEncode words
  | "help" :: words => .error (readHelp words)
  | word :: _ =>
    match word.toList with
    | ['-', '-'] => .error .noCommand
    | '-' :: 'h' :: _ => .error .help
    | '-' :: 'V' :: _ => .error .version
    | _ =>
      if word = "--help" then .error .help
      else if word = "--version" then .error .version
      else if word.startsWith "-" then .error (.unknownOption word)
      else .error (.unknownCommand word)

end Command

end Interpose
