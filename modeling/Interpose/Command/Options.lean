import Interpose.Text.Blank

/-!
# Command line options

An option has a long name and perhaps a letter. Its value follows as the next word or behind an
equals sign; behind a letter it may follow directly. A word with a leading hyphen is no value
unless it is only the hyphen. No option is given twice, and there are no other words.
-/

namespace Interpose.Command

inductive OptionSpec where
  | flag (name : String)
  | value (name : String) (letter : Option Char) (accepts : String → Bool)

namespace OptionSpec

def name : OptionSpec → String
  | flag name => name
  | value name _ _ => name

def letter? : OptionSpec → Option Char
  | flag _ => none
  | value _ letter _ => letter

end OptionSpec

inductive Stop where
  | help
  | version
  | unknownOption (word : String)
  | unknownCommand (word : String)
  | unexpectedWord (word : String)
  | unexpectedValue (option : String)
  | missingValue (option : String)
  | badValue (option text : String)
  | repeated (option : String)
  | missingOption (option : String)
  | conflict (first second : String)
  | noCommand
  deriving DecidableEq, Repr

abbrev Given := List (String × String)

def record (spec : OptionSpec) (text : String) (given : Given) : Except Stop Given :=
  match spec with
  | .flag name =>
    if (given.lookup name).isSome then .error (.repeated name) else .ok (given ++ [(name, text)])
  | .value name _ accepts =>
    if (given.lookup name).isSome then .error (.repeated name)
    else if accepts text then .ok (given ++ [(name, text)])
    else .error (.badValue name text)

def isValueWord (word : String) : Bool := !(word.startsWith "-") || word == "-"

/-- A word in front of the first equals sign, and the text behind it if there is one. -/
def splitEquals (text : List Char) : String × Option String :=
  (String.ofList (text.takeWhile (· ≠ '=')),
    ((text.dropWhile (· ≠ '=')).tail?).map String.ofList)

/-- What one word gives: an option with its value in place, or one that waits for a value. -/
inductive WordReading where
  | complete (spec : OptionSpec) (text : String)
  | pending (spec : OptionSpec)

def readLong (specs : List OptionSpec) (text : List Char) : Except Stop WordReading :=
  let (name, value?) := splitEquals text
  match specs.find? fun spec => spec.name == name with
  | some (.flag name) =>
    if value?.isSome then .error (.unexpectedValue name) else .ok (.complete (.flag name) "")
  | some spec =>
    match value? with
    | some value => .ok (.complete spec value)
    | none => .ok (.pending spec)
  | none =>
    if name = "help" then
      if value?.isSome then .error (.unexpectedValue name) else .error .help
    else .error (.unknownOption name)

def readShort (specs : List OptionSpec) (letter : Char) (rest : List Char) :
    Except Stop WordReading :=
  match specs.find? fun spec => spec.letter? == some letter with
  | some spec =>
    match rest with
    | [] => .ok (.pending spec)
    | '=' :: value | value => .ok (.complete spec (String.ofList value))
  | none => if letter = 'h' then .error .help else .error (.unknownOption (String.singleton letter))

def readWord (specs : List OptionSpec) (word : String) : Except Stop WordReading :=
  match word.toList with
  | '-' :: '-' :: text => readLong specs text
  | '-' :: letter :: rest => readShort specs letter rest
  | _ => .error (.unexpectedWord word)

/-- The options that words give. Two hyphens end the options, and nothing may follow them. -/
def readOptions (specs : List OptionSpec) : List String → Given → Except Stop Given
  | [], given => .ok given
  | "--" :: rest, given =>
    match rest with
    | [] => .ok given
    | word :: _ => .error (.unexpectedWord word)
  | word :: rest, given =>
    match readWord specs word with
    | .error stop => .error stop
    | .ok (.complete spec text) => do readOptions specs rest (← record spec text given)
    | .ok (.pending spec) =>
      match rest with
      | [] => .error (.missingValue spec.name)
      | value :: rest =>
        if isValueWord value then do readOptions specs rest (← record spec value given)
        else .error (.missingValue spec.name)

end Interpose.Command
