import Interpose.Text.HexInput

/-!
# Reports

What a command prints, and how it ends. Lines printed before a failure stay printed.
-/

namespace Interpose

structure Outcome where
  code : Nat
  stdout : List String := []
  stderr : List String := []
  exported : Option (String × String) := none
  deriving DecidableEq, Repr

abbrev Report := EStateM ToolFailure (List String)

namespace Report

def line (text : String) : Report Unit := modify (· ++ [text])

def engine {α : Type} (x : Attempt α) : Report α := fun lines =>
  match x with
  | .ok a => .ok a lines
  | .error why => .error (.engine why) lines

def input {α : Type} (x : Except ToolFailure α) : Report α := fun lines =>
  match x with
  | .ok a => .ok a lines
  | .error why => .error why lines

end Report

namespace Paint

def between (opening closing : Nat) (text : String) : String :=
  s!"\x1b[{opening}m{text}\x1b[{closing}m"

def bold : String → String := between 1 0

def dimmed : String → String := between 2 0

def green : String → String := between 32 39

def yellow : String → String := between 33 39

end Paint

namespace ToolFailure

/-- What is told about a failure: the message, and what caused it where that is another error. -/
def lines : ToolFailure → List String
  | input why => ["Error: " ++ why.message]
  | file why => ["Error: " ++ why.message]
  | engine (.refused (.file why)) =>
    ["Error: " ++ (Error.file why).message, "", "Caused by:", "    " ++ why.message]
  | engine (.refused why) => ["Error: " ++ why.message]
  | engine .fault => ["arithmetic out of range"]

/-- Faults end a program in another way than errors. -/
def code : ToolFailure → Nat
  | engine .fault => 101
  | _ => 1

end ToolFailure

namespace Outcome

def ofReport (report : Report (Option (String × String))) : Outcome :=
  match report [] with
  | .ok exported lines => { code := 0, stdout := lines, exported }
  | .error why lines => { code := why.code, stdout := lines, stderr := why.lines }

def settle (outcome : Outcome) (written : Except FileFlaw Unit) : Outcome :=
  match written with
  | .ok () => outcome
  | .error why =>
    let failure : ToolFailure := .engine (.refused (.file why))
    { outcome with code := failure.code, stderr := failure.lines, exported := none }

end Outcome

end Interpose
