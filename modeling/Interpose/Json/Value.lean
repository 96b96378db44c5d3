import Interpose.Text.Hex

/-!
# JSON values and their indented text

A value keeps what readers of records ask for: natural numbers below 2^64 keep their value, other
numbers only that they are numbers. A string whose escapes name half a surrogate pair denotes no
text, and its content is `none`.
-/

namespace Interpose

inductive Json where
  | null
  | bool (value : Bool)
  | natural (value : Nat)
  | otherNumber
  | string (text : Option String)
  | array (items : List Json)
  | object (fields : List (Option String × Json))
  deriving Repr

namespace Json

def text (s : String) : Json := .string (some s)

def record (fields : List (String × Json)) : Json :=
  .object (fields.map fun f => (some f.1, f.2))

def quoteChar (c : Char) : List Char :=
  match c with
  | '"' => ['\\', '"']
  | '\\' => ['\\', '\\']
  | '\x08' => ['\\', 'b']
  | '\x0c' => ['\\', 'f']
  | '\n' => ['\\', 'n']
  | '\r' => ['\\', 'r']
  | '\t' => ['\\', 't']
  | c =>
    if c.toNat < 0x20 then
      ['\\', 'u', '0', '0', Char.ofNat (48 + c.toNat / 16), (Text.hexDigit (c.toNat % 16)).toLower]
    else [c]

def quote (s : String) : List Char := '"' :: s.toList.flatMap quoteChar ++ ['"']

def lineBreak (level : Nat) : List Char := '\n' :: List.replicate (2 * level) ' '

mutual

/-- The text of a value, two blanks deeper for each level, one entry a line. -/
def render (level : Nat) : Json → List Char
  | null => "null".toList
  | bool value => (if value then "true" else "false").toList
  | natural value => (toString value).toList
  | otherNumber => "0.0".toList
  | string s => quote (s.getD "")
  | array [] => ['[', ']']
  | array (item :: items) =>
    '[' :: lineBreak (level + 1) ++ render (level + 1) item ++ renderItems (level + 1) items ++
      lineBreak level ++ [']']
  | object [] => ['\x7b', '\x7d']
  | object ((key, value) :: fields) =>
    '\x7b' :: lineBreak (level + 1) ++ quote (key.getD "") ++ [':', ' '] ++
      render (level + 1) value ++ renderFields (level + 1) fields ++ lineBreak level ++ ['\x7d']

def renderItems (level : Nat) : List Json → List Char
  | [] => []
  | item :: items => ',' :: lineBreak level ++ render level item ++ renderItems level items

def renderFields (level : Nat) : List (Option String × Json) → List Char
  | [] => []
  | (key, value) :: fields =>
    ',' :: lineBreak level ++ quote (key.getD "") ++ [':', ' '] ++ render level value ++
      renderFields level fields

end

def pretty (value : Json) : String := String.ofList (render 0 value)

end Json

end Interpose
