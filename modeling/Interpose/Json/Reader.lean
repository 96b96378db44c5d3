import Interpose.Json.Value

/-!
# Reading JSON

A reader for one JSON text. Each part takes characters from the front and gives what is left. The
bound on nesting is the length of the text, which no nesting can exceed.
-/

namespace Interpose.Json

def skipBlanks (text : List Char) : List Char :=
  text.dropWhile fun c => c == ' ' || c == '\n' || c == '\t' || c == '\r'

def readHex4 : List Char → Option (Nat × List Char)
  | a :: b :: c :: d :: rest => do
    let value ← [a, b, c, d].foldlM (fun n x => (Text.digit? 16 x).map (16 * n + ·)) 0
    pure (value, rest)
  | _ => none

/-- The characters of a string behind its opening quote. Half of a surrogate pair on its own
leaves no content. -/
def readString : (fuel : Nat) → List Char → Option (Option (List Char) × List Char)
  | 0, _ => none
  | _, [] => none
  | fuel + 1, c :: rest =>
    let put (x : Option Char) (rest : List Char) : Option (Option (List Char) × List Char) := do
      let (tail, rest) ← readString fuel rest
      pure ((do pure ((← x) :: (← tail))), rest)
    if c = '"' then some (some [], rest)
    else if c = '\\' then
      match rest with
      | '"' :: rest => put (some '"') rest
      | '\\' :: rest => put (some '\\') rest
      | '/' :: rest => put (some '/') rest
      | 'b' :: rest => put (some '\x08') rest
      | 'f' :: rest => put (some '\x0c') rest
      | 'n' :: rest => put (some '\n') rest
      | 'r' :: rest => put (some '\r') rest
      | 't' :: rest => put (some '\t') rest
      | 'u' :: rest =>
        match readHex4 rest with
        | none => none
        | some (high, rest) =>
          if 0xD800 ≤ high ∧ high < 0xDC00 then
            match rest with
            | '\\' :: 'u' :: low =>
              match readHex4 low with
              | some (low, after) =>
                if 0xDC00 ≤ low ∧ low < 0xE000 then
                  put (some (Char.ofNat (0x10000 + (high - 0xD800) * 0x400 + (low - 0xDC00)))) after
                else put none rest
              | none => none
            | _ => put none rest
          else if 0xDC00 ≤ high ∧ high < 0xE000 then put none rest
          else put (some (Char.ofNat high)) rest
      | _ => none
    else if c.toNat < 0x20 then none
    else put (some c) rest

def readDigits1 (text : List Char) : Option (List Char × List Char) :=
  let digits := text.takeWhile Char.isDigit
  if digits.isEmpty then none else some (digits, text.dropWhile Char.isDigit)

def readFraction : List Char → Option (Bool × List Char)
  | '.' :: rest => (readDigits1 rest).map fun r => (true, r.2)
  | text => some (false, text)

def readExponent : List Char → Option (Bool × List Char)
  | e :: rest =>
    if e = 'e' ∨ e = 'E' then
      let rest := match rest with
        | '+' :: digits | '-' :: digits => digits
        | digits => digits
      (readDigits1 rest).map fun r => (true, r.2)
    else some (false, e :: rest)
  | [] => some (false, [])

def naturalOf (digits : List Char) : Nat :=
  digits.foldl (fun n c => 10 * n + (c.toNat - 48)) 0

def readNumber (text : List Char) : Option (Json × List Char) := do
  let (negative, text) := match text with
    | '-' :: rest => (true, rest)
    | text => (false, text)
  let (digits, rest) ← readDigits1 text
  if digits.head? = some '0' ∧ digits.length > 1 then none
  else
    let (fraction, rest) ← readFraction rest
    let (exponent, rest) ← readExponent rest
    let value := naturalOf digits
    if negative || fraction || exponent || wordLimit ≤ value then pure (.otherNumber, rest)
    else pure (.natural value, rest)

def expect (word : String) (text : List Char) : Option (List Char) :=
  if word.toList.isPrefixOf text then some (text.drop word.length) else none

mutual

def readValue : (fuel : Nat) → List Char → Option (Json × List Char)
  | 0, _ => none
  | fuel + 1, text =>
    match skipBlanks text with
    | [] => none
    | '"' :: rest => do
      let (content, rest) ← readString (rest.length + 1) rest
      pure (.string (content.map String.ofList), rest)
    | '[' :: rest =>
      match skipBlanks rest with
      | ']' :: rest => some (.array [], rest)
      | rest => (readItems fuel rest).map fun r => (.array r.1, r.2)
    | '\x7b' :: rest =>
      match skipBlanks rest with
      | '\x7d' :: rest => some (.object [], rest)
      | rest => (readFields fuel rest).map fun r => (.object r.1, r.2)
    | 't' :: rest => (expect "rue" rest).map fun rest => (.bool true, rest)
    | 'f' :: rest => (expect "alse" rest).map fun rest => (.bool false, rest)
    | 'n' :: rest => (expect "ull" rest).map fun rest => (.null, rest)
    | text => readNumber text

def readItems : (fuel : Nat) → List Char → Option (List Json × List Char)
  | 0, _ => none
  | fuel + 1, text => do
    let (item, rest) ← readValue fuel text
    match skipBlanks rest with
    | ']' :: rest => pure ([item], rest)
    | ',' :: rest => do
      let (items, rest) ← readItems fuel rest
      pure (item :: items, rest)
    | _ => none

def readFields : (fuel : Nat) → List Char → Option (List (Option String × Json) × List Char)
  | 0, _ => none
  | fuel + 1, text =>
    match skipBlanks text with
    | '"' :: rest => do
      let (key, rest) ← readString (rest.length + 1) rest
      match skipBlanks rest with
      | ':' :: rest => do
        let (value, rest) ← readValue fuel rest
        let field := (key.map String.ofList, value)
        match skipBlanks rest with
        | '\x7d' :: rest => pure ([field], rest)
        | ',' :: rest => do
          let (fields, rest) ← readFields fuel rest
          pure (field :: fields, rest)
        | _ => none
      | _ => none
    | _ => none

end

def parse? (text : String) : Option Json := do
  let (value, rest) ← readValue (2 * text.length + 2) text.toList
  if (skipBlanks rest).isEmpty then some value else none

/-- What a record gives for its fields: the value where the field is present. -/
def fieldsOf? (names : List String) : Json → Option (List (Option Json))
  | object fields =>
    if fields.any (·.1.isNone) then none
    else names.mapM fun name =>
      match fields.filter (·.1 == some name) with
      | [] => some none
      | [(_, value)] => some (some value)
      | _ => none
  | array items =>
    if items.length ≤ names.length then
      some (items.map some ++ List.replicate (names.length - items.length) none)
    else none
  | _ => none

def string? : Json → Option String
  | string s => s
  | _ => none

def bool? : Json → Option Bool
  | bool b => some b
  | _ => none

def natural? : Json → Option Nat
  | natural n => some n
  | _ => none

def array? : Json → Option (List Json)
  | array items => some items
  | _ => none

/-- The name of a bare alternative: a string, or an object with that one field and no content. -/
def alternative? : Json → Option String
  | string s => s
  | object [(name, null)] => name
  | _ => none

end Interpose.Json
