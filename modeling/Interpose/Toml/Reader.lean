import Interpose.Text.Hex
import Interpose.Text.Reader
import Interpose.Toml.Value

/-!
# Reading TOML values

Keys, strings, numbers, moments, arrays and inline tables. Values nest to a bounded depth.
-/

namespace Interpose.Toml

open Text Text.Reader

def isBlankMark (c : Char) : Bool := c == ' ' || c == '\t'

def isPlain (c : Char) : Bool := c == '\t' || (0x20 ≤ c.toNat && c.toNat != 0x7F)

def blanks : Reader Unit := do let _ ← run isBlankMark

def newline : Reader Unit := word "\n" <|> word "\r\n"

def comment : Reader Unit := do
  word "#"
  let _ ← run isPlain

def lineEnd : Reader Unit := do
  blanks
  let _ ← Reader.optional comment
  newline <|> atEnd

/-- Blanks, comments and line ends between the items of an array. -/
def gap : Reader Unit := do
  blanks
  let _ ← many (do
    newline <|> (comment *> newline)
    blanks)

def codePoint (n : Nat) : Reader Char := do
  let digits ← count n n fun c => (digit? 16 c).isSome
  let value := digits.foldl (fun v c => 16 * v + (digit? 16 c).getD 0) 0
  if h : value.isValidChar then pure (Char.ofNatAux value h) else failure

def escape : Reader Char := do
  word "\\"
  match ← char fun _ => true with
  | 'b' => pure '\x08'
  | 't' => pure '\t'
  | 'n' => pure '\n'
  | 'f' => pure '\x0c'
  | 'r' => pure '\r'
  | '"' => pure '"'
  | '\\' => pure '\\'
  | 'u' => codePoint 4
  | 'U' => codePoint 8
  | _ => failure

def isBasic (c : Char) : Bool := isPlain c && c != '"' && c != '\\'

def isLiteral (c : Char) : Bool := isPlain c && c != '\''

def basicString : Reader String := do
  word "\""
  let content ← many (char isBasic <|> escape)
  word "\""
  pure (String.ofList content)

def literalString : Reader String := do
  word "'"
  let content ← run isLiteral
  word "'"
  pure (String.ofList content)

/-- One or two quotes inside a string that three quotes close. -/
def innerQuotes (quote : Char) (after : Reader Unit) : Reader (List Char) :=
  let one := String.singleton quote
  (do word (one ++ one); ahead after; pure [quote, quote]) <|>
    (do word one; ahead after; pure [quote])

/-- A string between triple quotes. A line end right behind the opening is not part of it, and up
to two quotes may stand before the closing. -/
def tripleQuoted (quote : Char) (piece : Reader (List Char)) : Reader String := do
  let delimiter := word (String.ofList [quote, quote, quote])
  delimiter
  let _ ← Reader.optional newline
  let other : Reader Unit := do let _ ← char (· != quote)
  let pieces ← many (piece <|> innerQuotes quote other)
  let final ← Reader.optional (innerQuotes quote delimiter)
  delimiter
  pure (String.ofList (pieces.flatten ++ final.getD []))

/-- A backslash at the end of a line joins it with the next text. -/
def lineJoin : Reader (List Char) := do
  word "\\"
  blanks
  newline
  let _ ← many (newline <|> do let _ ← char isBlankMark)
  pure []

def lineBreak : Reader (List Char) := do
  newline
  pure ['\n']

def basicBlock : Reader String :=
  tripleQuoted '"'
    ((do pure [← char isBasic]) <|> lineJoin <|> (do pure [← escape]) <|> lineBreak)

def literalBlock : Reader String :=
  tripleQuoted '\'' ((do pure [← char isLiteral]) <|> lineBreak)

def string : Reader String := basicBlock <|> basicString <|> literalBlock <|> literalString

def isBareKey (c : Char) : Bool := c.isAlphanum || c == '_' || c == '-'

def bareKey : Reader String := do pure (String.ofList (← many1 (char isBareKey)))

def depthLimit : Nat := 80

def key : Reader (List String × String) := do
  let parts ← separated (blanks *> (basicString <|> literalString <|> bareKey) <* blanks) (word ".")
  match parts.getLast? with
  | some last => if parts.length < depthLimit then pure (parts.dropLast, last) else failure
  | none => failure

def digits (accept : Char → Bool) : Reader (List Char) := do
  let first ← char accept
  let others ← many (char accept <|> (word "_" *> char accept))
  pure (first :: others)

def sign : Reader Bool := do pure ((← Reader.optional (char fun c => c == '+' || c == '-')) == some '-')

def valueOf (radix : Nat) (digits : List Char) : Nat :=
  digits.foldl (fun v c => radix * v + (digit? radix c).getD 0) 0

def decimal : Reader (Bool × List Char) := do
  let negative ← sign
  let first ← ahead (char (· == '0')) *> (do pure [← char (· == '0')]) <|> digits Char.isDigit
  pure (negative, first)

def based (lead : String) (radix : Nat) : Reader Int := do
  word lead
  let ds ← digits fun c => (digit? radix c).isSome
  pure (valueOf radix ds)

def integer : Reader Int := do
  let value ← based "0x" 16 <|> based "0o" 8 <|> based "0b" 2 <|> do
    let (negative, ds) ← decimal
    let value : Int := valueOf 10 ds
    pure (if negative then -value else value)
  if -9223372036854775808 ≤ value ∧ value ≤ 9223372036854775807 then pure value else failure

/-- Whether `m · 10 ^ e` is below the least number that rounds to infinity. -/
def isFinite (m : Nat) (e : Int) : Bool :=
  let limit := 1 <<< 1024 - 1 <<< 970
  let size : Int := (Nat.toDigits 10 m).length
  if m = 0 ∨ size + e < 300 then true
  else if 310 < size + e then false
  else if e < 0 then m < limit * Nat.pow 10 e.natAbs else m * Nat.pow 10 e.natAbs < limit

/-- A number with a fraction or an exponent. One too large to be told from infinity is refused,
unless it is negative. -/
def finiteFloat : Reader Unit := do
  let (negative, whole) ← decimal
  let exponent : Reader Int := do
    let _ ← char fun c => c == 'e' || c == 'E'
    let minus ← sign
    let e : Int := valueOf 10 (← digits Char.isDigit)
    pure (if minus then -e else e)
  let (fraction, e) ← (do pure (([] : List Char), ← exponent)) <|> (do
    word "."
    let fraction ← digits Char.isDigit
    pure (fraction, (← Reader.optional exponent).getD 0))
  let m := valueOf 10 (whole ++ fraction)
  if negative || isFinite m (e - fraction.length) then pure () else failure

def float : Reader Unit := finiteFloat <|> do
  let _ ← sign
  word "inf" <|> word "nan"

def pair (low high : Nat) : Reader Nat := do
  let value := valueOf 10 (← count 2 2 Char.isDigit)
  if low ≤ value ∧ value ≤ high then pure value else failure

def isLeapYear (year : Nat) : Bool := year % 4 == 0 && (year % 100 != 0 || year % 400 == 0)

def daysIn (year month : Nat) : Nat :=
  if month = 2 then if isLeapYear year then 29 else 28
  else if month = 4 ∨ month = 6 ∨ month = 9 ∨ month = 11 then 30
  else 31

def date : Reader Unit := do
  let year := valueOf 10 (← count 4 4 Char.isDigit)
  word "-"
  let month ← pair 1 12
  word "-"
  let _ ← pair 1 (daysIn year month)

def time : Reader Unit := do
  let _ ← pair 0 23
  word ":"
  let _ ← pair 0 59
  word ":"
  let _ ← pair 0 60
  let _ ← Reader.optional (word "." *> many1 (char Char.isDigit))

def zone : Reader Unit :=
  word "Z" <|> word "z" <|> do
    let _ ← char fun c => c == '+' || c == '-'
    let _ ← pair 0 23
    word ":"
    let _ ← pair 0 59

def moment : Reader Unit :=
  (do
    date
    let _ ← Reader.optional (do
      let _ ← char fun c => c == 'T' || c == 't' || c == ' '
      time
      let _ ← Reader.optional zone)) <|> time

def array (item : Reader Value) : Reader Value := do
  word "["
  let items ← Reader.optional (do
    let items ← separated (gap *> item <* gap) (word ",")
    let _ ← Reader.optional (word ",")
    pure items)
  gap
  word "]"
  pure (.array (items.getD []))

def field (item : Reader Value) : Reader (List String × String × Value) := do
  let (path, key) ← key
  word "="
  blanks
  pure (path, key, ← item)

def inlineTable (item : Reader Value) : Reader Value := do
  word "\x7b"
  let entries ← Reader.optional (separated (field item <* blanks) (word ","))
  blanks
  word "\x7d"
  let fields ← (entries.getD []).foldlM
    (fun fields (path, key, value) => Fields.assign path key value fields) []
  pure (.table .inline fields)

def value : (depth : Nat) → Reader Value
  | 0 => failure
  | depth + 1 =>
    (do pure (.string (← string))) <|> (do word "true"; pure (.bool true)) <|>
      (do word "false"; pure (.bool false)) <|> (do moment; pure .moment) <|>
      (do float; pure .float) <|> (do pure (.integer (← integer))) <|>
      (if depth = 0 then failure
      else array (value depth) <|> inlineTable (value depth))

end Interpose.Toml
