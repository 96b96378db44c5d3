import Interpose.Word

/-!
# Numbers in text

Writing in base sixteen, and one reader for unsigned numbers of any radix that says why a text is
no number. A single leading plus sign is part of a number; a minus sign is not.
-/

namespace Interpose.Text

def hexDigit (n : Nat) : Char :=
  if n < 10 then Char.ofNat (48 + n) else Char.ofNat (55 + n)

def hex (n : Nat) : String :=
  String.ofList ((Nat.toDigits 16 n).map Char.toUpper)

def hexLower (n : Nat) : String := String.ofList (Nat.toDigits 16 n)

def hexByte (b : UInt8) : List Char := [hexDigit (b.toNat / 16), hexDigit (b.toNat % 16)]

def hexRun (bs : Bytes) : String := String.ofList (bs.flatMap hexByte)

def hexPairs (bs : Bytes) : String := " ".intercalate (bs.map fun b => String.ofList (hexByte b))

def address (a : Address) : String := "0x" ++ hex a.toNat

def digit? (radix : Nat) (c : Char) : Option Nat :=
  let value? : Option Nat :=
    if '0' ≤ c ∧ c ≤ '9' then some (c.toNat - 48)
    else if 'a' ≤ c ∧ c ≤ 'z' then some (c.toNat - 87)
    else if 'A' ≤ c ∧ c ≤ 'Z' then some (c.toNat - 55)
    else none
  value?.filter (· < radix)

inductive NumberFlaw where
  | empty
  | badDigit
  | tooLarge
  deriving DecidableEq, Repr

def NumberFlaw.message : NumberFlaw → String
  | .empty => "cannot parse integer from empty string"
  | .badDigit => "invalid digit found in string"
  | .tooLarge => "number too large to fit in target type"

/-- Digits are taken from the left; the first that is no digit or leaves the range decides. -/
def readDigits (radix limit : Nat) : Nat → List Char → Except NumberFlaw Nat
  | value, [] => .ok value
  | value, c :: rest =>
    match digit? radix c with
    | none => .error .badDigit
    | some d =>
      if value * radix + d < limit then readDigits radix limit (value * radix + d) rest
      else .error .tooLarge

/-- An unsigned number below `limit`: an optional plus sign and at least one digit. -/
def readNumber (radix limit : Nat) : List Char → Except NumberFlaw Nat
  | [] => .error .empty
  | ['+'] => .error .badDigit
  | '+' :: rest => readDigits radix limit 0 rest
  | text => readDigits radix limit 0 text

end Interpose.Text
