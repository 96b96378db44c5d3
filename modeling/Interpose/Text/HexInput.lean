import Interpose.Failure
import Interpose.Text.Blank
import Interpose.Text.Quoted

/-!
# Typed addresses and bytes

What people type for an address or for a run of bytes. A lead `0x` is optional. Bytes may be
parted by blanks and commas; what is left is read in pairs, and pairs are counted in the bytes of
the text, so a character of several bytes can be cut by one.
-/

namespace Interpose

inductive InputFlaw where
  | address (why : Text.NumberFlaw)
  | oddDigits (text : String)
  | badByte (pair : String) (why : Text.NumberFlaw)
  deriving DecidableEq, Repr

namespace InputFlaw

def message : InputFlaw → String
  | address why => "Invalid hex address: " ++ why.message
  | oddDigits text => "Odd number of hex digits in " ++ Text.quoted text
  | badByte pair why => s!"Invalid hex byte {Text.quoted pair}: {why.message}"

end InputFlaw

inductive ToolFailure where
  | input (why : InputFlaw)
  | file (why : FileFlaw)
  | engine (why : Failure)
  deriving DecidableEq, Repr

namespace Text

def dropHexLeads (text : List Char) : List Char := dropLeads '0' 'X' (dropLeads '0' 'x' text)

def readAddress (text : String) : Except ToolFailure Address :=
  match readNumber 16 wordLimit (dropHexLeads (trim text.toList)) with
  | .ok n => .ok (UInt64.ofNat n)
  | .error why => .error (.input (.address why))

/-- The characters of typed bytes without separators and leads. -/
def typedDigits (text : String) : List Char :=
  (splitOnP (fun c => isBlank c || c == ',') text.toList).flatMap dropHexLeads

/-- The first two bytes of a text, which may be one character, and what follows them. -/
def takePair? : List Char → Option (List Char × List Char)
  | c :: rest =>
    if c.utf8Size = 2 then some ([c], rest)
    else match rest with
      | d :: rest => if c.utf8Size = 1 ∧ d.utf8Size = 1 then some ([c, d], rest) else none
      | [] => none
  | [] => none

theorem length_of_takePair? {text pair rest : List Char} (h : takePair? text = some (pair, rest)) :
    rest.length < text.length := by
  unfold takePair? at h
  grind

/-- Reads pair after pair. A pair that ends inside a character is a fault. -/
def readPairs (text : List Char) : Except ToolFailure Bytes :=
  if text.isEmpty then .ok []
  else
    match h : takePair? text with
    | none => .error (.engine .fault)
    | some (pair, rest) =>
      have := length_of_takePair? h
      match readNumber 16 256 pair with
      | .error why => .error (.input (.badByte (String.ofList pair) why))
      | .ok value => (readPairs rest).map (UInt8.ofNat value :: ·)
termination_by text.length

def readBytes (text : String) : Except ToolFailure Bytes :=
  let digits := typedDigits text
  if (String.ofList digits).utf8ByteSize % 2 = 1 then .error (.input (.oddDigits text))
  else readPairs digits

end Text

end Interpose
