import Interpose.Pattern.Basic

/-!
# The text of a pattern

Items are written as blank-separated tokens: two hexadecimal digits for a literal, `??` for any
byte, `%%` for an address byte and `*` for a gap. Reading also takes a single `?` and any spelling
of a number below 256.
-/

namespace Interpose

namespace Item

def token : Item → List Char
  | literal value => Text.hexByte value
  | any => ['?', '?']
  | address => ['%', '%']
  | gap => ['*']

def ofToken (token : List Char) : Attempt Item :=
  if token = ['?', '?'] ∨ token = ['?'] then .ok .any
  else if token = ['%', '%'] then .ok .address
  else if token = ['*'] then .ok .gap
  else match Text.readNumber 16 256 token with
    | .ok value => .ok (.literal (UInt8.ofNat value))
    | .error why => .refuse (.pattern (.badToken (String.ofList token) why))

end Item

def formatItems (items : List Item) : String :=
  " ".intercalate (items.map fun item => String.ofList item.token)

/-- The items a text writes; the first bad token decides, and there has to be one token. -/
def parseItems (text : String) : Attempt (List Item) := do
  let items ← (Text.words text.toList).mapM Item.ofToken
  if items = [] then .refuse (.pattern .noTokens) else pure items

namespace Pattern

def parse (name : String) (meaning : AddressMeaning) (atStart : Bool) (text : String) :
    Attempt Pattern := do
  Pattern.make name meaning atStart (← parseItems text)

end Pattern

end Interpose
