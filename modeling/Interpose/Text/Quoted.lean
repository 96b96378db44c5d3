import Interpose.Text.Hex
import Interpose.Text.Printable

/-!
# Quoted text

Text between quotes, with escapes for the quote, the backslash and whatever has no picture of its
own.
-/

namespace Interpose.Text

def quotedChar (c : Char) : String :=
  match c with
  | '\x00' => "\\0"
  | '\t' => "\\t"
  | '\n' => "\\n"
  | '\r' => "\\r"
  | '"' => "\\\""
  | '\\' => "\\\\"
  | c => if isPrintable c then String.singleton c else "\\u\x7b" ++ hexLower c.toNat ++ "\x7d"

def quoted (text : String) : String :=
  "\"" ++ String.join (text.toList.map quotedChar) ++ "\""

end Interpose.Text
