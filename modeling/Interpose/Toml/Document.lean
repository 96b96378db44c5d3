import Interpose.Toml.Reader

/-!
# TOML documents

A document is a run of lines: headers that open tables, and fields that go below the table opened
last. Its value is what the lines build one after another.
-/

namespace Interpose.Toml

open Text Text.Reader

inductive Line where
  | header (path : List String) (key : String)
  | arrayHeader (path : List String) (key : String)
  | field (path : List String) (key : String) (value : Value)
  | empty

namespace Line

def read : Reader Line :=
  (do newline; pure empty) <|>
  (do comment; newline <|> atEnd; pure empty) <|>
  (do
    word "[["
    let (path, key) ← Toml.key
    word "]]"
    lineEnd
    pure (arrayHeader path key)) <|>
  (do
    ahead (char (· == '[') *> char (· != '['))
    word "["
    let (path, key) ← Toml.key
    word "]"
    lineEnd
    pure (header path key)) <|>
  (do
    let (path, key, value) ← Toml.field (Toml.value depthLimit)
    lineEnd
    pure (field path key value))

/-- What one line makes of the path opened last and the fields so far. -/
def apply (state : List String × Fields) : Line → Option (List String × Fields)
  | empty => some state
  | header path key => (state.2.openTable path key).map (path ++ [key], ·)
  | arrayHeader path key => (state.2.appendTable path key).map (path ++ [key], ·)
  | field path key value => (state.2.assignWithin state.1 path key value).map (state.1, ·)

end Line

def lines : Reader (List Line) := do
  let _ ← Reader.optional (word "\ufeff")
  blanks
  many (Line.read <* blanks)

def parse? (text : String) : Option Fields := do
  let lines ← whole? lines text.toList
  let (_, fields) ← lines.foldlM Line.apply ([], [])
  pure fields

end Interpose.Toml
