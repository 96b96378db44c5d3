/-!
# Readers

A reader takes something off the front of a text and gives it with what is left, or fails. A
reader behind `<|>` starts where the failed one did. `Reader.many` ends because each round has to
leave a shorter text.
-/

namespace Interpose.Text

abbrev Reader (α : Type) := StateT (List Char) Option α

namespace Reader

variable {α : Type}

def char (accept : Char → Bool) : Reader Char := fun text =>
  match text with
  | [] => none
  | c :: rest => if accept c then some (c, rest) else none

def run (accept : Char → Bool) : Reader (List Char) := fun text =>
  some (text.takeWhile accept, text.dropWhile accept)

def word (w : String) : Reader Unit := fun text =>
  if w.toList.isPrefixOf text then some ((), text.drop w.length) else none

def atEnd : Reader Unit := fun text => if text.isEmpty then some ((), text) else none

def ahead (r : Reader α) : Reader Unit := fun text => (r text).map fun _ => ((), text)

def optional (r : Reader α) : Reader (Option α) := (some <$> r) <|> pure none

/-- The items read one behind another until `r` fails or takes nothing. -/
def manyFrom (r : Reader α) (text : List Char) : List α × List Char :=
  match r text with
  | none => ([], text)
  | some (item, rest) =>
    if rest.length < text.length then
      let (items, rest) := manyFrom r rest
      (item :: items, rest)
    else ([], text)
termination_by text.length

def many (r : Reader α) : Reader (List α) := fun text => some (manyFrom r text)

def many1 (r : Reader α) : Reader (List α) := do pure ((← r) :: (← many r))

def separated (item : Reader α) (separator : Reader Unit) : Reader (List α) := do
  pure ((← item) :: (← many (separator *> item)))

def count (low high : Nat) (accept : Char → Bool) : Reader (List Char) := fun text =>
  let taken := (text.take high).takeWhile accept
  if low ≤ taken.length then some (taken, text.drop taken.length) else none

def whole? (r : Reader α) (text : List Char) : Option α :=
  match r text with
  | some (value, []) => some value
  | _ => none

end Reader

end Interpose.Text
