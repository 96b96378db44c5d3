/-!
# TOML values

A table remembers how it came to be, because that decides who may add to it: a header may open
only a table that was passed on the way to another, and a dotted key may extend only tables that
dotted keys made.
-/

namespace Interpose.Toml

inductive Origin where
  | inline
  | header
  /-- Passed on the way to a header below it. -/
  | passed
  | dotted
  deriving DecidableEq, Repr

inductive Value where
  | string (text : String)
  | integer (value : Int)
  | bool (value : Bool)
  | float
  | moment
  | array (items : List Value)
  | table (origin : Origin) (fields : List (String × Value))
  | tables (items : List (List (String × Value)))
  deriving Repr

abbrev Fields := List (String × Value)

namespace Fields

def get? (fields : Fields) (key : String) : Option Value := fields.lookup key

def put (key : String) (value : Value) : Fields → Fields
  | [] => [(key, value)]
  | field :: rest => if field.1 = key then (key, value) :: rest else field :: put key value rest

/-- Changes the table that `path` leads to. Missing tables on the way are made with the origin
`made`; of tables that bear one name the last is meant. A dotted key may not pass a table that has
a header, and nothing passes a value. -/
def descend (made : Origin) (finish : Origin → Fields → Option Fields) :
    (path : List String) → Origin → Fields → Option Fields
  | [], origin, fields => finish origin fields
  | key :: path, _, fields =>
    match fields.get? key with
    | none => do
      let inner ← descend made finish path made []
      pure (fields.put key (.table made inner))
    | some (.table origin inner) =>
      if origin = .inline ∨ (made = .dotted ∧ origin = .header) then none
      else do
        let inner ← descend made finish path origin inner
        pure (fields.put key (.table origin inner))
    | some (.tables items) =>
      match items.getLast? with
      | none => none
      | some last => do
        let inner ← descend made finish path .header last
        pure (fields.put key (.tables (items.dropLast ++ [inner])))
    | some _ => none

/-- Adds a value under a new key. Behind a dotted path the table must be one that dotted keys
made. -/
def assign (path : List String) (key : String) (value : Value) (fields : Fields) :
    Option Fields :=
  descend .dotted (fun origin inner =>
    if (!path.isEmpty && origin != .dotted) || (inner.get? key).isSome then none
    else some (inner ++ [(key, value)])) path .header fields

def openTable (path : List String) (key : String) (fields : Fields) : Option Fields :=
  descend .passed (fun _ inner =>
    match inner.get? key with
    | none => some (inner ++ [(key, .table .header [])])
    | some (.table .passed old) => some (inner.put key (.table .header old))
    | some _ => none) path .header fields

def appendTable (path : List String) (key : String) (fields : Fields) : Option Fields :=
  descend .passed (fun _ inner =>
    match inner.get? key with
    | none => some (inner ++ [(key, .tables [[]])])
    | some (.tables items) => some (inner.put key (.tables (items ++ [[]])))
    | some _ => none) path .header fields

def assignWithin (opened path : List String) (key : String) (value : Value) (fields : Fields) :
    Option Fields :=
  descend .passed (fun _ inner => assign path key value inner) opened .header fields

end Fields

end Interpose.Toml
