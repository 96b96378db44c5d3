import Interpose.Word

/-!
# Types in signatures

What a calling convention has to know of a type: its name, and its size when passed by value.
-/

namespace Interpose

inductive TypeRef where
  | void
  | primitive (name : String) (size : Nat)
  | pointer
  /-- A managed reference, passed as one pointer. -/
  | object (name : String)
  | byRef (inner : TypeRef)
  | struct (name : String) (size : Nat)
  deriving DecidableEq, Repr

namespace TypeRef

def nativeInt : TypeRef := primitive "nint" 8

def isVoid : TypeRef → Bool
  | void => true
  | _ => false

def size : TypeRef → Nat
  | void => 0
  | primitive _ size | struct _ size => size
  | pointer | object _ | byRef _ => 8

def display : TypeRef → String
  | void => "void"
  | primitive name _ | struct name _ | object name => name
  | pointer => "ptr"
  | byRef inner => "&" ++ inner.display

end TypeRef

end Interpose
