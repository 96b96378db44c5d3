import Interpose.Call.TypeRef

/-!
# Methods

A description of something callable, and references to such descriptions. Two references with
equal descriptions may still be different objects; the identity of a reference tells them apart.
-/

namespace Interpose

structure Method where
  name : String
  /-- The engine's handle, for native functions the entry address. -/
  handle : Address
  declaringType : Option String := none
  isStatic : Bool := true
  isConstructor : Bool := false
  isGeneric : Bool := false
  isOpenGeneric : Bool := false
  params : List TypeRef := []
  returnType : TypeRef := .void
  deriving DecidableEq, Repr

namespace Method

variable (m : Method)

def instanceOf (type : String) : Method :=
  { m with declaringType := some type, isStatic := false }

def declaredOn (type : String) : Method := { m with declaringType := some type }

def generic : Method := { m with isGeneric := true }

def openGeneric : Method := { m with isGeneric := true, isOpenGeneric := true }

def constructor : Method := { m with isConstructor := true, isStatic := false }

def thisType? : Option TypeRef :=
  if m.isStatic then none else some (.object (m.declaringType.getD "object"))

def fullName : String :=
  match m.declaringType with
  | some type => type ++ "::" ++ m.name
  | none => m.name

def display : String :=
  let params := ", ".intercalate (m.params.map TypeRef.display)
  s!"{m.fullName}({params}) -> {m.returnType.display}"

end Method

/-- Who made a reference: an entry of the host's own list, or the emitter of glue. -/
inductive Identity where
  | listed (index : Nat)
  | emitted (index : Nat)
  deriving DecidableEq, Repr

structure MethodRef where
  identity : Identity
  method : Method
  deriving DecidableEq, Repr

end Interpose
