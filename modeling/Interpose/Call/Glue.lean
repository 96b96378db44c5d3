import Interpose.Call.Abi
import Interpose.Call.Method
import Interpose.Failure

/-!
# Glue between calling shapes

When a caller lays out its arguments differently from what the replacement expects, a short
forwarding routine stands between them. `planFixup` decides whether one is needed and builds it
as a list of stack operations.
-/

namespace Interpose

structure GlueParam where
  slot : Slot
  type : TypeRef
  deriving DecidableEq, Repr

inductive GlueOp where
  | loadArg (index : Nat)
  | call
  /-- Stores the result through the pointer pushed in front of it. -/
  | storeIndirect (type : TypeRef)
  | loadReturnBuffer (index : Nat)
  | ret
  deriving DecidableEq, Repr

structure Glue where
  name : String
  returnType : TypeRef
  params : List GlueParam
  body : List GlueOp
  target : Address
  deriving DecidableEq, Repr

namespace Glue

def position? (g : Glue) (slot : Slot) : Option Nat := g.params.findIdx? fun p => p.slot == slot

end Glue

inductive FixupPlan where
  | direct
  | glue (g : Glue)
  deriving DecidableEq, Repr

/-- What the layout of a call depends on besides the convention. -/
structure CallShape where
  thisType? : Option TypeRef
  returnBuffer? : Option TypeRef
  hasContext : Bool
  params : List TypeRef
  deriving DecidableEq, Repr

namespace CallShape

/-- The parameters that one slot contributes. -/
def slotParams (s : CallShape) : Slot → List GlueParam
  | .thisPointer => s.thisType?.toList.map (⟨.thisPointer, ·⟩)
  | .returnBuffer => s.returnBuffer?.toList.map (⟨.returnBuffer, ·⟩)
  | .genericContext => if s.hasContext then [⟨.genericContext, .nativeInt⟩] else []
  | .userArguments => s.params.map (⟨.userArguments, ·⟩)

def layout (s : CallShape) (order : List Slot) : List GlueParam := order.flatMap s.slotParams

def start? (s : CallShape) (order : List Slot) (slot : Slot) : Option Nat :=
  match order.reverse.dropWhile (· ≠ slot) with
  | [] => none
  | _ :: before => some (s.layout before.reverse).length

end CallShape

/-- How a caller of the method lays out its arguments; a context is passed only in its slot. -/
def Method.callShape (m : Method) (abi : Abi) (context : Bool) : CallShape where
  thisType? := m.thisType?
  returnBuffer? := if abi.hasReturnBuffer m.returnType then some (.byRef m.returnType) else none
  hasContext := abi.hasSlot .genericContext && context
  params := m.params

/-- The forwarding routine: the buffer pointer, the receiver and the user arguments are pushed, the
target is called, and its result goes through the buffer. -/
def forwardBody (abi : Abi) (returnType : TypeRef) (buffer? this? : Option Nat) (user count : Nat) :
    List GlueOp :=
  buffer?.toList.map .loadArg ++ this?.toList.map .loadArg ++
    (List.range count).map (fun i => .loadArg (user + i)) ++ [.call] ++
    (match buffer? with
      | some position =>
        .storeIndirect returnType ::
          if abi.returnsReturnBuffer then [.loadReturnBuffer position] else []
      | none => []) ++ [.ret]

/-- Decides whether redirecting one method to another needs glue, and builds it. `context` tells
whether calls of the first carry a generic context. -/
def planFixup (abi : Abi) (source target : Method) (context : Bool) : Attempt FixupPlan :=
  if target.isOpenGeneric then .refuse (.misuse (.detoursToOpenGeneric target.fullName))
  else if source.isConstructor || target.isConstructor then .ok .direct
  else
    let shape := source.callShape abi context
    let movesBuffer := !source.isStatic && target.isStatic && shape.returnBuffer?.isSome
    if !movesBuffer && !shape.hasContext then .ok .direct
    else
      match shape.start? abi.argumentOrder .userArguments with
      | none => .refuse (.misuse .noUserArgumentSlot)
      | some user =>
        let buffer? := shape.returnBuffer?.bind fun _ =>
          shape.start? abi.argumentOrder .returnBuffer
        let this? := shape.thisType?.bind fun _ => shape.start? abi.argumentOrder .thisPointer
        .ok (.glue {
          name := s!"Glue:AbiFixup<{source.fullName},{target.fullName}>"
          returnType :=
            match shape.returnBuffer? with
            | some type => if abi.returnsReturnBuffer then type else .void
            | none => source.returnType
          params := shape.layout abi.argumentOrder
          body := forwardBody abi source.returnType buffer? this? user source.params.length
          target := target.handle })

end Interpose
