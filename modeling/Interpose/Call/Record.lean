import Interpose.Call.Glue
import Interpose.Json.Reader

/-!
# Stored calls

Types, conventions and glue as JSON. An alternative is stored under its name, alone or with its
content.
-/

namespace Interpose

def Json.tagged (tag : String) (content : Json) : Json := .record [(tag, content)]

namespace TypeRef

def sized (name : String) (size : Nat) : Json :=
  .record [("name", .text name), ("size", .natural size)]

def toJson : TypeRef → Json
  | void => .text "Void"
  | pointer => .text "Pointer"
  | object name => .tagged "Object" (.text name)
  | byRef inner => .tagged "ByRef" inner.toJson
  | primitive name size => .tagged "Primitive" (sized name size)
  | struct name size => .tagged "Struct" (sized name size)

def readSized? (make : String → Nat → TypeRef) (content : Json) : Option TypeRef := do
  let [name, size] ← content.fieldsOf? ["name", "size"] | none
  pure (make (← (← name).string?) (← (← size).natural?))

def ofJson? : Json → Option TypeRef
  | .object [(some tag, content)] =>
    match tag with
    | "ByRef" => (ofJson? content).map byRef
    | "Object" => content.string?.map object
    | "Primitive" => readSized? primitive content
    | "Struct" => readSized? struct content
    | _ => none
  | .string (some "Void") => some void
  | .string (some "Pointer") => some pointer
  | _ => none

end TypeRef

namespace Abi

def toJson (abi : Abi) : Json :=
  .record [("argument_order", .array (abi.argumentOrder.map fun s => .text s.name)),
    ("classifier", .text abi.classifier.name), ("returns_return_buffer", .bool abi.returnsReturnBuffer)]

def ofJson? (json : Json) : Option Abi := do
  let [order, classifier, returns] ←
    json.fieldsOf? ["argument_order", "classifier", "returns_return_buffer"] | none
  pure {
    argumentOrder := ← (← (← order).array?).mapM fun s => do Slot.ofName? (← s.alternative?)
    classifier := ← Classifier.ofName? (← (← classifier).alternative?)
    returnsReturnBuffer := ← (← returns).bool? }

end Abi

def GlueParam.toJson (p : GlueParam) : Json :=
  .record [("kind", .text p.slot.name), ("ty", p.type.toJson)]

def GlueOp.toJson : GlueOp → Json
  | loadArg index => .tagged "LoadArg" (.natural index)
  | call => .text "Call"
  | storeIndirect type => .tagged "StoreIndirect" type.toJson
  | loadReturnBuffer index => .tagged "LoadReturnBuffer" (.natural index)
  | ret => .text "Return"

end Interpose
