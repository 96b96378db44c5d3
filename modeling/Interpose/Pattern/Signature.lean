import Interpose.Pattern.Collection
import Interpose.Pattern.Text
import Interpose.Json.Reader

/-!
# Signatures

The stored form of patterns: a signature keeps the text of the items, and a set of signatures
names the architecture it is for. Sets are exchanged as JSON.
-/

namespace Interpose

structure Signature where
  name : String
  pattern : String
  address : AddressMeaning
  atStart : Bool := false
  deriving DecidableEq, Repr

structure SignatureSet where
  architecture : String
  signatures : List Signature
  deriving DecidableEq, Repr

namespace Signature

def ofPattern (p : Pattern) : Signature := ⟨p.name, formatItems p.items, p.meaning, p.atStart⟩

def toPattern (s : Signature) : Attempt Pattern :=
  Pattern.parse s.name s.address s.atStart s.pattern

end Signature

namespace AddressKind

def ofJson? (json : Json) : Option AddressKind := do
  let [encoding, indirect, fixup] ← json.fieldsOf? ["encoding", "indirect", "precode_fixup"] | none
  pure {
    encoding := ← AddressEncoding.ofName? (← (← encoding).alternative?)
    indirect := ← indirect.elim (some false) Json.bool?
    precodeFixup := ← fixup.elim (some false) Json.bool? }

def toJson (k : AddressKind) : Json :=
  .record [("encoding", .text k.encoding.name), ("indirect", .bool k.indirect),
    ("precode_fixup", .bool k.precodeFixup)]

end AddressKind

namespace AddressMeaning

def ofJson? (json : Json) : Option AddressMeaning := do
  let [kind, offset] ← json.fieldsOf? ["kind", "relative_to_offset"] | none
  pure {
    kind := ← AddressKind.ofJson? (← kind)
    relativeTo := UInt64.ofNat (← offset.elim (some 0) Json.natural?) }

def toJson (m : AddressMeaning) : Json :=
  .record [("kind", m.kind.toJson), ("relative_to_offset", .natural m.relativeTo.toNat)]

end AddressMeaning

namespace Signature

def ofJson? (json : Json) : Option Signature := do
  let [name, pattern, address, atStart] ←
    json.fieldsOf? ["name", "pattern", "address", "must_match_at_start"] | none
  pure {
    name := ← (← name).string?
    pattern := ← (← pattern).string?
    address := ← AddressMeaning.ofJson? (← address)
    atStart := ← atStart.elim (some false) Json.bool? }

def toJson (s : Signature) : Json :=
  .record [("name", .text s.name), ("pattern", .text s.pattern), ("address", s.address.toJson),
    ("must_match_at_start", .bool s.atStart)]

end Signature

namespace SignatureSet

def ofJson? (json : Json) : Option SignatureSet := do
  let [architecture, signatures] ← json.fieldsOf? ["architecture", "signatures"] | none
  pure {
    architecture := ← (← architecture).string?
    signatures := ← (← (← signatures).array?).mapM Signature.ofJson? }

def toJson (set : SignatureSet) : Json :=
  .record [("architecture", .text set.architecture),
    ("signatures", .array (set.signatures.map Signature.toJson))]

def parse (text : String) : Attempt SignatureSet :=
  match (Json.parse? text).bind ofJson? with
  | some set => .ok set
  | none => .refuse .json

def format (set : SignatureSet) : String := set.toJson.pretty

/-- The patterns of a collection in its index order. -/
def ofCollection (architecture : String) (c : Collection) : SignatureSet :=
  ⟨architecture, c.toList.map Signature.ofPattern⟩

def signature? (set : SignatureSet) (name : String) : Option Signature :=
  set.signatures.find? fun s => Text.sameLetters s.name name

/-- The collection of all patterns; the first signature that writes none decides. -/
def toCollection (set : SignatureSet) : Attempt Collection := do
  pure (Collection.ofList (← set.signatures.mapM Signature.toPattern))

end SignatureSet

end Interpose
