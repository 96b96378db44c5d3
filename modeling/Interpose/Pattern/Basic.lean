import Interpose.Failure

/-!
# Byte patterns

A pattern is a list of items with the meaning of the address bytes it captures. A `Pattern` value
carries proofs that it captures at most eight bytes and matches at least one; `Pattern.make` is
the constructor that checks both. Everything else about a pattern is computed from its items.
-/

namespace Interpose

inductive Item where
  | literal (value : UInt8)
  | any
  | address
  /-- As few bytes as let the rest of the pattern match, possibly none. -/
  | gap
  deriving DecidableEq, Repr

inductive AddressEncoding where
  | rel32
  | rel64
  | abs32
  | abs64
  deriving DecidableEq, Repr

namespace AddressEncoding

def name : AddressEncoding → String
  | rel32 => "Rel32"
  | rel64 => "Rel64"
  | abs32 => "Abs32"
  | abs64 => "Abs64"

def ofName? (text : String) : Option AddressEncoding :=
  [rel32, rel64, abs32, abs64].find? fun e => e.name == text

def isRelative : AddressEncoding → Bool
  | rel32 | rel64 => true
  | abs32 | abs64 => false

def byteLength : AddressEncoding → Nat
  | rel32 | abs32 => 4
  | rel64 | abs64 => 8

end AddressEncoding

structure AddressKind where
  encoding : AddressEncoding
  indirect : Bool := false
  /-- The target is the routine that compiles a method not compiled yet. -/
  precodeFixup : Bool := false
  deriving DecidableEq, Repr

structure AddressMeaning where
  kind : AddressKind
  /-- Where, from the start of the match, relative addresses are measured. -/
  relativeTo : Address := 0
  deriving DecidableEq, Repr

namespace AddressMeaning

/-- The address that captured bytes denote, before any pointer is followed. All sums wrap. -/
def decode (m : AddressMeaning) (entry : Address) (offset : Nat) (raw : UInt64) : Address :=
  let origin := entry + UInt64.ofNat offset + m.relativeTo
  match m.kind.encoding with
  | .abs32 => UInt64.ofNat (raw.toNat % 4294967296)
  | .abs64 => raw
  | .rel32 => origin.shift (signed32 raw.toNat)
  | .rel64 => origin + raw

def target (m : AddressMeaning) (readPointer : Address → Attempt Address) (entry : Address)
    (offset : Nat) (raw : UInt64) : Attempt Address :=
  let decoded := m.decode entry offset raw
  if m.kind.indirect then readPointer decoded else .ok decoded

end AddressMeaning

def addressCount (items : List Item) : Nat := items.count .address

def minLength (items : List Item) : Nat := (items.filter (· ≠ .gap)).length

/-- The first literal in front of any gap, with its distance from the start. -/
def firstLiteral : List Item → Option (Nat × UInt8)
  | .literal value :: _ => some (0, value)
  | .any :: rest | .address :: rest => (firstLiteral rest).map fun a => (a.1 + 1, a.2)
  | .gap :: _ | [] => none

structure Pattern where
  name : String
  items : List Item
  meaning : AddressMeaning
  atStart : Bool
  addressCount_le : addressCount items ≤ 8
  minLength_pos : 0 < minLength items
  deriving DecidableEq, Repr

namespace Pattern

/-- Checks the items: there are some, they capture at most eight bytes, they cover some byte. -/
def make (name : String) (meaning : AddressMeaning) (atStart : Bool) (items : List Item) :
    Attempt Pattern :=
  if items = [] then .refuse (.pattern (.noItems name))
  else if hc : addressCount items ≤ 8 then
    if hm : 0 < minLength items then .ok ⟨name, items, meaning, atStart, hc, hm⟩
    else .refuse (.pattern (.matchesNothing name))
  else .refuse (.pattern (.tooManyAddressBytes name (addressCount items)))

variable (p : Pattern)

def minLength : Nat := Interpose.minLength p.items

def addressCount : Nat := Interpose.addressCount p.items

def anchor : Option (Nat × UInt8) := firstLiteral p.items

end Pattern

end Interpose
