import Interpose.Pattern.Collection

/-!
# Scanning loaded bytes

Bytes taken as the memory from some base on. A pattern found in them gives a target; a pointer to
the target is followed when it lies inside the bytes.
-/

namespace Interpose

structure Loaded where
  base : Address
  data : Bytes
  deriving DecidableEq, Repr

namespace Loaded

def read (l : Loaded) (a : Address) (n : Nat) : Attempt Bytes :=
  if a < l.base then .refuse (.unreadable a .outsideScan)
  else do
    let start := a.toNat - l.base.toNat
    let stop ← checked (start + n)
    if l.data.length < stop then .refuse (.unreadable a .outsideScan)
    else pure ((l.data.drop start).take n)

def pointer? (l : Loaded) (a : Address) : Attempt (Option Address) :=
  match l.read a 8 with
  | .ok bytes => .ok (some (UInt64.ofNat (leNat bytes)))
  | .error .fault => .error .fault
  | .error (.refused _) => .ok none

end Loaded

structure Finding where
  pattern : Pattern
  offset : Nat
  length : Nat
  decoded : Address
  /-- Where control goes, unless the pointer to it lies outside the bytes. -/
  target : Option Address

/-- Looks for a pattern at the start of the bytes, or anywhere in them. -/
def Collection.scan (c : Collection) (l : Loaded) (search : Bool) : Attempt (Option Finding) :=
  match if search then c.find? l.data else c.matchAt? l.data with
  | none => .ok none
  | some found => do
    let meaning := found.pattern.meaning
    let decoded := meaning.decode l.base found.offset found.hit.address
    let target ← if meaning.kind.indirect then l.pointer? decoded else pure (some decoded)
    pure (some ⟨found.pattern, found.offset, found.hit.length, decoded, target⟩)

end Interpose
