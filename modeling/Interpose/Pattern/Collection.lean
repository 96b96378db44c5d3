import Interpose.Pattern.ByteSet
import Interpose.Pattern.Match
import Interpose.Table

/-!
# Collections of patterns

Patterns are filed by the distance of their anchor from their start, then by the anchor byte; a
pattern without an anchor is kept apart and tried last. Groups are opened as patterns call for them
and sorted in the end. A scan goes through the positions that hold an anchor byte, and at each
through the groups in order of distance.
-/

namespace Interpose

structure AnchorGroup where
  minLength : Nat
  buckets : Table UInt8 (List Pattern)

namespace AnchorGroup

def bucket (g : AnchorGroup) (value : UInt8) : List Pattern := (g.buckets.get? value).getD []

/-- Files a pattern whose anchor byte is `value`, behind those filed before. -/
def add (value : UInt8) (p : Pattern) (g : Option AnchorGroup) : AnchorGroup :=
  let g := g.getD ⟨p.minLength, []⟩
  ⟨min g.minLength p.minLength, g.buckets.alter value fun filed => filed.getD [] ++ [p]⟩

def members (g : AnchorGroup) : List Pattern := g.buckets.flatMap (·.2)

end AnchorGroup

/-- An index that patterns are still being filed in. -/
structure Filing where
  groups : List (Nat × AnchorGroup)
  anchorless : List Pattern

/-- Files a pattern in the group of its anchor, which is opened if there is none; a pattern without
an anchor is in no group. -/
def Filing.file (f : Filing) (p : Pattern) : Filing :=
  match p.anchor with
  | some (offset, value) =>
    { f with groups := Table.amend offset (AnchorGroup.add value p) f.groups }
  | none => { f with anchorless := f.anchorless ++ [p] }

def Filing.ofList (patterns : List Pattern) : Filing := patterns.foldl file ⟨[], []⟩

structure Collection where
  patterns : List Pattern
  groups : Table Nat AnchorGroup
  anchorless : List Pattern

structure Match where
  pattern : Pattern
  offset : Nat
  hit : Hit

namespace Collection

def ofList (patterns : List Pattern) : Collection where
  patterns := patterns
  groups := Table.sort (Filing.ofList patterns).groups
  anchorless := (Filing.ofList patterns).anchorless

variable (c : Collection)

def size : Nat := c.patterns.length

def minLength : Nat := ((c.patterns.map Pattern.minLength).min?).getD 0

def maxMinLength : Nat := ((c.patterns.map Pattern.minLength).max?).getD 0

def maxAddressCount : Nat := ((c.patterns.map Pattern.addressCount).max?).getD 0

/-- The patterns by anchor distance, then anchor byte, the anchorless ones last. -/
def toList : List Pattern := c.groups.flatMap (·.2.members) ++ c.anchorless

/-- The first of the patterns that matches at the start of the data. -/
def firstAtStart (patterns : List Pattern) (offset : Nat) (data : Bytes) : Option Match :=
  patterns.findSome? fun p => (p.matchAt? data).map fun hit => ⟨p, offset, hit⟩

def matchAt? (data : Bytes) : Option Match :=
  if data.length < c.minLength then none
  else
    let anchored := c.groups.findSome? fun (offset, g) =>
      match data[offset]? with
      | some value =>
        if data.length < g.minLength then none else firstAtStart (g.bucket value) 0 data
      | none => none
    anchored <|> firstAtStart c.anchorless 0 data

def isAnchorByte (value : UInt8) : Bool :=
  c.groups.any fun entry => !(entry.2.bucket value).isEmpty

/-- The first match whose anchor is the byte `value` at `position`. -/
def matchAnchoredAt? (data : Bytes) (position : Nat) (value : UInt8) : Option Match :=
  c.groups.findSome? fun (offset, g) =>
    if position < offset then none
    else
      let start := position - offset
      let rest := data.drop start
      if rest.length < g.minLength then none
      else firstAtStart ((g.bucket value).filter fun p => !p.atStart || start == 0) start rest

def anchorBytes : ByteSet :=
  .ofList (((List.range 256).map UInt8.ofNat).filter c.isAnchorByte)

def scanFrom (data : Bytes) (start : Nat) : Option Match :=
  if start < data.length then
    match c.anchorBytes.find? (data.drop start) with
    | none => none
    | some skip =>
      let found := data[start + skip]?.bind (c.matchAnchoredAt? data (start + skip))
      found <|> scanFrom data (start + skip + 1)
  else none
termination_by data.length - start

/-- Matches some pattern: at the first anchor byte where one fits, else an anchorless one. -/
def find? (data : Bytes) : Option Match :=
  if data.length < c.minLength then none
  else
    c.scanFrom data 0 <|> c.anchorless.findSome? fun p =>
      (p.find? data).map fun (offset, hit) => ⟨p, offset, hit⟩

end Collection

end Interpose
