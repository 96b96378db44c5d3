import Interpose.Word

/-!
# Sets of bytes to look for

A set of at most three bytes is kept as these bytes, a larger one as a table of all byte values.
Either way `find?` gives the first position that holds a byte of the set.
-/

namespace Interpose

inductive ByteSet where
  | empty
  | one (a : UInt8)
  | two (a b : UInt8)
  | three (a b c : UInt8)
  | table (marks : Vector Bool 256)

namespace ByteSet

def ofList : Bytes → ByteSet
  | [] => empty
  | [a] => one a
  | [a, b] => two a b
  | [a, b, c] => three a b c
  | bytes => table (.ofFn fun value => bytes.contains (UInt8.ofFin value))

def find? : ByteSet → Bytes → Option Nat
  | empty, _ => none
  | one a, data => data.findIdx? (· == a)
  | two a b, data => data.findIdx? fun x => x == a || x == b
  | three a b c, data => data.findIdx? fun x => x == a || x == b || x == c
  | table marks, data => data.findIdx? fun x => marks.get x.toFin

end ByteSet

end Interpose
