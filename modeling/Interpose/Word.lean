/-!
# Machine words and bytes

Addresses are 64-bit words, so sums of addresses wrap; sizes are natural numbers. `leBytes` and
`leNat` write and read little-endian words, and `distance` is the signed gap between addresses.
-/

namespace Interpose

abbrev Address := UInt64

abbrev Bytes := List UInt8

/-- One past the largest address. -/
def wordLimit : Nat := 18446744073709551616

def leBytes : Nat → Nat → Bytes
  | 0, _ => []
  | n + 1, v => UInt8.ofNat v :: leBytes n (v / 256)

/-- The number whose little-endian digits are the given bytes. -/
def leNat : Bytes → Nat
  | [] => 0
  | b :: rest => b.toNat + 256 * leNat rest

@[simp] theorem length_leBytes (n v : Nat) : (leBytes n v).length = n := by
  induction n generalizing v with
  | zero => rfl
  | succ n ih => simp [leBytes, ih]

def signed32 (v : Nat) : Int := Int.bmod v 4294967296

def signed64 (v : Nat) : Int := Int.bmod v wordLimit

def Address.shift (a : Address) (d : Int) : Address := a + UInt64.ofInt d

/-- The signed number of bytes from `a` to `b`, the short way round the address space. -/
def distance (a b : Address) : Int := signed64 (b - a).toNat

def fits8 (d : Int) : Bool := -128 ≤ d && d ≤ 127

def fits32 (d : Int) : Bool := -2147483648 ≤ d && d ≤ 2147483647

end Interpose
