import Interpose.Failure

/-!
# Ranges and allocation requests

A request asks for a size and an alignment inside a placement window; `accepts` says which ranges
satisfy it, `validate` which requests make sense at all.
-/

namespace Interpose

structure Range where
  base : Address
  length : Nat
  deriving DecidableEq, Repr

namespace Range

variable (r : Range)

def stop : Attempt Nat := r.base.plus r.length

def contains (a : Address) : Attempt Bool :=
  if a < r.base then .ok false else do pure (decide (a.toNat < (← r.stop)))

def containsRange (other : Range) : Attempt Bool :=
  if other.base < r.base then .ok false
  else do
    let otherStop ← other.stop
    pure (decide (otherStop ≤ (← r.stop)))

def display : Attempt String := do
  pure s!"{Text.address r.base}..0x{Text.hex (← r.stop)}"

end Range

def Address.top : Address := 18446744073709551615

def Address.plusSaturating (a b : Address) : Address :=
  if a.toNat + b.toNat < wordLimit then a + b else Address.top

def Address.minusSaturating (a b : Address) : Address := if b ≤ a then a - b else 0

structure Request where
  size : Nat
  alignment : Nat := 8
  executable : Bool := false
  low : Address := 0
  high : Address := Address.top
  deriving DecidableEq, Repr

def isPowerOfTwo (n : Nat) : Bool := n == 1 <<< Nat.log2 n && n != 0

namespace Request

variable (q : Request)

/-- Places the range within `reach` of an address, as far as the address space goes. -/
def near (address reach : Address) : Request :=
  { q with low := address.minusSaturating reach, high := address.plusSaturating reach }

def isBounded : Bool := q.low ≠ 0 || q.high ≠ Address.top

/-- Whether a range lies in the window and is aligned. Nothing is a multiple of zero. -/
def accepts (r : Range) : Attempt Bool :=
  if r.base < q.low then .ok false
  else if q.alignment = 0 then .error .fault
  else .ok (r.base.toNat % q.alignment == 0 && r.base.toNat + r.length ≤ q.high.toNat)

theorem accepts_eq_true {q : Request} {r : Range} : q.accepts r = .ok true ↔
    q.alignment ≠ 0 ∧ q.low ≤ r.base ∧ r.base.toNat % q.alignment = 0 ∧
      r.base.toNat + r.length ≤ q.high.toNat := by
  unfold accepts
  by_cases hlow : r.base < q.low
  · simp [hlow, ← UInt64.not_lt]
  · by_cases hz : q.alignment = 0
    · simp [hlow, hz]
    · simp [hlow, hz, ← UInt64.not_lt]

def validate : Attempt Unit :=
  if q.size = 0 then .refuse (.misuse .emptyAllocation)
  else if !isPowerOfTwo q.alignment then .refuse (.misuse (.alignmentNotPowerOfTwo q.alignment))
  else if q.high ≤ q.low then .refuse (.misuse (.emptyWindow q.low q.high))
  else .ok ()

def checkGuard (guard : Option Nat) : Attempt Unit :=
  match guard with
  | some required =>
    if q.executable && q.alignment < required then
      .refuse (.misuse (.alignmentBelowGuard q.alignment required))
    else .ok ()
  | none => .ok ()

end Request

/-- A buffer for replaced bytes has to hold all that are written. -/
def checkBackup (room : Option Nat) (written : Nat) : Attempt Unit :=
  match room with
  | some room => if room < written then .refuse (.misuse (.backupTooSmall room written)) else .ok ()
  | none => .ok ()

end Interpose
