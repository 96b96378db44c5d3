import Interpose.Pattern.Basic

/-!
# Matching one pattern

`matchInto` walks items and bytes together and gives the number of bytes covered. A gap tries the
shortest skip first, so the leftmost gap is as short as can be, then the next. All attempts capture
into one buffer, over whatever an abandoned one has left there. `matchItems` is the same search with
the captured bytes for a result, and `Fits` says without any search which bytes items may cover, gap
by gap.
-/

namespace Interpose

structure Capture where
  buffer : Bytes
  count : Nat
  deriving DecidableEq, Repr

abbrev Capturing := EStateM Failure Capture

def capture (b : UInt8) : Capturing Unit := fun c =>
  if c.count < c.buffer.length then .ok () ⟨c.buffer.set c.count b, c.count + 1⟩
  else .error .fault c

/-- Makes an attempt on the first suffix, from the longest on, at which one succeeds; the bytes
skipped count as covered. Each attempt captures behind the same `count` bytes. -/
def skipInto (attempt : Bytes → Capturing (Option Nat)) (count : Nat) :
    Bytes → Capturing (Option Nat)
  | [] => do
    modify fun c => { c with count }
    attempt []
  | b :: rest => do
    modify fun c => { c with count }
    match ← attempt (b :: rest) with
    | some covered => pure (some covered)
    | none => return (← skipInto attempt count rest).map (· + 1)

def matchInto : List Item → Bytes → Capturing (Option Nat)
  | [], _ => pure (some 0)
  | .gap :: items, data => do skipInto (matchInto items) (← get).count data
  | .literal value :: items, b :: rest =>
    if b = value then return (← matchInto items rest).map (· + 1) else pure none
  | .any :: items, _ :: rest => return (← matchInto items rest).map (· + 1)
  | .address :: items, b :: rest => do
    capture b
    return (← matchInto items rest).map (· + 1)
  | _ :: _, [] => pure none

def firstSuffix (attempt : Bytes → Option (Nat × Bytes)) : Bytes → Option (Nat × Bytes)
  | [] => attempt []
  | b :: rest =>
    match attempt (b :: rest) with
    | some found => some found
    | none => (firstSuffix attempt rest).map fun r => (r.1 + 1, r.2)

/-- The number of bytes that items cover from the start of the data, and the bytes captured. -/
def matchItems : List Item → Bytes → Option (Nat × Bytes)
  | [], _ => some (0, [])
  | .gap :: items, data => firstSuffix (matchItems items) data
  | .literal value :: items, b :: rest =>
    if b = value then (matchItems items rest).map fun r => (r.1 + 1, r.2) else none
  | .any :: items, _ :: rest => (matchItems items rest).map fun r => (r.1 + 1, r.2)
  | .address :: items, b :: rest => (matchItems items rest).map fun r => (r.1 + 1, b :: r.2)
  | _ :: _, [] => none

/-- `Fits items skips data length captured`: with gaps of the lengths `skips`, from left to right,
the items cover exactly `length` bytes at the start of the data and capture `captured`. -/
inductive Fits : List Item → List Nat → Bytes → Nat → Bytes → Prop where
  | nil {data : Bytes} : Fits [] [] data 0 []
  | literal {items : List Item} {skips : List Nat} {b : UInt8} {data captured : Bytes} {n : Nat} :
      Fits items skips data n captured →
      Fits (.literal b :: items) skips (b :: data) (n + 1) captured
  | any {items : List Item} {skips : List Nat} {b : UInt8} {data captured : Bytes} {n : Nat} :
      Fits items skips data n captured → Fits (.any :: items) skips (b :: data) (n + 1) captured
  | address {items : List Item} {skips : List Nat} {b : UInt8} {data captured : Bytes} {n : Nat} :
      Fits items skips data n captured →
      Fits (.address :: items) skips (b :: data) (n + 1) (b :: captured)
  | gap {items : List Item} {skips : List Nat} {skipped data captured : Bytes} {n : Nat} :
      Fits items skips data n captured →
      Fits (.gap :: items) (skipped.length :: skips) (skipped ++ data) (skipped.length + n) captured

structure Hit where
  length : Nat
  address : UInt64
  deriving DecidableEq, Repr

namespace Pattern

variable (p : Pattern)

/-- Matches at the first byte; all eight bytes of the buffer make the address. -/
def attemptAt (data : Bytes) : Attempt (Option Hit) :=
  if data.length < p.minLength then .ok none
  else
    match matchInto p.items data ⟨List.replicate 8 0, 0⟩ with
    | .ok covered c => .ok (covered.map fun n => ⟨n, UInt64.ofNat (leNat c.buffer)⟩)
    | .error e _ => .error e

def matchAt? (data : Bytes) : Option Hit :=
  match p.attemptAt data with
  | .ok hit => hit
  | .error _ => none

def find? (data : Bytes) : Option (Nat × Hit) :=
  if data.length < p.minLength then none
  else if p.atStart then (p.matchAt? data).map fun hit => (0, hit)
  else (List.range (data.length - p.minLength + 1)).findSome? fun offset =>
    (p.matchAt? (data.drop offset)).map fun hit => (offset, hit)

end Pattern

end Interpose
