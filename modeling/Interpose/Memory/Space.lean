import Interpose.Memory.System
import Interpose.Table

/-!
# Address spaces

A simulated address space: disjoint regions of bytes, an allocator that goes upwards from a base
and leaves gaps, and a log of what was done. `Space.system` is the system it makes.
-/

namespace Interpose

inductive Event where
  | allocate (range : Range)
  | free (range : Range)
  | patch (range : Range)
  | register (base : Address) (offsets : List Nat)
  deriving DecidableEq, Repr

structure Space where
  regions : Table Address Bytes := []
  next : Address := 0x70000000
  events : List Event := []
  deriving DecidableEq, Repr

structure SpaceLimits where
  maxAllocation : Nat := 0x10000
  /-- The number of allocations in the log after which no more are made. -/
  allocationLimit : Option Nat := none
  guard : Option Nat := none
  os : OsKind := .linux
  nativeAbi? : Option Abi := some .systemV64
  deriving DecidableEq, Repr

namespace Space

def gap : Nat := 0x1000

def regionBelow? (s : Space) (a : Address) : Option (Address × Bytes) :=
  (s.regions.filter fun region => region.1 ≤ a).getLast?

def locate (s : Space) (a : Address) (n : Nat) : Attempt (Option (Address × Bytes)) :=
  match s.regionBelow? a with
  | none => .ok none
  | some (base, data) => do
    let stop ← a.plus n
    let limit ← base.plus data.length
    pure (if stop ≤ limit then some (base, data) else none)

/-- Reads from inside one region. -/
def read (a : Address) (n : Nat) (s : Space) : Attempt Bytes := do
  match ← s.locate a n with
  | some (base, data) => pure ((data.drop (a.toNat - base.toNat)).take n)
  | none => .refuse (.unreadable a (.unmapped n))

def overwrite (data : Bytes) (position : Nat) (bytes : Bytes) : Bytes :=
  data.take position ++ bytes ++ data.drop (position + bytes.length)

def write (a : Address) (bytes : Bytes) (s : Space) : Attempt Space := do
  match ← s.locate a bytes.length with
  | some (base, data) =>
    let data := overwrite data (a.toNat - base.toNat) bytes
    pure { s with regions := s.regions.alter base fun _ => data }
  | none => .refuse (.unwritable a (.unmapped bytes.length))

def bytesAt (s : Space) (a : Address) (n : Nat) : Attempt Bytes :=
  if wordLimit ≤ 2 * n then .error .fault
  else
    match Space.read a n s with
    | .error (.refused _) => .ok []
    | result => result

/-- Writes without a trace in the log; nothing happens where no bytes are mapped. -/
def poke (a : Address) (bytes : Bytes) : Action Space Unit := fun s =>
  match s.write a bytes with
  | .ok written => .ok () written
  | .error (.refused _) => .ok () s
  | .error .fault => .error .fault s

def log (e : Event) (s : Space) : Space := { s with events := s.events ++ [e] }

def byteAt? (s : Space) (a : Address) : Option UInt8 :=
  s.regions.findSome? fun (base, data) =>
    if base ≤ a then data[a.toNat - base.toNat]? else none

def meets (base : Address) (stop : Nat) : Table Address Bytes → Attempt Bool
  | [] => .ok false
  | (b, data) :: rest =>
    if b.toNat < stop then do
      let limit ← b.plus data.length
      if base.toNat < limit then pure true else meets base stop rest
    else meets base stop rest

/-- What becomes of a candidate base: it is taken, or the search goes on from another. -/
def consider (s : Space) (q : Request) (base : Nat) : Attempt (Address ⊕ Nat) := do
  let range : Range := ⟨UInt64.ofNat base, q.size⟩
  if !(← q.accepts range) then .refuse (.allocation q.size q.alignment .windowFull)
  else if ← meets range.base (base + q.size) s.regions then
    let _ ← checked (base + gap)
    pure (.inr (← alignUp (base + gap) q.alignment))
  else pure (.inl range.base)

/-- The first candidate from `base` on, in steps of the gap, that is free and accepted. -/
def place (s : Space) (q : Request) (base : Nat) : Attempt Address :=
  match s.consider q base with
  | .error e => .error e
  | .ok (.inl a) => .ok a
  | .ok (.inr next) => if base < next ∧ next < wordLimit then s.place q next else .error .fault
termination_by wordLimit - base
decreasing_by
  rename_i h
  exact Nat.sub_lt_sub_left (Nat.lt_trans h.1 h.2) h.1

def allocationCount (s : Space) : Nat :=
  s.events.countP fun e => match e with | .allocate _ => true | _ => false

def freeCount (s : Space) : Nat :=
  s.events.countP fun e => match e with | .free _ => true | _ => false

def patchCount (s : Space) : Nat :=
  s.events.countP fun e => match e with | .patch _ => true | _ => false

/-- Allocations in the log that are not freed in it; more frees than allocations are a fault. -/
def liveCount (s : Space) : Attempt Nat :=
  if s.freeCount ≤ s.allocationCount then .ok (s.allocationCount - s.freeCount)
  else .error .fault

def findRoom (limits : SpaceLimits) (s : Space) (q : Request) : Attempt Address := do
  q.checkGuard limits.guard
  q.validate
  if limits.maxAllocation < q.size then .refuse (.allocation q.size q.alignment .aboveMaximum)
  else if limits.allocationLimit.any (· ≤ s.allocationCount) then
    .refuse (.allocation q.size q.alignment .limitReached)
  else
    let start := if q.low ≤ s.next ∧ s.next < q.high then s.next.toNat else max q.low.toNat gap
    s.place q (← alignUp start q.alignment)

def allocate (limits : SpaceLimits) (q : Request) : Action Space Range := fun s =>
  match s.findRoom limits q with
  | .error e => .error e s
  | .ok base =>
    let range : Range := ⟨base, q.size⟩
    let mapped := { s with regions := s.regions.insert base (List.replicate q.size 0) }.log
      (.allocate range)
    if base < s.next then .ok range mapped
    else
      match alignUp (base.toNat + q.size) gap with
      | .error e => .error e mapped
      | .ok next => .ok range { mapped with next := UInt64.ofNat next }

def release (range : Range) (s : Space) : Space :=
  { s with regions := s.regions.erase range.base }.log (.free range)

def replaced (a : Address) (n : Nat) (room : Option Nat) (s : Space) : Attempt Bytes :=
  if room.isSome then s.read a n else .ok []

def exchange (a : Address) (bytes : Bytes) (room : Option Nat) (s : Space) :
    Attempt (Bytes × Space) := do
  checkBackup room bytes.length
  let saved ← s.replaced a bytes.length room
  let written ← s.write a bytes
  pure (saved, written)

def patch (a : Address) (bytes : Bytes) (room : Option Nat) : Action Space Bytes := fun s =>
  match s.exchange a bytes room with
  | .ok (saved, written) => .ok saved (written.log (.patch ⟨a, bytes.length⟩))
  | .error e => .error e s

def registerTargets (range : Range) (offsets : List Nat) : Action Space Unit := fun s =>
  match s.locate range.base range.length with
  | .error e => .error e s
  | .ok none => .error (.refused (.misuse (.unmappedCallTargets range.base))) s
  | .ok (some _) => .ok () (s.log (.register range.base offsets))

/-- Where the run of adjoining regions that reaches `stop` ends, or a place past the bound. -/
def runStop (start bound : Nat) : Table Address Bytes → Nat → Attempt Nat
  | [], stop => .ok stop
  | (base, data) :: rest, stop =>
    if bound ≤ stop - start then .ok stop
    else if base.toNat = stop && !data.isEmpty then do
      runStop start bound rest (← checked (stop + data.length))
    else runStop start bound rest stop

def readable (a : Address) (bound : Nat) (s : Space) : Attempt Nat := do
  match ← s.locate a 0 with
  | none => pure 0
  | some (base, data) =>
    let above := s.regions.filter fun region => base < region.1
    let stop ← runStop a.toNat bound above (base.toNat + data.length)
    pure (min (stop - a.toNat) bound)

def system (limits : SpaceLimits) : System Space where
  os := limits.os
  nativeAbi? := limits.nativeAbi?
  maxAllocation := limits.maxAllocation
  guard := limits.guard
  allocate := allocate limits
  release := release
  patch := patch
  registerTargets := registerTargets
  read := read
  readable := readable

end Space

end Interpose
