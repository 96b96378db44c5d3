import Interpose.Memory.System
import Interpose.Table

/-!
# Host memory

Memory as a paged operating system hands it out: whole pages, zero-filled, each allocation a
mapping of its own. Placement inside a window goes to the free place nearest to its middle.
-/

namespace Interpose

structure Host where
  mappings : Table Address Nat := []
  /-- Bytes that were written; all others that are mapped are zero. -/
  written : Table Address UInt8 := []
  deriving DecidableEq, Repr

namespace Host

def pageSize : Nat := 0x1000

def maxAllocation : Nat := 0x4000000

def floor : Nat := 0x10000

def ceiling : Nat := 0x7FFFFFFFF000

/-- Mappings without a window go below this address. -/
def roof : Nat := 0x7F0000000000

def kernelPage : Nat × Nat := (0xFFFFFFFFFF600000, 0xFFFFFFFFFF601000)

def lastPage : Nat × Nat := (wordLimit - pageSize, wordLimit - 1)

def alignDown (n alignment : Nat) : Nat := n - n % alignment

def extents (h : Host) : List (Nat × Nat) :=
  h.mappings.map fun (base, length) => (base.toNat, base.toNat + length)

def runStop (h : Host) (a : Nat) : Nat :=
  h.extents.foldl (fun stop (low, high) => if low ≤ stop ∧ stop < high then high else stop) a

def byteAt? (h : Host) (a : Address) : Option UInt8 :=
  if a.toNat < h.runStop a.toNat then some ((h.written.get? a).getD 0) else none

def read (a : Address) (n : Nat) (h : Host) : Attempt Bytes :=
  if n = 0 then .ok []
  else if a.toNat + n ≤ h.runStop a.toNat then
    .ok ((List.range n).map fun i => (h.written.get? (a + UInt64.ofNat i)).getD 0)
  else .refuse (.unreadable a (.unmapped n))

def readable (a : Address) (bound : Nat) (h : Host) : Attempt Nat :=
  .ok (min (h.runStop a.toNat - a.toNat) bound)

def isFree (h : Host) (base length : Nat) : Bool :=
  floor ≤ base && base + length ≤ ceiling &&
    h.extents.all fun (low, high) => base + length ≤ low || high ≤ base

/-- In each gap between mappings, the place nearest to `center` that fits the window. -/
def places (q : Request) (length alignment center : Nat) :
    List (Nat × Nat) → (gap : Nat) → Attempt (List Nat)
  | [], _ => .ok []
  | (start, stop) :: rest, gap => do
    let low ← alignUp (max gap q.low.toNat) alignment
    let high := min start q.high.toNat
    let others ← places q length alignment center rest (max gap stop)
    if low < high ∧ length ≤ high - low then
      let highest := alignDown (high - length) alignment
      pure (max low (min (alignDown center alignment) highest) :: others)
    else pure others

def maxPlaces : Nat := 64

def placeInside (h : Host) (q : Request) (length : Nat) : Attempt (Option Nat) := do
  let alignment := max q.alignment pageSize
  let center := q.low.toNat / 2 + q.high.toNat / 2
  let found ← places q length alignment center (h.extents ++ [kernelPage, lastPage]) pageSize
  let away (a : Nat) : Nat := (a - center) + (center - a)
  let sorted := found.mergeSort fun a b => away a ≤ away b
  pure ((sorted.take maxPlaces).find? fun base => h.isFree base length)

def placeAnywhere (h : Host) (length : Nat) : Option Nat :=
  let starts := (roof :: h.extents.reverse.map (·.1)).filter fun top => top ≤ roof && length ≤ top
  (starts.map (· - length)).find? fun base => h.isFree base length

/-- A free place that is aligned as asked; larger alignments are found inside a longer range. -/
def placeAligned (h : Host) (length alignment : Nat) : Attempt (Option Nat) :=
  if alignment ≤ pageSize then .ok (h.placeAnywhere length)
  else do
    let padded ← checked (length + alignment)
    match h.placeAnywhere padded with
    | none => pure none
    | some base => some <$> alignUp base alignment

def findRoom (h : Host) (q : Request) : Attempt (Address × Nat) := do
  q.validate
  if maxAllocation < q.size then .refuse (.allocation q.size q.alignment .aboveMaximum)
  else
    let length ← alignUp q.size pageSize
    let place ← if q.isBounded then h.placeInside q length else h.placeAligned length q.alignment
    match place with
    | some base => pure (UInt64.ofNat base, length)
    | none => .refuse (.allocation q.size q.alignment .exhausted)

def allocate (q : Request) : Action Host Range := fun h =>
  match h.findRoom q with
  | .error e => .error e h
  | .ok (base, length) => .ok ⟨base, q.size⟩ { h with mappings := h.mappings.insert base length }

def release (range : Range) (h : Host) : Host :=
  let stop := range.base.toNat + (h.mappings.get? range.base).getD 0
  { mappings := h.mappings.erase range.base
    written := h.written.filter fun (a, _) => a < range.base || stop ≤ a.toNat }

def write (a : Address) : Bytes → Host → Host
  | [], h => h
  | b :: rest, h => write (a + 1) rest { h with written := h.written.insert a b }

/-- Overwrites bytes in pages that are all mapped. Nothing is looked at for no bytes. -/
def patch (a : Address) (bytes : Bytes) (room : Option Nat) : Action Host Bytes := fun h =>
  let saved : Attempt Bytes :=
    if bytes.isEmpty then .ok []
    else do
      checkBackup room bytes.length
      let start := alignDown a.toNat pageSize
      let stop ← alignUp (← a.plus bytes.length) pageSize
      if h.runStop start < stop then .refuse (.unwritable (UInt64.ofNat start) .partlyMapped)
      else if room.isSome then h.read a bytes.length
      else pure []
  match saved with
  | .ok saved => .ok saved (h.write a bytes)
  | .error e => .error e h

/-- The system of the host; calls are not guarded, so call targets need no registration. -/
def system : System Host where
  os := .linux
  nativeAbi? := Abi.forPlatform? .linux .x86_64
  maxAllocation := maxAllocation
  guard := none
  allocate := allocate
  release := release
  patch := patch
  registerTargets _ _ := pure ()
  read := read
  readable := readable

end Host

end Interpose
