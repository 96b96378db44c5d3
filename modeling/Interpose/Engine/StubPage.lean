import Interpose.Arch.Redirect

/-!
# Stub pages

Copies of a code template, one for each slot of a table, with the slot's number written into each.
Copies are packed into allocations as large as the system allows. They are numbered on one scratch
page, which every batch of slots uses again. Slots are published only when every copy is in place; a
failure gives back all that was allocated.
-/

namespace Interpose

variable {σ : Type} (sys : System σ)

def System.installing (q : Request) (code : Bytes) (offsets : List Nat) : Action σ Range :=
  sys.allocating q fun memory => do
    let _ ← sys.patch memory.base code none
    sys.registerGuarded memory offsets
    pure memory

namespace StubPage

def createSingle (code : Bytes) : Action σ Range :=
  sys.installing { size := code.length, alignment := sys.guard.getD 1, executable := true } code [0]

def wordMax : Nat := wordLimit - 1

/-- What the field of a slot holds: its number, or its distance in a table of pointers. -/
def fieldValue (premultiply : Bool) (index : Nat) : Nat :=
  if premultiply then min (index * 8) wordMax else index

def blankStub (template : Bytes) (size : Nat) : Bytes :=
  template ++ List.replicate (size - template.length) 0

def setField (offset value : Nat) (stub : Bytes) : Bytes :=
  stub.take offset ++ leBytes 4 value ++ stub.drop (offset + 4)

/-- Numbers the first `count` stubs of a page from `first` on; those behind stay as they are. -/
def renumber (offset : Nat) (premultiply : Bool) (first count : Nat) (page : List Bytes) :
    List Bytes :=
  (page.take count).mapIdx (fun i => setField offset (fieldValue premultiply (first + i))) ++
    page.drop count

def stubOffsets (size count : Nat) : List Nat := (List.range count).map (· * size)

def createPage (size : Nat) (stubs : List Bytes) : Action σ Range :=
  sys.installing
    { size := stubs.length * size, alignment := sys.guard.getD 8, executable := true }
    stubs.flatten (stubOffsets size stubs.length)

def releaseAll (ranges : List Range) (s : σ) : σ := ranges.foldl (fun s r => sys.release r s) s

/-- The first slot of each page and how many it has, when pages take `perPage` slots. -/
def batches (perPage slots : Nat) : List (Nat × Nat) :=
  (List.range ((slots + perPage - 1) / perPage)).map fun k =>
    (k * perPage, min perPage (slots - k * perPage))

def stubSlots (base : Address) (size count : Nat) : List Address :=
  (stubOffsets size count).map fun offset => base + UInt64.ofNat offset

/-- The entries and the allocations of some batches of slots, all made on one scratch page. What
was made before is given back when one fails. -/
def createPages (offset size : Nat) (premultiply : Bool) :
    List (Nat × Nat) → (page : List Bytes) → (made : List Range) →
    Action σ (List Address × List Range)
  | [], _, _ => pure ([], [])
  | (first, count) :: rest, page, made => do
    let page := renumber offset premultiply first count page
    let memory ← (createPage sys size (page.take count)).guarded (releaseAll sys made)
    let (table, ranges) ← createPages offset size premultiply rest page (made ++ [memory])
    pure (stubSlots memory.base size count ++ table, memory :: ranges)

def checkField (template : Bytes) (offset : Nat) : Attempt Unit :=
  let misplaced : Error := .misuse (.indexFieldOutside offset template.length)
  if template.isEmpty then .refuse misplaced
  else do
    let stop ← checked (offset + 4)
    if template.length < stop then .refuse misplaced else .ok ()

/-- The room for one stub: where calls are guarded, each starts aligned for the guard. -/
def stubSize (guard : Option Nat) (template : Bytes) : Attempt Nat :=
  match guard with
  | some alignment => alignUp template.length alignment
  | none => .ok template.length

/-- Stubs for a table of `slots` entries: the entries and the allocations behind them. -/
def createTable (slots : Nat) (template : Bytes) (offset : Nat) (premultiply : Bool) :
    Action σ (List Address × List Range) := do
  Attempt.lift (checkField template offset)
  if slots = 0 then pure ([], [])
  else if 4294967296 ≤ fieldValue premultiply (slots - 1) then
    throw (.refused (.misuse (.tooManySlots slots)))
  else
    let size ← Attempt.lift (stubSize sys.guard template)
    let perPage := sys.maxAllocation / size
    if perPage = 0 then
      throw (.refused (.allocation size 1 (.stubAboveMaximum sys.maxAllocation)))
    else
      let page := List.replicate (min perPage slots) (blankStub template size)
      createPages sys offset size premultiply (batches perPage slots) page []

structure Filling (σ : Type) where
  table : List Address
  memory : σ

namespace Filling
variable {α : Type}

def onMemory (x : Action σ α) : Action (Filling σ) α := fun f =>
  match x f.memory with
  | .ok a memory => .ok a { f with memory }
  | .error e memory => .error e { f with memory }

/-- Runs on a table, which is handed out as it is left. -/
def onTable (table : List Address) (x : Action (Filling σ) α) : Action σ (List Address × α) :=
  fun memory =>
    match x { table, memory } with
    | .ok a f => .ok (f.table, a) f.memory
    | .error e f => .error e f.memory

end Filling

/-- Fills a table with stubs. The table is written last, when every stub is in place. -/
def fillTable (template : Bytes) (offset : Nat) (premultiply : Bool) :
    Action (Filling σ) (List Range) := do
  let (entries, ranges) ← Filling.onMemory
    (createTable sys (← get).table.length template offset premultiply)
  modify fun f => { f with table := entries }
  pure ranges

structure Proxy where
  table : List Address
  allocations : List Range
  deriving DecidableEq, Repr

def createProxy (isa : Isa) (slots : Nat) : Action σ Proxy := do
  match isa.proxyStub? sys.os with
  | none => throw (.refused (.unsupported (.noProxyStub isa.kind)))
  | some stub =>
    let (table, allocations) ← Filling.onTable (List.replicate slots 0)
      (fillTable sys stub.template stub.indexOffset stub.premultiplied)
    pure { table, allocations }

end StubPage

end Interpose
