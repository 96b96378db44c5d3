import Interpose.Failure

/-!
# Scratch buffers

Buffers lent out by number while stub pages are put together. A buffer is all zeros when it is
lent, whatever held its memory before.
-/

namespace Interpose

/-- The buffers lent so far; those handed back are gone. -/
structure Scratch where
  buffers : List (Option Bytes) := []

namespace Scratch

variable (s : Scratch)

def get (slot : Nat) : Attempt Bytes :=
  match s.buffers[slot]? with
  | some (some buffer) => .ok buffer
  | _ => .error .fault

def put (slot : Nat) (buffer : Option Bytes) : Scratch := ⟨s.buffers.set slot buffer⟩

def rent (length : Nat) : Bytes × Scratch :=
  let buffer := List.replicate length 0
  (buffer, ⟨s.buffers ++ [some buffer]⟩)

def fill (slot : Nat) (value : UInt8) : Attempt (Bytes × Scratch) := do
  let buffer := List.replicate (← s.get slot).length value
  pure (buffer, s.put slot (some buffer))

def setByte (slot index : Nat) (value : UInt8) : Attempt (Bytes × Scratch) := do
  let buffer ← s.get slot
  if buffer.length ≤ index then .error .fault
  else
    let buffer := buffer.set index value
    pure (buffer, s.put slot (some buffer))

def drop (slot : Nat) : Scratch := s.put slot none

end Scratch

end Interpose
