import Interpose.Failure
import Interpose.Json.Value

/-!
# Settings

What can be tuned about an engine. Limits of zero make no sense and are refused wherever settings
come from outside.
-/

namespace Interpose

structure Settings where
  runtime : RuntimeKind := .native
  /-- The entries a walk looks at before it gives up. -/
  walkLimit : Nat := 20
  createAltEntry : Bool := true
  /-- A bound on the bytes read at each step of a walk. -/
  readLimit : Option Nat := none
  deriving DecidableEq, Repr

namespace Settings

def validate (s : Settings) : Attempt Unit :=
  if s.walkLimit = 0 then .refuse (.config .zeroWalkLimit)
  else if s.readLimit = some 0 then .refuse (.config .zeroReadLimit)
  else .ok ()

def toJson (s : Settings) : Json :=
  .record [("runtime", .text s.runtime.name), ("walk_iteration_limit", .natural s.walkLimit),
    ("create_alt_entry", .bool s.createAltEntry),
    ("thunk_read_limit", (s.readLimit.map .natural).getD .null)]

end Settings

end Interpose
