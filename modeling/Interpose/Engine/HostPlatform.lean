import Interpose.Engine.Platform
import Interpose.Memory.Host

/-!
# The platform of the host

The instruction set, memory and native functions of the machine the engine runs on.
-/

namespace Interpose

/-- The host under given settings. Engines other than native code are supplied from outside. -/
def Platform.ofHost (settings : Settings) : Attempt (Platform Host Unit) := do
  let runtime ← Runtime.ofSystem Host.system
  if settings.runtime = .native then pure ⟨.x86_64, Host.system, runtime, settings⟩
  else .refuse (.unsupported (.hostSuppliedRuntime settings.runtime))

end Interpose
