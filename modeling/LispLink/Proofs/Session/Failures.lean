/-
  LispLink.Proofs.Session.Failures
  ────────────────────────────────
  **A SEND THAT FAILS LEAVES NO TRACE.**

  Sending takes several steps, and each of those that can fail takes back what was
  done before it.  Only the id of a request is gone for good:

      the id is too great for the image   │
      the payload fits no frame           │   the session, with an id skipped
      the writer is gone                  │

  An open session has no other reason to refuse, and each of the first two is told
  by a number.  The last one can only be met while a session goes down, when other
  tasks take their steps in between; so it is about sessions that are shared.
-/
import LispLink.Proofs.Session.Correlation
import LispLink.Proofs.Session.Requests
import LispLink.Proofs.Session.Stranding

namespace LispLink

open Wire

/-! ## §1. What can be encoded. -/

namespace Wire

end Wire

namespace Session

/-! ## §2. An open session. -/

section

variable {s : Session}

end

/-! ## §3. What comes later. -/

section

variable (s : Session)

end

/-! ## §4. Without a writer. -/

namespace Interleaved

section

variable (i : Nat) (fault : Option String) (s : Shared)

end

section

variable {form : Value} {package : String} {thread : Thread}

end

end Interleaved

/-! ## §7. All sends. -/

end Session

end LispLink
