/-
  LispLink.Proofs.Session.Notices
  ────────────────────────────────
  **SUBSCRIBERS HEAR OF EVERY PAYLOAD ON ITS OWN.**

  What a payload is to subscribers is decided by its first form alone: one notice
  with the data of the message, or nothing (`Contributes`).  An open session that
  handles payloads gives just these notices in the order of the payloads, whatever
  requests are pending and whatever else the payloads say:

      notices behind [p₁, …, pₙ]  =  notices before, of p₁, …, of pₙ

  No payload ends the session or spends an id; only replies concern the requests
  that are pending, and what is no message has no effect at all.
-/
import LispLink.Proofs.Session.Ending
import LispLink.Proofs.Wire.Messages

namespace LispLink.Session

open Reply Wire

/-! ## §1. What a payload is to subscribers. -/

section

variable {s : Session} {payload : String}

end

/-! ## §3. Payloads in a row. -/

end LispLink.Session
