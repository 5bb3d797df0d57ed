import SphereFixtures.Logging.Message
import SphereFixtures.Logging.Setup

/-!
# Checks that are reported

A check of search results logs every mismatch that it records.  A caller that
wants the mismatches as well passes a list, to which they are appended.
-/

namespace SphereFixtures

namespace Logging

/-- What a check leaves behind: the loggers and their journal, the list of the
caller if there is one, and the verdict. -/
structure Review where
  state : State
  collected : Option (List (Nearest.Mismatch Float))
  verdict : Except Nearest.CheckError Bool

namespace State

def review (state : State) (collected : Option (List (Nearest.Mismatch Float)))
    (outcome : Nearest.Outcome Float) : Review :=
  { state := state.emitAll (outcome.recorded.map Record.mismatch)
    collected := collected.map (· ++ outcome.recorded)
    verdict := outcome.verdict }

end State

end Logging

end SphereFixtures
