import Containment.Session
import Containment.Watch

/-!
# The process feed

Process events are taken one after the other, in the order in which they arrive. Only the exit of a
root that is still busy goes on in the background, so that the feed flows on while the root waits
for its family.
-/

namespace Containment.Session

/-- What comes of one event. Without an answer it waits in the background. -/
def observe (host : Host) (settings : WatchSettings) (s : Session) (event : ProcessEvent) :
    Outcome Reaction :=
  s.perform host (event.handle settings)

def feed (host : Host) (settings : WatchSettings) (s : Session) (events : List ProcessEvent) :
    Session :=
  events.foldl (fun s event => (s.observe host settings event).session) s

end Containment.Session
