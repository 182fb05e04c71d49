import Containment.Main
import Containment.Proofs.Anchor
import Containment.Proofs.Reclaim
import Containment.Proofs.Reuse
import Containment.Proofs.Capacity
import Containment.Proofs.Exhaustion
import Containment.Proofs.Order
import Containment.Proofs.Tenure
import Containment.Proofs.FileAccess
import Containment.Proofs.Tampering
import Containment.Proofs.Wakeups
import Containment.Proofs.Departures
import Containment.Proofs.Removals
import Containment.Proofs.RoundTrip
import Containment.Proofs.Decline
import Containment.Proofs.Respawn
import Containment.Proofs.Registration
import Containment.Proofs.Terminations
import Containment.Proofs.Contention
import Containment.Proofs.Coherence
import Containment.Proofs.Grants
import Containment.Proofs.JsonText
import Containment.Proofs.Survivors
import Containment.Proofs.WireText
import Containment.Proofs.Losses
import Containment.Proofs.Reexecution
import Containment.Proofs.Exits
import Containment.Proofs.Adoption
import Containment.Proofs.Stripping
import Containment.Proofs.Identifiers
import Containment.Proofs.Lists
import Containment.Proofs.Buffers
import Containment.Proofs.Configuration
import Containment.Proofs.FiniteSets
