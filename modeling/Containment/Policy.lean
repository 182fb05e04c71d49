/-!
# Policies

A policy says what keeps a family in the registry once all its processes are gone.
-/

namespace Containment

inductive Policy where
  /-- The family goes with its last process. -/
  | noRestriction
  /-- The family stays while it owns files, so that nobody else can take them over. -/
  | protectDroppedFiles
  deriving DecidableEq, Inhabited

namespace Policy

def text : Policy → String
  | .noRestriction => "no-restriction"
  | .protectDroppedFiles => "protect-dropped-files"

instance : ToString Policy := ⟨text⟩

def ofText? (s : String) : Option Policy :=
  if s = text .noRestriction then some .noRestriction
  else if s = text .protectDroppedFiles then some .protectDroppedFiles
  else none

theorem ofText?_text (p : Policy) : ofText? p.text = some p := by
  cases p <;> decide

end Policy

end Containment
