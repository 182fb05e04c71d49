import Containment.Registry.Basic

/-!
# Queries on the registry

Questions on who belongs where. An identifier that names nothing is answered like one the registry
does not know, and where a root is asked for, the answer for none is the invalid pid.
-/

namespace Containment.Registry

def tracks (reg : Registry) (pid : Pid) : Bool :=
  pid.isValid && (reg.slotOfMember? pid).isSome

def related (reg : Registry) (first second : Pid) : Bool :=
  first.isValid && second.isValid &&
    (reg.slotOfMember? first).any fun slot => slot.family.members.contains second

def rootOf (reg : Registry) (pid : Pid) : Pid :=
  if pid.isValid then ((reg.slotOfMember? pid).map fun slot => slot.family.root).getD .invalid
  else .invalid

def rootOfFile (reg : Registry) (file : FileId) : Pid :=
  if file.isValid then ((reg.slotOfFile? file).map fun slot => slot.family.root).getD .invalid
  else .invalid

def owns (reg : Registry) (pid : Pid) (file : FileId) : Bool :=
  pid.isValid && file.isValid &&
    (reg.slotOfFile? file).any fun slot => slot.family.members.contains pid

def hasRoomForFile (reg : Registry) (pid : Pid) : Bool :=
  pid.isValid && (reg.slotOfMember? pid).any fun slot => slot.family.hasRoomForFile

def memberCount (reg : Registry) (root : Pid) : Nat :=
  ((reg.slotOfRoot? root).map fun slot => slot.family.members.count).getD 0

def members (reg : Registry) (root : Pid) : List Pid :=
  ((reg.slotOfRoot? root).map fun slot => slot.family.members.items).getD []

def files (reg : Registry) (root : Pid) : List FileId :=
  ((reg.slotOfRoot? root).map fun slot => slot.family.files.items).getD []

def fillMembers (reg : Registry) (root : Pid) (buffer : List Pid) : Nat × List Pid :=
  match reg.slotOfRoot? root with
  | some slot => slot.family.members.fill .invalid buffer
  | none => (0, List.replicate buffer.length .invalid)

def fillFiles (reg : Registry) (root : Pid) (buffer : List FileId) : Nat × List FileId :=
  match reg.slotOfRoot? root with
  | some slot => slot.family.files.fill .invalid buffer
  | none => (0, List.replicate buffer.length .invalid)

/-- One summary a family, in slot order. -/
def summaries (reg : Registry) : List Summary := reg.families.map Family.summary

end Containment.Registry
