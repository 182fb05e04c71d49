import Containment.Access.ProcessGuard

/-!
# The file guard

A process of a family may write or delete only files of its family, and a file it creates becomes
one of them. A file that cannot be identified belongs to no family.
-/

namespace Containment

structure FileSettings where
  /-- A file is no longer owned once its owner has deleted it. -/
  releaseOnDelete : Bool := true
  deriving DecidableEq

structure FileOpen where
  pid : Pid
  file : Option FileId
  isNew : Bool
  isDirectory : Bool
  access : FileAccess

namespace FileOpen

/-- Whether a new file that its family could not own is not to be created either. -/
def deniesCreation : Refusal → Bool
  | .capacityExhausted | .forbidden | .treeDead => true
  | _ => false

def decideNew (pid : Pid) (file : FileId) : Script Verdict := do
  match ← Script.ask (.claim file pid) with
  | .ok () => Verdict.allow.saying (.newFileCreated pid file)
  | .error cause =>
    if deniesCreation cause then Verdict.deny.saying (.newFileRefused pid file cause)
    else Verdict.allow.saying (.newFileCreated pid file)

def decideWrite (pid : Pid) (file : FileId) (access : FileAccess) : Script Verdict := do
  if ← Script.ask (.owns pid file) then Verdict.allow.saying (.ownFileWritten pid file)
  else Verdict.deny.saying (.foreignFileOpened pid access file)

def decideIdentified (request : FileOpen) (file : FileId) : Script Verdict := do
  if request.isNew then decideNew request.pid file
  else if request.access.isWrite then decideWrite request.pid file request.access
  else return .allow

def decideUnidentified (request : FileOpen) : Script Verdict := do
  if request.isNew || request.access.isWrite then
    Verdict.deny.saying (.fileUnidentified request.pid request.access)
  else return .allow

def verdict (request : FileOpen) : Script Verdict := do
  if request.isDirectory then return .allow
  else if !(← Script.ask (.tracks request.pid)) then return .allow
  else
    match request.file.filter FileId.isValid with
    | some file => decideIdentified request file
    | none => decideUnidentified request

end FileOpen

/-! ## Deleting -/

/-- The file stays owned until its deletion is reported, as the deletion may still fail. -/
def FileId.decideDelete (pid : Pid) (file : Option FileId) : Script Verdict := do
  if !(← Script.ask (.tracks pid)) then return .allow
  else
    match file with
    | none => Verdict.deny.saying (.foreignFileDeleted pid .invalid)
    | some file =>
      if ← Script.ask (.owns pid file) then Verdict.allow.saying (.ownFileDeleted pid file)
      else Verdict.deny.saying (.foreignFileDeleted pid file)

/-- Answers whether a family owned the file and has lost it. -/
def FileId.deleted (settings : FileSettings) (file : FileId) : Script Bool := do
  if !settings.releaseOnDelete then return false
  else if ← Script.ask (.disown file) then
    Script.say (.deletedFileReleased file)
    return true
  else return false

/-! ## Paths -/

/-- What the file guard can find out about a path. -/
structure PathView where
  identify : String → Except String FileId
  isDirectory : String → Bool

def PathView.resolve (paths : PathView) (path : String) : Script (Option FileId) := do
  match paths.identify path with
  | .ok file => return some file
  | .error cause =>
    Script.say (.pathUnidentified path cause)
    return none

def PathView.decideOpen (paths : PathView) (pid : Pid) (path : String) (isNew : Bool)
    (flags : OpenFlags) : Script Verdict := do
  let file ← paths.resolve path
  FileOpen.verdict
    { pid, file, isNew
      isDirectory := flags.covers .directory || paths.isDirectory path
      access := flags.access }

def PathView.decideDelete (paths : PathView) (pid : Pid) (path : String) : Script Verdict := do
  FileId.decideDelete pid (← paths.resolve path)

end Containment
