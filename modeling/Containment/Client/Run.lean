import Containment.Client.Options
import Containment.Client.Table
import Containment.Management.Interface
import Containment.Paths

/-!
# Running the client

A command of the client is one request to the management interface, and what it prints is made from
the response.
-/

namespace Containment.Client

open Management Wire

inductive ClientError where
  | socketNotFound (path : String)
  | notASocket (path : String)
  | noMetadata (path : String)
  | unidentified (path : String) (cause : PathError)
  | unexpectedStatus (status : Nat) (message : String)
  | unreadableResponse
  deriving DecidableEq

def ClientError.message : ClientError → String
  | .socketNotFound path => s!"Unix socket not found: {path}"
  | .notASocket path => s!"Not a unix socket: {path}"
  | .noMetadata path => s!"Failed to get metadata: {path}"
  | .unidentified path cause => s!"cannot identify {path}: {cause.message}"
  | .unexpectedStatus status message => s!"HTTP error {status}: {message}"
  | .unreadableResponse => "Deserialization error"

/-- A socket must be there before any request is made. -/
def connect (fs : Filesystem) (path : String) : Except ClientError Unit :=
  match fs.lookup path with
  | .error .notFound => .error (.socketNotFound path)
  | .error _ => .error (.noMetadata path)
  | .ok node => if node.kind = .socket then .ok () else .error (.notASocket path)

/-! ## Requests -/

def get (target : String) : HttpRequest := { method := "GET", target }

def post {α : Type} [Wired α] (target : String) (body : α) : HttpRequest :=
  { method := "POST", target, contentType := some "application/json", body := write body }

def familyPath (pid : Pid) (part : String) : String := s!"/families/{pid}{part}"

def originOf (fs : Filesystem) (origin : Option FileId) (path : Option String) :
    Except ClientError FileId :=
  match origin, path with
  | some file, _ => .ok file
  | none, some path =>
    match fs.lookup path with
    | .ok node => .ok node.id
    | .error cause => .error (.unidentified path cause)
  | none, none => .ok .invalid

def requestOf (fs : Filesystem) : Command → Except ClientError HttpRequest
  | .status => .ok (get "/families")
  | .version => .ok (get "/version")
  | .register pid origin path policy => do
    let origin ← originOf fs origin path
    return post "/families" (Registration.mk pid origin policy)
  | .unregister pid => .ok { method := "DELETE", target := familyPath pid "" }
  | .terminate pid => .ok { method := "POST", target := familyPath pid "/terminate" }
  | .members pid => .ok (get (familyPath pid "/members"))
  | .files pid => .ok (get (familyPath pid "/files"))
  | .wait pid milliseconds => .ok (post (familyPath pid "/wait") (WaitOrder.mk milliseconds))

/-! ## Printing -/

def stateText (live : Bool) : String := if live then "live" else "exited"

def statusText (families : List Summary) : String :=
  if families.isEmpty then "No family is being watched"
  else
    Table.text
      { heading := ["ROOT", "STATE", "POLICY", "MEMBERS", "FILES", "ORIGIN"]
        rows := (families.mergeSort fun a b => !(b.root < a.root)).map fun s =>
          [s.root.text, stateText s.live, s.policy.text, toString s.members, toString s.files,
            s.origin.text] }

def roleText (root pid : Pid) : String := if pid = root then "root" else "member"

def membersText (root : Pid) (pids : List Pid) : String :=
  if pids.isEmpty then s!"{root} is not the root of a watched family"
  else
    Table.text
      { heading := ["PID", "ROLE"], rows := pids.map fun pid => [pid.text, roleText root pid] }

def filesText (root : Pid) (files : List FileId) : String :=
  if files.isEmpty then s!"Family {root} owns no files"
  else Table.text { heading := ["FILE ID"], rows := files.map fun file => [file.text] }

def waitText (status : ExitStatus) : String :=
  if status.timedOut then "Timed out, family members still running"
  else if status.removed then "Process released"
  else "Process was not watched"

def unregisterText (pid : Pid) (removed : Bool) : String :=
  if removed then s!"Process {pid} released" else s!"Process {pid} was not watched"

def bodyAs (α : Type) [Wired α] (response : HttpResponse) : Except ClientError α :=
  let body := response.body.getD ""
  if 200 ≤ response.status && response.status < 300 then
    match (read body : Except Fault α) with
    | .ok a => .ok a
    | .error _ => .error .unreadableResponse
  else .error (.unexpectedStatus response.status body)

def outputOf (command : Command) (response : HttpResponse) : Except ClientError String :=
  match command with
  | .status => (bodyAs (List Summary) response).map statusText
  | .version => (bodyAs Version response).map Version.version
  | .register .. => (bodyAs Registered response).map fun r => s!"Watching family {r.root}"
  | .unregister pid => (bodyAs Unregistered response).map fun u => unregisterText pid u.removed
  | .terminate _ =>
    (bodyAs Terminated response).map fun t => s!"Terminated {t.pids.length} processes"
  | .members pid => (bodyAs (List Pid) response).map (membersText pid)
  | .files pid => (bodyAs (List FileId) response).map (filesText pid)
  | .wait .. => (bodyAs ExitStatus response).map waitText

/-- Runs a command against the server at `socket`, unless the options name another one. -/
def run (fs : Filesystem) (socket : String) (server : HttpRequest → Script HttpResponse)
    (options : Options) : Script (Except ClientError String) := do
  match connect fs (options.server.getD socket) with
  | .error e => return .error e
  | .ok () =>
    match requestOf fs options.command with
    | .error e => return .error e
    | .ok request =>
      let response ← server request
      return (outputOf options.command response).map (· ++ "\n")

end Containment.Client
