import Containment.Management.Error
import Containment.Management.MediaType
import Containment.Management.Target
import Containment.Settings.Section
import Containment.Wire.Message

/-!
# The management interface

HTTP requests on the registry. A request whose head is not well formed is refused at once. A path
names a resource or nothing, a resource knows some methods, the pid in a path is read before the
body, and the body's content type before its text. Only then the request is dispatched.
-/

namespace Containment.Management

open Wire

structure HttpRequest where
  method : String
  target : String
  contentType : Option String := none
  body : String := ""

/-- A response without a body has one whose wording is left open. -/
structure HttpResponse where
  status : Nat
  body : Option String
  deriving DecidableEq

namespace HttpResponse

def bare (status : Nat) : HttpResponse := ⟨status, some ""⟩

def rejected (status : Nat) : HttpResponse := ⟨status, none⟩

def json {α : Type} [Wired α] (a : α) : HttpResponse := ⟨200, some (write a)⟩

def ofError (e : ControlError) : HttpResponse :=
  let e := ApiError.ofControl e
  ⟨e.status, some e.body⟩

def withoutBody (r : HttpResponse) : HttpResponse := { r with body := r.body.map fun _ => "" }

end HttpResponse

/-! ## Resources -/

inductive Resource where
  | version
  | families
  | family (pid : String)
  | members (pid : String)
  | files (pid : String)
  | terminate (pid : String)
  | wait (pid : String)
  deriving DecidableEq

namespace Resource

/-- A pid may be empty only in the middle of a path. -/
def ofSegments? : List String → Option Resource
  | ["version"] => some .version
  | ["families"] => some .families
  | ["families", pid] => if pid = "" then none else some (.family pid)
  | ["families", pid, "members"] => some (.members pid)
  | ["families", pid, "files"] => some (.files pid)
  | ["families", pid, "terminate"] => some (.terminate pid)
  | ["families", pid, "wait"] => some (.wait pid)
  | _ => none

def ofPath? : List Char → Option Resource
  | '/' :: cs => ofSegments? ((Section.splitAt '/' cs).map String.ofList)
  | _ => none

def methods : Resource → List String
  | .version | .members _ | .files _ => ["GET", "HEAD"]
  | .families => ["GET", "HEAD", "POST"]
  | .family _ => ["DELETE"]
  | .terminate _ | .wait _ => ["POST"]

end Resource

/-! ## Parts of a request -/

def isMethod (method : String) : Bool := !method.isEmpty && method.toList.all isToken

def isHeaderValue (value : String) : Bool :=
  value.toList.all fun c => c = '\t' || c = ' ' || Target.isVisible c

def HttpRequest.path (request : HttpRequest) : Except TargetError (List Char) :=
  if isMethod request.method && request.contentType.all isHeaderValue then
    Target.path request.target
  else .error .malformed

/-- Replaces `%` and two hexadecimal digits by the byte they write. -/
def percentDecode : List Char → List Char
  | '%' :: a :: b :: cs =>
    match Text.digitValue? 16 a, Text.digitValue? 16 b with
    | some high, some low => Char.ofNat (high * 16 + low) :: percentDecode cs
    | _, _ => '%' :: percentDecode (a :: b :: cs)
  | c :: cs => c :: percentDecode cs
  | [] => []

def readPid (segment : String) : Option Pid :=
  match Text.readNatural 32 10 (percentDecode segment.toList) with
  | .ok n => some ⟨UInt32.ofNat n⟩
  | .error _ => none

def readBody {α : Type} [Wired α] (request : HttpRequest) : Except Nat α :=
  if !request.contentType.any isJson then .error 415
  else
    match (read request.body : Except Fault α) with
    | .ok a => .ok a
    | .error .malformed => .error 400
    | .error .unfit => .error 422

/-! ## Answering -/

def bodyOf : Response → HttpResponse
  | .registered root => .json (Registered.mk root)
  | .unregistered removed => .json (Unregistered.mk removed)
  | .terminated pids => .json (Terminated.mk pids)
  | .members pids => .json pids
  | .files files => .json files
  | .waited timedOut removed => .json (ExitStatus.mk timedOut removed)

def dispatch (request : Request) : Script HttpResponse := do
  match ← request.dispatch with
  | .ok response => return bodyOf response
  | .error e => return .ofError e

def dispatchOn (segment : String) (request : Pid → Request) : Script HttpResponse :=
  match readPid segment with
  | some pid => dispatch (request pid)
  | none => return .rejected 400

def register (request : HttpRequest) : Script HttpResponse :=
  match (readBody request : Except Nat Registration) with
  | .ok r => dispatch (.register r.pid r.origin r.policy)
  | .error status => return .rejected status

def wait (segment : String) (request : HttpRequest) : Script HttpResponse :=
  match readPid segment with
  | none => return .rejected 400
  | some pid =>
    match (readBody request : Except Nat WaitOrder) with
    | .ok order => dispatch (.wait pid order.milliseconds)
    | .error status => return .rejected status

def serve (version : String) (request : HttpRequest) : Resource → Script HttpResponse
  | .version => return .json (Version.mk version)
  | .families => do
    if request.method = "POST" then register request
    else return .json (← Script.ask .summaries)
  | .family pid => dispatchOn pid .unregister
  | .members pid => dispatchOn pid .listMembers
  | .files pid => dispatchOn pid .listFiles
  | .terminate pid => dispatchOn pid .terminate
  | .wait pid => wait pid request

def respondAt (version : String) (request : HttpRequest) (path : List Char) :
    Script HttpResponse := do
  match Resource.ofPath? path with
  | none => return .bare 404
  | some resource =>
    if !resource.methods.contains request.method then return .bare 405
    else
      let response ← serve version request resource
      return if request.method = "HEAD" then response.withoutBody else response

def respond (version : String) (request : HttpRequest) : Script HttpResponse :=
  match request.path with
  | .ok path => respondAt version request path
  | .error .malformed => return .rejected 400
  | .error .tooLong => return .bare 414

end Containment.Management
