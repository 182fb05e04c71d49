import Containment.Control
import Containment.Wire.Record

/-!
# Messages on the wire

The identifiers, the requests and responses of the control side, the summaries of families and the
bodies of the management interface, each with its fields and their order.
-/

namespace Containment.Wire

open Json

/-! ## Values -/

instance : Wired Bool where
  encode := .bool
  decode _ := decodeBool

instance : Wired String where
  encode := .string
  decode _ := decodeString

instance : Wired UInt64 where
  encode n := encodeNat n.toNat
  decode _ tree := (decodeNat UInt64.size tree).map UInt64.ofNat

instance : Wired Pid where
  encode pid := encodeNat pid.raw.toNat
  decode _ tree := (decodeNat UInt32.size tree).map fun n => ⟨UInt32.ofNat n⟩

instance : Wired FileId where
  encode file := encodeNat file.raw.toNat
  decode _ tree := (decodeNat UInt64.size tree).map fun n => ⟨UInt64.ofNat n⟩

instance {α : Type} [Wired α] : Wired (List α) where
  encode items := .list (items.map Wired.encode)
  decode reading := decodeList (Wired.decode reading)

/-- What follows the name in the long form of a policy. -/
def decodeUnit (reading : Reading) : Tree → Except Fault Unit
  | .null => .ok ()
  | .object .close => if reading = .whole then .ok () else .error .unfit
  | tree => .error (mismatch tree)

/-- A policy is its name, or an object with its name as only key and null as value. Whatever is
neither a string nor an object cannot even begin a policy. -/
def decodePolicy (reading : Reading) : Tree → Except Fault Policy
  | .text (some name) =>
    match Policy.ofText? name with
    | some policy => .ok policy
    | none => .error .unfit
  | .object (.field (some name) v rest) =>
    match Policy.ofText? name with
    | none => .error .unfit
    | some policy => do
      decodeUnit reading v
      if rest.isClose then .ok policy else .error .malformed
  | _ => .error .malformed

instance : Wired Policy where
  encode policy := .string policy.text
  decode := decodePolicy

/-! ## Summaries -/

def summaryRules (reading : Reading) : List FieldRule :=
  [.of Pid reading "root", .of FileId reading "origin", .of Policy reading "policy",
    .of Bool reading "live", .of UInt64 reading "members", .of UInt64 reading "files"]

instance : Wired Summary where
  encode s := .record
    [("root", Wired.encode s.root), ("origin", Wired.encode s.origin),
      ("policy", Wired.encode s.policy), ("live", Wired.encode s.live),
      ("members", Wired.encode s.members), ("files", Wired.encode s.files)]
  decode reading tree := do
    let found ← takeRecord (summaryRules reading) tree
    return {
      root := ← found.get reading "root"
      origin := ← found.get reading "origin"
      policy := ← found.get reading "policy"
      live := ← found.get reading "live"
      members := ← found.get reading "members"
      files := ← found.get reading "files" }

/-! ## Requests and responses -/

def registrationRules (reading : Reading) : List FieldRule :=
  [.of Pid reading "pid", .of FileId reading "origin" true, .of Policy reading "policy" true]

def requestRules : String → Option (List FieldRule)
  | "register_family" => some (registrationRules .whole)
  | "unregister_family" | "terminate_family" | "list_members" | "list_files" =>
    some [.of Pid .whole "pid"]
  | "wait_for_exit" => some [.of Pid .whole "pid", .of UInt64 .whole "timeout_ms" true]
  | _ => none

def encodeRequest : Request → Tree
  | .register pid origin policy => tagged "register_family"
      [("pid", Wired.encode pid), ("origin", Wired.encode origin), ("policy", Wired.encode policy)]
  | .unregister pid => tagged "unregister_family" [("pid", Wired.encode pid)]
  | .terminate pid => tagged "terminate_family" [("pid", Wired.encode pid)]
  | .listMembers pid => tagged "list_members" [("pid", Wired.encode pid)]
  | .listFiles pid => tagged "list_files" [("pid", Wired.encode pid)]
  | .wait pid milliseconds => tagged "wait_for_exit"
      [("pid", Wired.encode pid), ("timeout_ms", Wired.encode milliseconds)]

def decodeRequest (tree : Tree) : Except Fault Request := do
  let (tag, found) ← takeWholeTagged requestRules tree
  let pid ← found.get .whole "pid"
  match tag with
  | "register_family" =>
    return .register pid (← found.getD .whole "origin" .invalid)
      (← found.getD .whole "policy" .noRestriction)
  | "unregister_family" => return .unregister pid
  | "terminate_family" => return .terminate pid
  | "list_members" => return .listMembers pid
  | "list_files" => return .listFiles pid
  | _ => return .wait pid (← found.getD .whole "timeout_ms" 0)

instance : Wired Request where
  encode := encodeRequest
  decode _ := decodeRequest

def responseRules : String → Option (List FieldRule)
  | "registered" => some [.of Pid .whole "root"]
  | "unregistered" => some [.of Bool .whole "removed"]
  | "terminated" | "members" => some [.of (List Pid) .whole "pids"]
  | "files" => some [.of (List FileId) .whole "files"]
  | "waited" => some [.of Bool .whole "timed_out", .of Bool .whole "removed"]
  | _ => none

def encodeResponse : Response → Tree
  | .registered root => tagged "registered" [("root", Wired.encode root)]
  | .unregistered removed => tagged "unregistered" [("removed", Wired.encode removed)]
  | .terminated pids => tagged "terminated" [("pids", Wired.encode pids)]
  | .members pids => tagged "members" [("pids", Wired.encode pids)]
  | .files files => tagged "files" [("files", Wired.encode files)]
  | .waited timedOut removed => tagged "waited"
      [("timed_out", Wired.encode timedOut), ("removed", Wired.encode removed)]

def decodeResponse (tree : Tree) : Except Fault Response := do
  let (tag, found) ← takeWholeTagged responseRules tree
  match tag with
  | "registered" => return .registered (← found.get .whole "root")
  | "unregistered" => return .unregistered (← found.get .whole "removed")
  | "terminated" => return .terminated (← found.get .whole "pids")
  | "members" => return .members (← found.get .whole "pids")
  | "files" => return .files (← found.get .whole "files")
  | _ => return .waited (← found.get .whole "timed_out") (← found.get .whole "removed")

instance : Wired Response where
  encode := encodeResponse
  decode _ := decodeResponse

/-! ## Bodies of the management interface -/

structure Registration where
  pid : Pid
  origin : FileId := .invalid
  policy : Policy := .noRestriction
  deriving DecidableEq

instance : Wired Registration where
  encode r := .record
    [("pid", Wired.encode r.pid), ("origin", Wired.encode r.origin),
      ("policy", Wired.encode r.policy)]
  decode reading tree := do
    let found ← takeRecord (registrationRules reading) tree
    return {
      pid := ← found.get reading "pid"
      origin := ← found.getD reading "origin" .invalid
      policy := ← found.getD reading "policy" .noRestriction }

structure Registered where
  root : Pid
  deriving DecidableEq

instance : Wired Registered where
  encode r := .record [("root", Wired.encode r.root)]
  decode reading tree := do
    let found ← takeRecord [.of Pid reading "root"] tree
    return { root := ← found.get reading "root" }

structure Unregistered where
  removed : Bool
  deriving DecidableEq

instance : Wired Unregistered where
  encode u := .record [("removed", Wired.encode u.removed)]
  decode reading tree := do
    let found ← takeRecord [.of Bool reading "removed"] tree
    return { removed := ← found.get reading "removed" }

structure Terminated where
  pids : List Pid
  deriving DecidableEq

instance : Wired Terminated where
  encode t := .record [("pids", Wired.encode t.pids)]
  decode reading tree := do
    let found ← takeRecord [.of (List Pid) reading "pids"] tree
    return { pids := ← found.get reading "pids" }

/-- A wait of 0 milliseconds has no limit. -/
structure WaitOrder where
  milliseconds : UInt64 := 0
  deriving DecidableEq

instance : Wired WaitOrder where
  encode w := .record [("timeout_ms", Wired.encode w.milliseconds)]
  decode reading tree := do
    let found ← takeRecord [.of UInt64 reading "timeout_ms" true] tree
    return { milliseconds := ← found.getD reading "timeout_ms" 0 }

structure ExitStatus where
  timedOut : Bool
  removed : Bool
  deriving DecidableEq

instance : Wired ExitStatus where
  encode e := .record [("timed_out", Wired.encode e.timedOut), ("removed", Wired.encode e.removed)]
  decode reading tree := do
    let found ← takeRecord [.of Bool reading "timed_out", .of Bool reading "removed"] tree
    return {
      timedOut := ← found.get reading "timed_out"
      removed := ← found.get reading "removed" }

structure Version where
  version : String
  deriving DecidableEq

instance : Wired Version where
  encode v := .record [("version", Wired.encode v.version)]
  decode reading tree := do
    let found ← takeRecord [.of String reading "version"] tree
    return { version := ← found.get reading "version" }

end Containment.Wire
