import Containment.Client.Usage
import Containment.Ident
import Containment.Policy

/-!
# Options of the two programs

The commands of the client with their options, and the options of the daemon, read from a command
line.
-/

namespace Containment.Client

inductive Command where
  | status
  | version
  | register (pid : Pid) (origin : Option FileId) (originPath : Option String) (policy : Policy)
  | unregister (pid : Pid)
  | terminate (pid : Pid)
  | members (pid : Pid)
  | files (pid : Pid)
  | wait (pid : Pid) (milliseconds : UInt64)
  deriving DecidableEq

structure Options where
  server : Option String := none
  command : Command
  deriving DecidableEq

/-! ## Values -/

def pid? (s : String) : Option Pid := (Pid.read s.toList).toOption

def file? (s : String) : Option FileId := (FileId.read s.toList).toOption

def milliseconds? (s : String) : Option UInt64 :=
  ((Text.readNatural 64 10 s.toList).map UInt64.ofNat).toOption

def anyText (_ : String) : Bool := true

def isPid (s : String) : Bool := (pid? s).isSome

/-! ## The client -/

def clientRule : CommandRule where
  options := [⟨"api-server", anyText⟩]
  subcommands :=
    ["status", "version", "register", "unregister", "terminate", "members", "files", "wait"]

def registerRule : CommandRule where
  options :=
    [⟨"origin", fun s => (file? s).isSome⟩, ⟨"origin-path", anyText⟩,
      ⟨"policy", fun s => (Policy.ofText? s).isSome⟩]
  positionals := [isPid]
  exclusive := [("origin", "origin-path")]

def waitRule : CommandRule where
  options := [⟨"timeout-ms", fun s => (milliseconds? s).isSome⟩]
  positionals := [isPid]

def subcommandRule : String → CommandRule
  | "status" | "version" => {}
  | "register" => registerRule
  | "wait" => waitRule
  | _ => { positionals := [isPid] }

def pidOf (given : Given) : Pid := (given.positionals.head?.bind pid?).getD .invalid

def commandOf (name : String) (given : Given) : Command :=
  let value := fun option => given.options.lookup option
  let pid := pidOf given
  match name with
  | "status" => .status
  | "version" => .version
  | "register" =>
    .register pid ((value "origin").bind file?) (value "origin-path")
      (((value "policy").bind Policy.ofText?).getD .noRestriction)
  | "unregister" => .unregister pid
  | "terminate" => .terminate pid
  | "members" => .members pid
  | "files" => .files pid
  | _ => .wait pid (((value "timeout-ms").bind milliseconds?).getD 0)

def Options.read (args : List String) : Except UsageError Options := do
  let (given, name, inner) ← clientRule.readWithSubcommand subcommandRule args
  return { server := given.options.lookup "api-server", command := commandOf name inner }

/-! ## The daemon -/

structure DaemonOptions where
  configFile : Option String := none
  deriving DecidableEq

def daemonRule : CommandRule where
  options := [⟨"config-file", anyText⟩]

def DaemonOptions.read (args : List String) : Except UsageError DaemonOptions := do
  let given ← daemonRule.readAll args
  return { configFile := given.options.lookup "config-file" }

end Containment.Client
