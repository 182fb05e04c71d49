import Containment.Client.Run
import Containment.Daemon
import Containment.Machine
import Containment.Report

/-!
# The program

The daemon with a console. It starts from its configuration file, takes client commands from
standard input, one a line, and answers them as its management interface does. Notices go to
standard error. At the end of the input everything is released.
-/

namespace Containment.Console

/-- The file system as far as the daemon needs it: its configuration file, if that can be read. -/
def filesystemWith (path : String) : IO Filesystem := do
  try
    let content ← IO.FS.readFile path
    return Filesystem.standard.add path ⟨.readable content, .invalid⟩
  catch _ => return .standard

def wordsOf (line : String) : List String :=
  ((Section.splitAt ' ' (Text.trim line.toList)).map String.ofList).filter (· ≠ "")

def commandScript (fs : Filesystem) (socket : String) (words : List String) : Script String :=
  match Client.Options.read words with
  | .error e => return e.message ++ "\n"
  | .ok options => do
    match ← Client.run fs socket Daemon.respond options with
    | .ok text => return text
    | .error e => return e.message ++ "\n"

def printNotices (log : List Notice) : IO Unit :=
  log.forM fun notice => IO.eprintln s!"{notice.level.text}: {notice.text}"

def printReleases (releases : List Release) : IO Unit :=
  releases.forM fun release => IO.println s!"process {release.pid} waits no longer"

partial def serve (fs : Filesystem) (daemon : Daemon) (session : Session) : IO Unit := do
  let host := ({} : Machine).signedHost
  let line ← (← IO.getStdin).getLine
  if line.isEmpty then printReleases (session.close host).released
  else
    let outcome := session.perform host (commandScript fs daemon.socket (wordsOf line))
    printNotices outcome.log
    IO.print (outcome.answer.getD "waiting\n")
    printReleases outcome.released
    serve fs daemon outcome.session

def run (options : Client.DaemonOptions) : IO UInt32 := do
  let path := options.configFile.getD Daemon.defaultConfiguration
  let fs ← filesystemWith path
  match Daemon.start fs (.ok ()) path with
  | .error e =>
    IO.eprintln (Report.fatal 0 [e.message])
    return 1
  | .ok daemon =>
    serve (fs.add daemon.socket ⟨.socket, .invalid⟩) daemon daemon.session
    return 0

end Containment.Console

def main (args : List String) : IO UInt32 := do
  match Containment.Client.DaemonOptions.read args with
  | .ok options => Containment.Console.run options
  | .error e =>
    IO.eprintln e.message
    return 2
