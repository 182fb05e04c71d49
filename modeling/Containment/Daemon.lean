import Containment.Ini.Reader
import Containment.Management.Interface
import Containment.Paths
import Containment.Session
import Containment.Settings.Modules

/-!
# The daemon

How the daemon starts from its configuration file. The file has to be there, it has to be read
without a fault, and the settings in it have to be valid. The registry is set up before the settings
of the modules are read. Then the event feeds are connected, and at last the socket of the
management interface is bound. The first step that fails is the error.
-/

namespace Containment

inductive DaemonError where
  | noConfiguration (path : String)
  | unreadableConfiguration (path : String)
  | settings (cause : SettingsError)
  | feeds (cause : String)
  | socket (cause : PathError)
  deriving DecidableEq

namespace DaemonError

def message : DaemonError → String
  | .noConfiguration path => s!"Configuration file {path} not found"
  | .unreadableConfiguration path => "Error loading configuration from " ++ Text.quoted path
  | .settings cause => cause.message
  | .feeds cause => s!"Error connecting event feeds: {cause}"
  | .socket cause => s!"Cannot bind to socket: {cause.message}"

def reachedFeeds : DaemonError → Bool
  | .feeds _ | .socket _ => true
  | _ => false

end DaemonError

structure Daemon where
  settings : Settings
  /-- The path at which the management interface is served. -/
  socket : String
  session : Session

namespace Daemon

def version : String := "0.1.0"

def generalSection : String := "custody"

def defaultSocket : String := "/var/run/custody.sock"

def defaultConfiguration : String := "/var/lib/custody/custody.ini"

/-- Reads the configuration file at `path`. -/
def configuration (fs : Filesystem) (path : String) : Except DaemonError Ini.Document :=
  match fs.lookup path with
  | .error _ => .error (.noConfiguration path)
  | .ok ⟨.readable content, _⟩ =>
    (Ini.Document.read content).mapError fun _ => .unreadableConfiguration path
  | .ok _ => .error (.unreadableConfiguration path)

def socketOf (document : Ini.Document) : String :=
  ((document.section generalSection).raw? "api_socket_path").getD defaultSocket

def settingsOf (document : Ini.Document) : Except SettingsError Settings := do
  let limits ← Settings.readLimits document.section
  limits.checkFit
  Settings.readModules document.section limits

/-- Starts the daemon with the configuration at `path`, where `feeds` tells how connecting the event
feeds ends. -/
def start (fs : Filesystem) (feeds : Except String Unit) (path : String) :
    Except DaemonError Daemon := do
  let document ← configuration fs path
  let settings ← (settingsOf document).mapError .settings
  feeds.mapError .feeds
  let socket := socketOf document
  (fs.bindable socket).mapError .socket
  return { settings, socket, session := .start settings.limits }

def respond (request : Management.HttpRequest) : Script Management.HttpResponse :=
  Management.respond version request

end Daemon

end Containment
