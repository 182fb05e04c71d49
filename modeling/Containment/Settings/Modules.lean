import Containment.Access.FileGuard
import Containment.Settings.Section
import Containment.Watch

/-!
# Settings of the modules

Which fields the registry, the process monitor and the file system monitor read from their sections.
A section that is not there gives every default, and the first bad field of the first bad section
decides the error.
-/

namespace Containment

def registrySection : String := "registry"

def processSection : String := "process-monitor"

def fileSection : String := "file-system-monitor"

def Limits.ofSection (s : Section) : Except SectionError Limits := do
  let maxFamilies ← s.getD .word "max_families" 1024
  let maxMembers ← s.getD .word "max_members" 1024
  let maxFiles ← s.getD .word "max_files" 1024
  return { maxFamilies, maxMembers, maxFiles }

def WatchSettings.ofSection (s : Section) : Except SectionError WatchSettings := do
  let milliseconds ← s.getD .word "exit_wait_timeout_ms" 0
  let terminateOnExhaustion ← s.getD .bool "terminate_on_exhaustion" true
  let blockRespawn ← s.getD .bool "block_respawn" true
  return { exitLimit := waitLimit milliseconds, terminateOnExhaustion, blockRespawn }

def FileSettings.ofSection (s : Section) : Except SectionError FileSettings := do
  let releaseOnDelete ← s.getD .bool "release_on_delete" true
  return { releaseOnDelete }

/-! ## All of them -/

structure Settings where
  limits : Limits := {}
  watch : WatchSettings := {}
  files : FileSettings := {}
  deriving DecidableEq

inductive SettingsError where
  | invalid (name : String) (cause : SectionError)
  | capacityOverflow
  deriving DecidableEq

def SettingsError.message : SettingsError → String
  | .invalid name cause => s!"Invalid [{name}] configuration: {cause.message}"
  | .capacityOverflow => "capacity overflow"

/-- Refuses limits whose slot table no memory holds. -/
def Limits.checkFit (limits : Limits) : Except SettingsError Unit :=
  if Registry.Fits limits then .ok () else .error .capacityOverflow

namespace Settings

def readLimits (sectionOf : String → Section) : Except SettingsError Limits :=
  (Limits.ofSection (sectionOf registrySection)).mapError (.invalid registrySection)

def readModules (sectionOf : String → Section) (limits : Limits) :
    Except SettingsError Settings := do
  let watch ←
    (WatchSettings.ofSection (sectionOf processSection)).mapError (.invalid processSection)
  let files ← (FileSettings.ofSection (sectionOf fileSection)).mapError (.invalid fileSection)
  return { limits, watch, files }

/-- Reads the sections in their order, and sees last whether the slot table fits. -/
def ofSections (sectionOf : String → Section) : Except SettingsError Settings := do
  let limits ← readLimits sectionOf
  let settings ← readModules sectionOf limits
  limits.checkFit
  return settings

end Settings

end Containment
