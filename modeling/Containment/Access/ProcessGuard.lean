import Containment.Script

/-!
# The process guard

A process of a family may tamper with processes of its own family only. From every other request of
its the tamper rights are stripped, and what is left is granted.
-/

namespace Containment

inductive Verdict where
  | allow
  | deny
  deriving DecidableEq

def Verdict.text : Verdict → String
  | .allow => "Allow"
  | .deny => "Deny"

def Verdict.saying (verdict : Verdict) (notice : Notice) : Script Verdict := do
  Script.say notice
  return verdict

structure ProcessOpen where
  source : Pid
  target : Pid
  /-- The invalid pid where the parent is not known. -/
  targetParent : Pid
  access : ProcessAccess

structure AccessDecision where
  verdict : Verdict
  granted : ProcessAccess
  deriving DecidableEq

namespace ProcessOpen

/-- A target that has just been spawned may not be in the family yet, but its parent is. -/
def isWithinFamily (request : ProcessOpen) : Script Bool := do
  if ← Script.ask (.related request.target request.source) then return true
  else Script.ask (.related request.targetParent request.source)

def decision (request : ProcessOpen) : Script AccessDecision := do
  let asked := request.access
  if !(← Script.ask (.tracks request.source)) then return ⟨.allow, asked⟩
  else if ← request.isWithinFamily then
    Script.say (.familyProcessOpened request.source request.target)
    return ⟨.allow, asked⟩
  else if asked.meets .tamper then
    let granted := asked.without .tamper
    Script.say (.foreignProcessOpened request.source request.target asked granted)
    return ⟨.deny, granted⟩
  else return ⟨.allow, asked⟩

end ProcessOpen

end Containment
