import Containment.Ident

/-!
# Termination failures

Why a process could not be terminated. `causes` is the chain from the failure down to the error of
the operating system.
-/

namespace Containment

inductive SystemError where
  | notPermitted
  | invalidArgument
  deriving DecidableEq

def SystemError.message : SystemError → String
  | .notPermitted => "EPERM: Operation not permitted"
  | .invalidArgument => "EINVAL: Invalid argument"

inductive TerminationFailure where
  | invalidPid
  | signal (pid : Pid) (error : SystemError)
  deriving DecidableEq

namespace TerminationFailure

def message : TerminationFailure → String
  | .invalidPid => "invalid process id"
  | .signal pid _ => s!"signalling process {pid} failed"

def causes (failure : TerminationFailure) : List String :=
  match failure with
  | .invalidPid => [failure.message]
  | .signal _ error => [failure.message, error.message]

end TerminationFailure

end Containment
