import Containment.Control
import Containment.Text.Quoted

/-!
# Errors of the management interface

With which status a control error is answered. What a caller may not know of the inside is answered
as an internal error.
-/

namespace Containment.Management

inductive ApiError where
  | internal
  | badRequest (text : String)
  | notFound (text : String)
  | conflict (text : String)
  | insufficientStorage (text : String)
  deriving DecidableEq

namespace ApiError

def status : ApiError → Nat
  | .internal => 500
  | .badRequest _ => 400
  | .notFound _ => 404
  | .conflict _ => 409
  | .insufficientStorage _ => 507

def body : ApiError → String
  | .internal => "internal"
  | .badRequest text | .notFound text | .conflict text | .insufficientStorage text => text

def description : ApiError → String
  | .internal => "InternalServerError"
  | .badRequest text => "BadRequest(" ++ Text.quoted text ++ ")"
  | .notFound text => "NotFound(" ++ Text.quoted text ++ ")"
  | .conflict text => "Conflict(" ++ Text.quoted text ++ ")"
  | .insufficientStorage text => "InsufficientStorage(" ++ Text.quoted text ++ ")"

def ofRefusal (cause : Refusal) : ApiError :=
  match cause with
  | .invalidItem => .badRequest cause.message
  | .noParent => .notFound cause.message
  | .alreadyExists | .forbidden | .treeDead => .conflict cause.message
  | .capacityExhausted | .uninitialized => .insufficientStorage cause.message

def ofControl (e : ControlError) : ApiError :=
  match e with
  | .refused cause => ofRefusal cause
  | .notRunning _ => .notFound e.message
  | .termination .. => .internal

end ApiError

end Containment.Management
