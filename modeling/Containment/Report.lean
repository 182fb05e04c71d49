import Containment.Notice

/-!
# Reports of fatal errors

An error with its causes, outermost first, as it is logged before a program ends: on one line, or as
a block where the verbosity asks for debugging.
-/

namespace Containment.Report

def levelOf (verbosity : Nat) : Level :=
  match verbosity with
  | 0 => .info
  | 1 => .debug
  | _ => .trace

def chained (chain : List String) : String := ": ".intercalate chain

def aligned (n : Nat) : String :=
  let digits := Nat.toDigits 10 n
  String.ofList (List.replicate (5 - digits.length) ' ' ++ digits)

/-- A cause behind its mark. The lines after its first one are moved right by `width` columns. -/
def indented (mark : String) (width : Nat) (cause : String) : String :=
  let margin := '\n' :: List.replicate width ' '
  mark ++ String.ofList (cause.toList.flatMap fun c => if c = '\n' then margin else [c])

/-- A single cause has no number. -/
def causeLines (causes : List String) : List String :=
  match causes with
  | [cause] => [indented "    " 4 cause]
  | causes => causes.zipIdx.map fun (cause, n) => indented (aligned n ++ ": ") 7 cause

def block : List String → String
  | [] => ""
  | [outermost] => outermost
  | outermost :: causes =>
    outermost ++ "\n\nCaused by:\n" ++ "\n".intercalate (causeLines causes)

def fatal (verbosity : Nat) (chain : List String) : String :=
  match levelOf verbosity with
  | .debug | .trace => block chain
  | _ => chained chain

end Containment.Report
