/-!
# Request targets

What the line of a request asks for. A target is a path with a query, or a full address, of which
the path counts, or an authority alone, which has no path. A fragment at its end counts for nothing.
Which characters are refused is decided part by part.
-/

namespace Containment.Management

inductive TargetError where
  | malformed
  | tooLong
  deriving DecidableEq

namespace Target

def maxLength : Nat := 65534

def isVisible (c : Char) : Bool := 0x20 < c.toNat && c.toNat != 0x7F

/-! ## Paths and queries -/

def isUnfitForPath (c : Char) : Bool := "<>`".toList.contains c

def isUnfitForQuery (c : Char) : Bool := "<>\"".toList.contains c

def pathOf? (cs : List Char) : Option (List Char) :=
  let path := cs.takeWhile fun c => c ≠ '?' && c ≠ '#'
  let query := (cs.drop path.length).takeWhile (· ≠ '#')
  if path.any isUnfitForPath || query.any isUnfitForQuery then none else some path

/-! ## Authorities -/

/-- What has been read of an authority. A user before the host may hold what the host may not, and
so may an address in brackets. -/
structure Authority where
  /-- How many colons there are since the user and the brackets. -/
  colons : Nat := 0
  /-- Whether there is a percent sign since the user and the brackets. -/
  hasPercent : Bool := false
  isOpened : Bool := false
  isClosed : Bool := false
  endsInUser : Bool := false

namespace Authority

def maxColons : Nat := 8

def isPlain (c : Char) : Bool := c.isAlphanum || "!$&'()*+,-.;=_~".toList.contains c

def next? (a : Authority) (c : Char) : Option Authority :=
  let a := { a with endsInUser := false }
  match c with
  | ':' => if a.colons < maxColons then some { a with colons := a.colons + 1 } else none
  | '[' => if a.hasPercent || a.isOpened then none else some { a with isOpened := true }
  | ']' =>
    if a.isOpened && !a.isClosed then
      some { a with isClosed := true, colons := 0, hasPercent := false }
    else none
  | '@' => some { a with endsInUser := true, colons := 0, hasPercent := false }
  | '%' => some { a with hasPercent := true }
  | c => if isPlain c then some a else none

/-- Whether a host has been read, with at most a port behind it. -/
def isComplete (a : Authority) : Bool :=
  a.isOpened == a.isClosed && a.colons ≤ 1 && !a.endsInUser && !a.hasPercent

end Authority

def isAuthority (cs : List Char) : Bool :=
  !cs.isEmpty && (cs.foldlM Authority.next? {}).any Authority.isComplete

/-! ## Addresses -/

def maxSchemeLength : Nat := 64

def isSchemeCharacter (c : Char) : Bool := c.isAlphanum || "+-.~".toList.contains c

def afterScheme? (cs : List Char) : Option (List Char) :=
  let scheme := cs.takeWhile isSchemeCharacter
  match cs.drop scheme.length with
  | ':' :: '/' :: '/' :: cs => if scheme.length ≤ maxSchemeLength then some cs else none
  | _ => none

def pathIn? (cs : List Char) : Option (List Char) :=
  if cs.head? = some '/' then pathOf? cs
  else
    match afterScheme? cs with
    | some cs =>
      let authority := cs.takeWhile fun c => c ≠ '/' && c ≠ '?' && c ≠ '#'
      if isAuthority authority then pathOf? (cs.drop authority.length) else none
    | none => if isAuthority cs then some [] else none

def path (target : String) : Except TargetError (List Char) :=
  if target.isEmpty || !target.toList.all isVisible then .error .malformed
  else if maxLength < target.utf8ByteSize then .error .tooLong
  else
    match pathIn? target.toList with
    | some path => .ok path
    | none => .error .malformed

end Target

end Containment.Management
