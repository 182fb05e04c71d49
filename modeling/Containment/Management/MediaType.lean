/-!
# Media types

Which content types announce a JSON body: the type `application` with the subtype or the suffix
`json`, in letters of either case, with any parameters behind. A media type that is not well formed
announces nothing, and neither does one with a character beyond ASCII.
-/

namespace Containment.Management

def isToken (c : Char) : Bool :=
  c.isAlphanum || "!#$%&'*+-.^_`|~".toList.contains c

def lower (cs : List Char) : List Char := cs.map Char.toLower

/-! ## Parameters -/

def isQuotable (c : Char) : Bool := 0x20 ≤ c.toNat && c.toNat < 0x7F

def skipToQuote? : List Char → Option (List Char)
  | [] => none
  | '"' :: cs => some cs
  | c :: cs => if isQuotable c then skipToQuote? cs else none

/-- What follows a quoted value, behind its opening quote. The value is not empty. -/
def skipQuoted? : List Char → Option (List Char)
  | [] => none
  | c :: cs => if isQuotable c then (skipToQuote? cs).map (·.dropWhile (· = ' ')) else none

/-- What follows a value. Only the last value may be empty. -/
def skipValue? (cs : List Char) : Option (List Char) :=
  match cs with
  | '"' :: cs => skipQuoted? cs
  | ';' :: _ => none
  | cs => some (cs.dropWhile isToken)

def areParameters : Nat → List Char → Bool
  | 0, cs => cs.isEmpty
  | fuel + 1, cs =>
    let cs := cs.dropWhile (· = ' ')
    if cs.isEmpty then true
    else if (cs.takeWhile isToken).isEmpty then false
    else
      match cs.dropWhile isToken with
      | '=' :: cs =>
        match skipValue? cs with
        | none => false
        | some [] => true
        | some (';' :: cs) => areParameters fuel cs
        | some _ => false
      | _ => false

/-! ## Types -/

/-- The subtype up to its last plus sign, and the suffix behind it. A plus sign at the start is part
of the subtype. -/
def splitSuffix (cs : List Char) : List Char × Option (List Char) :=
  let suffix := (cs.reverse.takeWhile (· ≠ '+')).reverse
  let subtype := cs.take (cs.length - suffix.length - 1)
  if subtype.isEmpty then (cs, none) else (subtype, some suffix)

def isJsonSubtype (cs : List Char) : Bool :=
  let json := ['j', 's', 'o', 'n']
  let (subtype, suffix) := splitSuffix (lower cs)
  subtype == json || suffix == some json

def trimSpaces (cs : List Char) : List Char :=
  let isSpace := fun c => c = ' ' || c = '\t'
  ((cs.dropWhile isSpace).reverse.dropWhile isSpace).reverse

def isJson (contentType : String) : Bool :=
  let cs := trimSpaces contentType.toList
  let kind := cs.takeWhile isToken
  match cs.dropWhile isToken with
  | '/' :: cs =>
    let subtype := cs.takeWhile isToken
    let parameters :=
      match cs.dropWhile isToken with
      | [] => true
      | ';' :: cs => areParameters (cs.length + 1) cs
      | _ => false
    lower kind == "application".toList && !subtype.isEmpty && parameters && isJsonSubtype subtype
  | _ => false

end Containment.Management
