import Containment.Ini.Document

/-!
# Reading INI documents

Blanks are skipped between items. A comment starts its line. A heading stands in brackets, and more
items may follow it on its line. Everything else is a key, which runs to the next `=` or `:`, and
the value behind it: a quoted one, with whatever follows the quote on its line, or the rest of the
line. Keys, headings and quoted values may span lines. Escapes are replaced, and then the blanks at
both ends are taken away.
-/

namespace Containment.Ini

open Text

inductive Fault where
  | commentInsideLine
  | missingKey
  | unexpectedEnd
  | badEscape
  deriving DecidableEq

/-! ## Characters -/

def escaped (c : Char) : Char :=
  match c with
  | '0' => '\x00'
  | 'a' => '\x07'
  | 'b' => '\x08'
  | 't' => '\t'
  | 'r' => '\r'
  | 'n' => '\n'
  | c => c

def numbered? (digits : List Char) : Option Char :=
  match readNatural 32 16 digits with
  | .ok n => if n.isValidChar then some (Char.ofNat n) else none
  | .error _ => none

def readUntil (stops : Char → Bool) (endStops : Bool) :
    List Char → Except Fault (List Char × List Char)
  | [] => if endStops then .ok ([], []) else .error .unexpectedEnd
  | '\\' :: '\n' :: cs => readUntil stops endStops cs
  | '\\' :: 'x' :: a :: b :: c :: d :: cs =>
    match numbered? [a, b, c, d] with
    | none => .error .badEscape
    | some e => do
      let (text, rest) ← readUntil stops endStops cs
      return (e :: text, rest)
  | ['\\'] => .error .unexpectedEnd
  | '\\' :: c :: cs =>
    if c = 'x' then .error .unexpectedEnd
    else do
      let (text, rest) ← readUntil stops endStops cs
      return (escaped c :: text, rest)
  | c :: cs =>
    if stops c then .ok ([], c :: cs)
    else do
      let (text, rest) ← readUntil stops endStops cs
      return (c :: text, rest)

def isLineBreak (c : Char) : Bool := c = '\n' || c = '\r'

def readToLineEnd (cs : List Char) : Except Fault (List Char × List Char) :=
  readUntil isLineBreak true cs

/-! ## Items -/

def readQuoted (quote : Char) (cs : List Char) : Except Fault (List Char × List Char) := do
  let (inside, rest) ← readUntil (· = quote) false cs
  let (behind, rest) ← readToLineEnd (rest.drop 1)
  return (inside ++ behind, rest)

def readValue (cs : List Char) : Except Fault (List Char × List Char) :=
  match cs.dropWhile fun c => isBlank c && !isLineBreak c with
  | '"' :: cs => readQuoted '"' cs
  | '\'' :: cs => readQuoted '\'' cs
  | cs => readToLineEnd cs

def readHeading (cs : List Char) : Except Fault (Line × List Char) := do
  let (name, rest) ← readUntil (· = ']') false cs
  return (.heading (String.ofList (trim name)), rest.drop 1)

def readPair (cs : List Char) : Except Fault (Line × List Char) := do
  let (key, rest) ← readUntil (fun c => c = '=' || c = ':') false cs
  let key := trim key
  if key.isEmpty then .error .missingKey
  else
    let (value, rest) ← readValue (rest.drop 1)
    return (.pair (String.ofList key) (String.ofList (trim value)), rest)

/-- Skips blanks, and tells whether what comes then starts a line. -/
def skipBlanks (startsLine : Bool) : List Char → Bool × List Char
  | [] => (startsLine, [])
  | c :: cs => if isBlank c then skipBlanks (c = '\n') cs else (startsLine, c :: cs)

def skipComment (cs : List Char) : List Char :=
  (cs.dropWhile (· ≠ '\n')).drop 1

/-- Reads item after item. Every item takes at least one character, so the length of the text is
enough fuel. -/
def readLines : Nat → Bool → List Char → Except Fault Document
  | 0, _, _ => .ok []
  | fuel + 1, startsLine, cs =>
    match skipBlanks startsLine cs with
    | (_, []) => .ok []
    | (startsLine, c :: cs) =>
      if c = ';' || c = '#' then
        if startsLine then readLines fuel true (skipComment cs) else .error .commentInsideLine
      else do
        let (line, rest) ← if c = '[' then readHeading cs else readPair (c :: cs)
        return line :: (← readLines fuel false rest)

def byteOrderMark : Char := '\uFEFF'

def Document.read (text : String) : Except Fault Document :=
  let cs := text.toList
  let cs := if cs.head? = some byteOrderMark then cs.drop 1 else cs
  readLines cs.length true cs

end Containment.Ini
