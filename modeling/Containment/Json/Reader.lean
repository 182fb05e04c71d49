import Containment.Json.Tree

/-!
# Reading JSON

The tree of a text, and what comes after it. Blanks may stand between any two tokens. Each step down
or along takes one unit of fuel, and a text has fewer such steps than twice its length.
-/

namespace Containment.Json

def isBlank (c : Char) : Bool := c = ' ' || c = '\n' || c = '\r' || c = '\t'

def skipBlanks (cs : List Char) : List Char := cs.dropWhile isBlank

/-- A value, and the text after it. There is none after a value that is not whole. -/
abbrev Read (α : Type) := α × Option (List Char)

def readScalar : List Char → Read Tree
  | 'n' :: 'u' :: 'l' :: 'l' :: cs => (.null, some cs)
  | 't' :: 'r' :: 'u' :: 'e' :: cs => (.bool true, some cs)
  | 'f' :: 'a' :: 'l' :: 's' :: 'e' :: cs => (.bool false, some cs)
  | '"' :: cs =>
    match readText? cs with
    | some (value, rest) => (.text value, some rest)
    | none => (.broken, none)
  | cs =>
    match readNumber? cs with
    | some (value, rest) => (.number value, some rest)
    | none => (.broken, none)

/-- The key of a field and the text after its colon. Without a colon there is no such text. -/
def readKey? : List Char → Option (Read (Option String))
  | '"' :: cs =>
    (readText? cs).map fun (key, rest) =>
      match skipBlanks rest with
      | ':' :: rest => (key, some rest)
      | _ => (key, none)
  | _ => none

mutual
def readTree : Nat → List Char → Read Tree
  | 0, _ => (.broken, none)
  | fuel + 1, cs =>
    match skipBlanks cs with
    | '[' :: cs =>
      match skipBlanks cs with
      | ']' :: cs => (.array .close, some cs)
      | cs => let (items, rest) := readItems fuel cs; (.array items, rest)
    | '{' :: cs =>
      match skipBlanks cs with
      | '}' :: cs => (.object .close, some cs)
      | cs => let (fields, rest) := readFields fuel cs; (.object fields, rest)
    | cs => readScalar cs
def readItems : Nat → List Char → Read Items
  | 0, _ => (.cut, none)
  | fuel + 1, cs =>
    match readTree fuel cs with
    | (v, none) => (.item v .cut, none)
    | (v, some cs) =>
      match skipBlanks cs with
      | ']' :: cs => (.item v .close, some cs)
      | ',' :: cs => let (items, rest) := readItems fuel cs; (.item v items, rest)
      | _ => (.item v .cut, none)
def readFields : Nat → List Char → Read Fields
  | 0, _ => (.cut, none)
  | fuel + 1, cs =>
    match readKey? (skipBlanks cs) with
    | none => (.cut, none)
    | some (key, none) => (.field key .broken .cut, none)
    | some (key, some cs) =>
      match readTree fuel cs with
      | (v, none) => (.field key v .cut, none)
      | (v, some cs) =>
        match skipBlanks cs with
        | '}' :: cs => (.field key v .close, some cs)
        | ',' :: cs => let (fields, rest) := readFields fuel cs; (.field key v fields, rest)
        | _ => (.field key v .cut, none)
end

structure Document where
  tree : Tree
  /-- Whether the tree is whole in the text and nothing but blanks follows it. -/
  isComplete : Bool

def Document.read (text : String) : Document :=
  let cs := text.toList
  let (tree, rest) := readTree (2 * cs.length + 2) cs
  { tree, isComplete := rest.any fun rest => (skipBlanks rest).isEmpty }

end Containment.Json
