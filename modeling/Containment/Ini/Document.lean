import Containment.Settings.Section

/-!
# INI documents

A document is a list of section headings and of keys with values, in the order of the file. Sections
of one name are one section, in which the last value of a key counts. Pairs in front of the first
heading belong to no section.
-/

namespace Containment.Ini

inductive Line where
  | heading (name : String)
  | pair (key value : String)
  deriving DecidableEq

abbrev Document := List Line

/-- The pairs under the headings of one name, where `current` is the heading in force. -/
def pairsUnder (name : String) (current : Option String) : Document → List (String × String)
  | [] => []
  | .heading other :: lines => pairsUnder name (some other) lines
  | .pair key value :: lines =>
    if current = some name then (key, value) :: pairsUnder name current lines
    else pairsUnder name current lines

def Document.section (document : Document) (name : String) : Section :=
  .ofList (pairsUnder name none document)

/-! ## Writing -/

def Line.text : Line → String
  | .heading name => "[" ++ name ++ "]"
  | .pair key value => key ++ "=" ++ value

end Containment.Ini
