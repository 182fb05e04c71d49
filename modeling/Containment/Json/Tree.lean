import Containment.Json.Number
import Containment.Json.Text

/-!
# JSON trees

What a text says, as far as it goes. A text that ends or goes wrong in the middle of a value still
has a tree, in which the place is marked `broken` and every container around it is `cut` short. So a
reader of the tree meets the faults of the text in the order of the text. A string without text has
none in the tree either.
-/

namespace Containment.Json

mutual
inductive Tree where
  | broken
  | null
  | bool (value : Bool)
  | number (value : Number)
  | text (value : Option String)
  | array (items : Items)
  | object (fields : Fields)
inductive Items where
  | close
  | cut
  | item (value : Tree) (rest : Items)
inductive Fields where
  | close
  | cut
  | field (key : Option String) (value : Tree) (rest : Fields)
end

/-! ## Building -/

def Tree.string (s : String) : Tree := .text (some s)

def Items.ofList : List Tree → Items
  | [] => .close
  | v :: vs => .item v (ofList vs)

def Fields.ofList : List (String × Tree) → Fields
  | [] => .close
  | (key, v) :: rest => .field (some key) v (ofList rest)

def Tree.list (items : List Tree) : Tree := .array (.ofList items)

def Tree.record (fields : List (String × Tree)) : Tree := .object (.ofList fields)

/-! ## Whole trees -/

mutual
/-- Whether nothing is broken, cut short, without text or beyond the floats. -/
def Tree.isWhole : Tree → Bool
  | .broken => false
  | .null | .bool _ => true
  | .number (.real finite) => finite
  | .number _ => true
  | .text value => value.isSome
  | .array items => items.isWhole
  | .object fields => fields.isWhole
def Items.isWhole : Items → Bool
  | .close => true
  | .cut => false
  | .item v rest => v.isWhole && rest.isWhole
def Fields.isWhole : Fields → Bool
  | .close => true
  | .cut => false
  | .field key v rest => key.isSome && v.isWhole && rest.isWhole
end

mutual
def Tree.depth : Tree → Nat
  | .array items => items.depth + 1
  | .object fields => fields.depth + 1
  | _ => 0
def Items.depth : Items → Nat
  | .item v rest => max v.depth rest.depth
  | _ => 0
def Fields.depth : Fields → Nat
  | .field _ v rest => max v.depth rest.depth
  | _ => 0
end

/-! ## Writing -/

def separator (isLast : Bool) : List Char := if isLast then [] else [',']

def Items.isClose : Items → Bool
  | .close => true
  | _ => false

def Fields.isClose : Fields → Bool
  | .close => true
  | _ => false

mutual
def Tree.print : Tree → List Char
  | .broken => []
  | .null => ['n', 'u', 'l', 'l']
  | .bool true => ['t', 'r', 'u', 'e']
  | .bool false => ['f', 'a', 'l', 's', 'e']
  | .number n => n.text
  | .text value => quoted (value.getD "")
  | .array items => '[' :: items.print
  | .object fields => '{' :: fields.print
def Items.print : Items → List Char
  | .close => [']']
  | .cut => []
  | .item v rest => v.print ++ separator rest.isClose ++ rest.print
def Fields.print : Fields → List Char
  | .close => ['}']
  | .cut => []
  | .field key v rest =>
    quoted (key.getD "") ++ ':' :: (v.print ++ separator rest.isClose ++ rest.print)
end

def Tree.compact (tree : Tree) : String := String.ofList tree.print

end Containment.Json
