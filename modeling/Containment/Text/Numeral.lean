/-!
# Numerals

Positional numerals of an integer type: an optional sign, then digits of either case. Reading goes
from the left, and the first character that is no digit or leaves the type's range decides the
error. Writing is the shortest numeral with small letters.
-/

namespace Containment.Text

inductive NumeralError where
  | empty
  | invalidDigit
  | tooLarge
  | tooSmall
  deriving DecidableEq

def NumeralError.message : NumeralError → String
  | .empty => "cannot parse integer from empty string"
  | .invalidDigit => "invalid digit found in string"
  | .tooLarge => "number too large to fit in target type"
  | .tooSmall => "number too small to fit in target type"

/-! ## Digits -/

def digitValue? (base : Nat) (c : Char) : Option Nat :=
  let n := c.toNat
  let value :=
    if 0x30 ≤ n && n ≤ 0x39 then n - 0x30
    else if 0x61 ≤ n && n ≤ 0x7A then n - 0x61 + 10
    else if 0x41 ≤ n && n ≤ 0x5A then n - 0x41 + 10
    else base
  if value < base then some value else none

def readDigits (base limit : Nat) (overflow : NumeralError) (value : Nat) :
    List Char → Except NumeralError Nat
  | [] => .ok value
  | c :: cs =>
    match digitValue? base c with
    | none => .error .invalidDigit
    | some d =>
      if value * base + d ≤ limit then readDigits base limit overflow (value * base + d) cs
      else .error overflow

/-! ## Numerals of a type -/

/-- The integers of a type are those from `-below` to `above`. -/
structure IntegerRange where
  below : Nat
  above : Nat

def IntegerRange.unsigned (bits : Nat) : IntegerRange := ⟨0, Nat.pow 2 bits - 1⟩

def IntegerRange.signed (bits : Nat) : IntegerRange :=
  ⟨Nat.pow 2 (bits - 1), Nat.pow 2 (bits - 1) - 1⟩

/-- A minus sign counts as a digit, hence as a wrong one, where the type has no negative number. -/
def readInteger (range : IntegerRange) (base : Nat) : List Char → Except NumeralError Int
  | [] => .error .empty
  | ['+'] => .error .invalidDigit
  | ['-'] => .error .invalidDigit
  | '+' :: cs => (readDigits base range.above .tooLarge 0 cs).map Int.ofNat
  | '-' :: cs =>
    if range.below = 0 then .error .invalidDigit
    else (readDigits base range.below .tooSmall 0 cs).map fun n => -Int.ofNat n
  | cs => (readDigits base range.above .tooLarge 0 cs).map Int.ofNat

def readNatural (bits base : Nat) (cs : List Char) : Except NumeralError Nat :=
  (readInteger (.unsigned bits) base cs).map Int.toNat

def decimal (n : Nat) : String :=
  String.ofList (Nat.toDigits 10 n)

def hexadecimal (n : Nat) : String :=
  String.ofList ('0' :: 'x' :: Nat.toDigits 16 n)

def decimalInt (n : Int) : String :=
  if n < 0 then String.ofList ('-' :: Nat.toDigits 10 n.natAbs) else decimal n.toNat

end Containment.Text
