/-!
# JSON numbers

A number is kept as an integer if it is written as one and fits a 64-bit word, unsigned or signed.
Of every other number only this is kept: whether the 64-bit float it stands for is finite. That
float is the product of the leading digits, as many as a word holds, and a power of ten, each of
them rounded to 53 bits.
-/

namespace Containment.Json

inductive Number where
  | natural (n : Nat)
  /-- The integer `-(n + 1)`. -/
  | negative (n : Nat)
  | real (finite : Bool)
  deriving DecidableEq

/-! ## The size of a float -/

/-- The nearest integer with 53 significant bits; a tie goes to the even one. -/
def round53 (n : Nat) : Nat :=
  if n < Nat.pow 2 53 then n
  else
    let unit := Nat.pow 2 (n.log2 - 52)
    let quotient := n / unit
    let doubled := 2 * (n % unit)
    if unit < doubled || (unit == doubled && quotient % 2 == 1) then (quotient + 1) * unit
    else quotient * unit

/-- Products from the middle between the greatest float and `2 ^ 1024` on round to infinity. -/
def isFiniteProduct (significand : Nat) (exponent : Int) : Bool :=
  significand == 0 || exponent < 0 ||
    (exponent ≤ 308 &&
      round53 significand * round53 (Nat.pow 10 exponent.toNat) <
        Nat.pow 2 1024 - Nat.pow 2 970)

/-! ## Digits -/

def isDigit (c : Char) : Bool := 0x30 ≤ c.toNat && c.toNat ≤ 0x39

def digit (c : Char) : Nat := c.toNat - 0x30

def naturalOf (digits : List Char) : Nat :=
  digits.foldl (fun n c => n * 10 + digit c) 0

def leading (significand : Nat) : List Char → Nat × Nat
  | [] => (significand, 0)
  | c :: cs =>
    let next := significand * 10 + digit c
    if next < UInt64.size then leading next cs else (significand, cs.length + 1)

/-- A number as it is written: its sign, the digits before and after the point, and the exponent
with its sign. -/
structure Literal where
  isNegative : Bool
  whole : List Char
  fraction : Option (List Char) := none
  exponent : Option (Bool × List Char) := none

namespace Literal

/-- An exponent of 2 to the power of 31 or more decides alone. -/
def isFinite (l : Literal) : Bool :=
  let (head, dropped) := leading 0 l.whole
  let fraction := l.fraction.getD []
  let (significand, unread) := leading head fraction
  let exponent : Int := dropped - (fraction.length - unread : Nat)
  match l.exponent with
  | none => isFiniteProduct significand exponent
  | some (true, digits) =>
    UInt32.size / 2 ≤ naturalOf digits || isFiniteProduct significand (exponent - naturalOf digits)
  | some (false, digits) =>
    if UInt32.size / 2 ≤ naturalOf digits then significand == 0
    else isFiniteProduct significand (exponent + naturalOf digits)

def value (l : Literal) : Number :=
  match l.fraction, l.exponent with
  | none, none =>
    let n := naturalOf l.whole
    if !l.isNegative && n < UInt64.size then .natural n
    else if l.isNegative && 0 < n && n ≤ UInt64.size / 2 then .negative (n - 1)
    else .real l.isFinite
  | _, _ => .real l.isFinite

end Literal

/-! ## Reading and writing -/

def readDigits? (cs : List Char) : Option (List Char × List Char) :=
  let digits := cs.takeWhile isDigit
  if digits.isEmpty then none else some (digits, cs.dropWhile isDigit)

/-- A zero in front of other digits is no number. -/
def readWhole? (cs : List Char) : Option (List Char × List Char) := do
  let (digits, rest) ← readDigits? cs
  if digits.head? = some '0' && 1 < digits.length then none else some (digits, rest)

def readFraction? : List Char → Option (Option (List Char) × List Char)
  | '.' :: cs => (readDigits? cs).map fun (digits, rest) => (some digits, rest)
  | cs => some (none, cs)

def readPower? : List Char → Option ((Bool × List Char) × List Char)
  | '+' :: cs => (readDigits? cs).map fun (digits, rest) => ((false, digits), rest)
  | '-' :: cs => (readDigits? cs).map fun (digits, rest) => ((true, digits), rest)
  | cs => (readDigits? cs).map fun (digits, rest) => ((false, digits), rest)

def readExponent? : List Char → Option (Option (Bool × List Char) × List Char)
  | 'e' :: cs => (readPower? cs).map fun (power, rest) => (some power, rest)
  | 'E' :: cs => (readPower? cs).map fun (power, rest) => (some power, rest)
  | cs => some (none, cs)

def readUnsigned? (isNegative : Bool) (cs : List Char) : Option (Number × List Char) := do
  let (whole, cs) ← readWhole? cs
  let (fraction, cs) ← readFraction? cs
  let (exponent, cs) ← readExponent? cs
  return (Literal.value { isNegative, whole, fraction, exponent }, cs)

def readNumber? : List Char → Option (Number × List Char)
  | '-' :: cs => readUnsigned? true cs
  | cs => readUnsigned? false cs

/-- A number that was not kept has no text. -/
def Number.text : Number → List Char
  | .natural n => Nat.toDigits 10 n
  | .negative n => '-' :: Nat.toDigits 10 (n + 1)
  | .real _ => []

end Containment.Json
