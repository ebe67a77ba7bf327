import ResourceWatch.Text.Ident

/-!
# Number literals

A whole number is an optional sign and digits.  A decimal number is an optional sign, digits with at most one point
among or beside them, and an optional exponent: `coefficient · 10 ^ exponent`.
-/

namespace ResourceWatch.Number

open Text (isDigit)

/-- A sign in front, `true` for minus, and the rest. -/
def splitSign : List Char → Bool × List Char
  | '-' :: cs => (true, cs)
  | '+' :: cs => (false, cs)
  | cs => (false, cs)

def ofDigits (cs : List Char) : Nat := Nat.ofDigitChars 10 cs 0

/-- A nonempty text of digits alone. -/
def readNatural? (cs : List Char) : Option Nat :=
  if cs ≠ [] ∧ cs.all isDigit then some (ofDigits cs) else none

def applySign (negative : Bool) (n : Nat) : Int := if negative then -(n : Int) else n

def readInteger? (cs : List Char) : Option Int :=
  let (negative, digits) := splitSign cs
  (readNatural? digits).map (applySign negative)

/-- The end of the numbers that fit into 64 bits, one of them for the sign. -/
def signedEnd : Nat := Nat.pow 2 63

/-- The end of the numbers that fit into 64 bits. -/
def unsignedEnd : Nat := Nat.pow 2 64

def inSigned64 (n : Int) : Bool := -(signedEnd : Int) ≤ n && n < signedEnd

/-- A number of 64 bits without a sign; a plus may stand in front. -/
def readUnsigned64? (cs : List Char) : Option Nat :=
  let digits := match cs with
    | '+' :: digits => digits
    | _ => cs
  (readNatural? digits).filter fun n => n < unsignedEnd

structure Decimal where
  negative : Bool
  coefficient : Nat
  exponent : Int
deriving DecidableEq, Repr

/-- The exponent that ends a literal: none is zero. -/
def readExponent? : List Char → Option Int
  | [] => some 0
  | c :: cs => if c == 'e' || c == 'E' then readInteger? cs else none

/-- A decimal number without its sign: digits, a point and digits, of which one part may be empty. -/
def readUnsigned? (negative : Bool) (cs : List Char) : Option Decimal :=
  let whole := cs.takeWhile isDigit
  let (fraction, rest) :=
    match cs.dropWhile isDigit with
    | '.' :: tail => (tail.takeWhile isDigit, tail.dropWhile isDigit)
    | tail => ([], tail)
  if whole ++ fraction = [] then none
  else (readExponent? rest).map fun e => ⟨negative, ofDigits (whole ++ fraction), e - fraction.length⟩

/-- The least exponent of ten above the number: the count of digits of a number from one on, and zero less the count
of zeros behind the point of a smaller one. -/
def decimalWidth (num den : Nat) : Int :=
  if den ≤ num then (Nat.toDigits 10 (num / den)).length else 1 - (Nat.toDigits 10 ((den - 1) / num)).length

end ResourceWatch.Number
