import ResourceWatch.Toml.Basic

/-!
# Plain TOML values

Numbers, truth values, dates and times: all that is written without quotes or brackets, as one word.
-/

namespace ResourceWatch.Toml

open Text (isDigit)

/-! ### Numbers -/

/-- Digits of a kind with single underscores between them; the digits alone. -/
def digitRun? (isKind : Char → Bool) (cs : List Char) : Option (List Char) :=
  let parts := cs.splitOn '_'
  if parts.all fun p => p != [] && p.all isKind then some parts.flatten else none

/-- Digits that do not start with a zero, or a zero alone. -/
def wholePart? (cs : List Char) : Option (List Char) := do
  let digits ← digitRun? isDigit cs
  if digits.length = 1 ∨ digits.head? ≠ some '0' then some digits else none

def hexValue (c : Char) : Nat :=
  if isDigit c then c.toNat - '0'.toNat
  else if 'a' ≤ c then c.toNat - 'a'.toNat + 10
  else c.toNat - 'A'.toNat + 10

def isHexDigit (c : Char) : Bool := isDigit c || ('a' ≤ c && c ≤ 'f') || ('A' ≤ c && c ≤ 'F')

def isOctalDigit (c : Char) : Bool := '0' ≤ c && c ≤ '7'

def isBinaryDigit (c : Char) : Bool := c == '0' || c == '1'

def inBase (base : Nat) (digits : List Char) : Nat := digits.foldl (fun n c => base * n + hexValue c) 0

def integer? (cs : List Char) : Option Int := do
  let n : Int ← match cs with
    | '0' :: 'x' :: ds => (digitRun? isHexDigit ds).map fun ds => (inBase 16 ds : Int)
    | '0' :: 'o' :: ds => (digitRun? isOctalDigit ds).map fun ds => (inBase 8 ds : Int)
    | '0' :: 'b' :: ds => (digitRun? isBinaryDigit ds).map fun ds => (inBase 2 ds : Int)
    | _ =>
      let (negative, body) := Number.splitSign cs
      (wholePart? body).map fun ds => Number.applySign negative (Number.ofDigits ds)
  if Number.inSigned64 n then some n else none

/-- A sign and digits, which may start with zeros. -/
def exponent? (cs : List Char) : Option Int :=
  let (negative, body) := Number.splitSign cs
  (digitRun? isDigit body).map fun ds => Number.applySign negative (Number.ofDigits ds)

def isExponentMark (c : Char) : Bool := c == 'e' || c == 'E'

/-- A number with a fraction or an exponent or both; none if it is too large to be finite, save with a minus. -/
def fraction? (cs : List Char) : Option Number.Double := do
  let (negative, body) := Number.splitSign cs
  let mantissa := body.takeWhile fun c => !isExponentMark c
  let e ← match body.drop mantissa.length with
    | [] => some 0
    | _ :: rest => exponent? rest
  let (whole, fraction) ← match mantissa.splitOn '.' with
    | [w] => if mantissa.length = body.length then none else (wholePart? w).map fun w => (w, [])
    | [w, f] => (wholePart? w).bind fun w => (digitRun? isDigit f).map fun f => (w, f)
    | _ => none
  let d := Number.Double.ofDecimal ⟨negative, Number.ofDigits (whole ++ fraction), e - fraction.length⟩
  if d = .infinite false then none else some d

def float? (cs : List Char) : Option Number.Double :=
  let (negative, body) := Number.splitSign cs
  if body = "inf".toList then some (.infinite negative)
  else if body = "nan".toList then some .nan
  else fraction? cs

/-! ### Dates and times -/

/-- A number of exactly so many digits. -/
def fixed? (width : Nat) (cs : List Char) : Option Nat :=
  if cs.length = width then Number.readNatural? cs else none

def isLeapYear (y : Nat) : Bool := y % 4 == 0 && (y % 100 != 0 || y % 400 == 0)

def daysIn (year month : Nat) : Nat :=
  if month = 2 then (if isLeapYear year then 29 else 28)
  else if month = 4 ∨ month = 6 ∨ month = 9 ∨ month = 11 then 30
  else 31

def date? (cs : List Char) : Option (List Char) :=
  match cs.splitOn '-' with
  | [y, m, d] => do
    let year ← fixed? 4 y
    let month ← fixed? 2 m
    let day ← fixed? 2 d
    if 1 ≤ month ∧ month ≤ 12 ∧ 1 ≤ day ∧ day ≤ daysIn year month then some cs else none
  | _ => none

/-- The places of a second that are kept, without zeros at the end. -/
def secondFraction? (cs : List Char) : Option (List Char) :=
  if cs ≠ [] ∧ cs.all isDigit then
    let kept := ((cs.take 9).reverse.dropWhile (· == '0')).reverse
    some (if kept = [] then [] else '.' :: kept)
  else none

def time? (cs : List Char) : Option (List Char) := do
  let (clock, fraction) ← match cs.splitOn '.' with
    | [c] => some (c, [])
    | [c, f] => (secondFraction? f).map fun f => (c, f)
    | _ => none
  match clock.splitOn ':' with
  | [h, m, s] =>
    let hour ← fixed? 2 h
    let minute ← fixed? 2 m
    let second ← fixed? 2 s
    if hour ≤ 23 ∧ minute ≤ 59 ∧ second ≤ 60 then some (clock ++ fraction) else none
  | _ => none

/-- The offset from universal time; none of either sign is written with a plus. -/
def offset? (cs : List Char) : Option (List Char) :=
  match cs with
  | ['z'] | ['Z'] => some ['Z']
  | sign :: rest =>
    if sign == '+' || sign == '-' then
      match rest.splitOn ':' with
      | [h, m] => do
        let hour ← fixed? 2 h
        let minute ← fixed? 2 m
        if 23 < hour ∨ 59 < minute then none
        else if hour + minute = 0 then some ('+' :: rest) else some cs
      | _ => none
    else none
  | [] => none

def isOffsetMark (c : Char) : Bool := c == 'z' || c == 'Z' || c == '+' || c == '-'

/-- A time, perhaps with an offset behind it. -/
def offsetTime? (cs : List Char) : Option (List Char) := do
  let clock := cs.takeWhile fun c => !isOffsetMark c
  let t ← time? clock
  match cs.drop clock.length with
  | [] => return t
  | rest => return t ++ (← offset? rest)

/-- A date, a date and a time parted by one character, or a time, in canonical form. -/
def datetime? (cs : List Char) : Option String :=
  match date? (cs.take 10), cs.drop 10 with
  | some d, [] => some (String.ofList d)
  | some d, mark :: rest =>
    if mark == 'T' || mark == 't' || mark == ' ' then
      (offsetTime? rest).map fun t => String.ofList (d ++ 'T' :: t)
    else none
  | none, _ => (time? cs).map String.ofList

/-! ### Words -/

/-- The characters of a word without quotes or brackets. -/
def isWordChar (c : Char) : Bool :=
  isDigit c || Text.isLetter c || c == '+' || c == '-' || c == '_' || c == '.' || c == ':'

/-- A word and the rest; a date takes the time behind a single blank with it. -/
def takeWord (cs : List Char) : List Char × List Char :=
  let word := cs.takeWhile isWordChar
  let rest := cs.drop word.length
  match (date? word).isSome, rest with
  | true, ' ' :: c :: tail =>
    if isDigit c then
      let time := (c :: tail).takeWhile isWordChar
      (word ++ ' ' :: time, (c :: tail).drop time.length)
    else (word, rest)
  | _, _ => (word, rest)

def word? (cs : List Char) : Option Toml :=
  if cs = "true".toList then some (.boolean true)
  else if cs = "false".toList then some (.boolean false)
  else (datetime? cs).map .datetime <|> (integer? cs).map .integer <|> (float? cs).map .float

end ResourceWatch.Toml
