import ResourceWatch.Number.Literal

/-!
# Doubles

A finite double is `mantissa · 2 ^ exponent` with a sign, in lowest position: the mantissa has 53 bits, or fewer at
the least exponent.  `ofRatio` rounds a positive quotient to the nearest double, a tie to the even mantissa;
`shortest?` finds the decimal with the fewest digits that rounds back to a double, the nearest of them.
-/

namespace ResourceWatch.Number

inductive Double where
  | nan
  | infinite (negative : Bool)
  | finite (negative : Bool) (mantissa : Nat) (exponent : Int)
deriving DecidableEq, Repr

namespace Double

def leastExponent : Int := -1074

def greatestExponent : Int := 971

def zero (negative : Bool) : Double := .finite negative 0 leastExponent

/-! ### Rounding -/

/-- The quotient rounded to the nearest whole number, a tie to the even one. -/
def roundHalfEven (num den : Nat) : Nat :=
  let q := num / den
  let r := num % den
  if 2 * r < den then q
  else if den < 2 * r then q + 1
  else if q % 2 = 0 then q else q + 1

/-- The quotient `num / den` as a fraction in units of `2 ^ e`. -/
def inUnits (num den : Nat) (e : Int) : Nat × Nat :=
  if 0 ≤ e then (num, den * Nat.pow 2 e.toNat) else (num * Nat.pow 2 (-e).toNat, den)

/-- The exponent at which the quotient has 53 bits before its point. -/
def fittingExponent (num den : Nat) : Int :=
  let e : Int := (num.log2 : Int) - den.log2 - 52
  let (n, d) := inUnits num den e
  if n < Nat.pow 2 52 * d then e - 1 else e

/-- The double nearest to a positive quotient. -/
def ofRatio (negative : Bool) (num den : Nat) : Double :=
  let e := max leastExponent (fittingExponent num den)
  let (n, d) := inUnits num den e
  let m := roundHalfEven n d
  let (m, e) := if m = Nat.pow 2 53 then (Nat.pow 2 52, e + 1) else (m, e)
  if greatestExponent < e then .infinite negative else .finite negative m e

/-- The double nearest to a decimal number; far outside the range of doubles the power of ten is not computed. -/
def ofDecimal (d : Decimal) : Double :=
  let width : Int := (Nat.toDigits 10 d.coefficient).length
  if d.coefficient = 0 ∨ d.exponent + width < -330 then zero d.negative
  else if 310 < d.exponent + width then .infinite d.negative
  else if 0 ≤ d.exponent then ofRatio d.negative (d.coefficient * Nat.pow 10 d.exponent.toNat) 1
  else ofRatio d.negative d.coefficient (Nat.pow 10 (-d.exponent).toNat)

/-- Reads a decimal number, or one of the words for what is no number, in any case of letters. -/
def read? (cs : List Char) : Option Double :=
  let (negative, body) := splitSign cs
  let word := body.map Text.lowerChar
  if word = "nan".toList then some .nan
  else if word = "inf".toList ∨ word = "infinity".toList then some (.infinite negative)
  else (readUnsigned? negative body).map ofDecimal

/-! ### Comparison -/

/-- Equality of numbers: a zero equals a zero of the other sign, and what is no number equals nothing. -/
protected def beq : Double → Double → Bool
  | .infinite s, .infinite t => s == t
  | .finite s m e, .finite t n f => (m == 0 && n == 0) || (s == t && m == n && e == f)
  | _, _ => false

instance : BEq Double := ⟨Double.beq⟩

theorem beq_def (x y : Double) : (x == y) = Double.beq x y := rfl

/-- What is no number equals nothing, not even itself, so this equality is not reflexive. -/
instance : PartialEquivBEq Double where
  symm {x y} h := by
    rw [beq_def] at h ⊢
    cases x <;> cases y <;> grind [Double.beq]
  trans {x y z} h h' := by
    rw [beq_def] at h h' ⊢
    cases x <;> cases y <;> cases z <;> grind [Double.beq]

/-! ### Whole numbers -/

/-- The whole number nearest to the double, a tie away from zero, brought into the range of 64 unsigned bits. -/
def toUnsigned64 : Double → Nat
  | .nan => 0
  | .infinite negative => if negative then 0 else unsignedEnd - 1
  | .finite negative m e =>
    if negative then 0
    else
      let (num, den) := inUnits m 1 (-e)
      min ((2 * num + den) / (2 * den)) (unsignedEnd - 1)

/-! ### Shortest decimals -/

/-- The double as a quotient in units of a quarter of its last bit, with the ends of the interval that rounds to
it. -/
structure Span where
  low : Nat
  value : Nat
  high : Nat
  den : Nat
  /-- Whether the ends belong to the interval. -/
  closed : Bool

def span (m : Nat) (e : Int) : Span :=
  let low := if m = Nat.pow 2 52 ∧ leastExponent < e then 4 * m - 1 else 4 * m - 2
  let (scale, den) := inUnits 1 1 (2 - e)
  ⟨low * scale, 4 * m * scale, (4 * m + 2) * scale, den, m % 2 == 0⟩

/-- Whether `num / den` lies in the interval. -/
def Span.holds (s : Span) (num den : Nat) : Bool :=
  if s.closed then s.low * den ≤ num * s.den && num * s.den ≤ s.high * den
  else s.low * den < num * s.den && num * s.den < s.high * den

/-- A multiple of a power of ten as a quotient. -/
def tenfold (d : Nat) (p : Int) : Nat × Nat :=
  if 0 ≤ p then (d * Nat.pow 10 p.toNat, 1) else (d, Nat.pow 10 (-p).toNat)

/-- The upper neighbour of `below` among the numbers with so many digits, without a zero at its end. -/
def roundUp (digits below : Nat) (p : Int) : Nat × Int :=
  if below + 1 = Nat.pow 10 digits then (1, p + digits) else (below + 1, p)

/-- The decimal with the given number of digits that lies in the interval, the nearer of the value's two neighbours
and the upper one on a tie. -/
def Span.decimalWith? (s : Span) (width : Int) (digits : Nat) : Option (Nat × Int) :=
  let p := width - digits
  let (num, den) := tenfold 1 p
  let below := s.value * den / (s.den * num)
  let inside := fun d => s.holds (tenfold d p).1 (tenfold d p).2
  let upperNearer := s.den * num * (2 * below + 1) ≤ 2 * (s.value * den)
  match inside below, inside (below + 1) with
  | true, true => some (if upperNearer then roundUp digits below p else (below, p))
  | true, false => some (below, p)
  | false, true => some (roundUp digits below p)
  | false, false => none

/-- Digits and exponent of ten of the shortest decimal that rounds to the double. -/
def shortest? (m : Nat) (e : Int) : Option (Nat × Int) :=
  let s := span m e
  let width := decimalWidth s.value s.den
  (List.range 17).findSome? fun n => s.decimalWith? width (n + 1)

/-! ### Text -/

/-- How finite doubles are written. -/
structure Style where
  /-- The least number of places behind the point. -/
  places : Nat
  /-- Whether numbers from `10 ^ 16` on and below `10 ^ -4` are written with an exponent. -/
  scientific : Bool

/-- No exponent and no point without need. -/
def Style.plain : Style := ⟨0, false⟩

/-- Always recognisable as a double. -/
def Style.exact : Style := ⟨1, true⟩

/-- The digits with a point, `exponent` places from their end, and at least `places` places. -/
def positional (places : Nat) (digits : List Char) (exponent : Int) : List Char :=
  let (whole, fraction) :=
    if 0 ≤ exponent then (digits ++ List.replicate exponent.toNat '0', [])
    else
      let count := (-exponent).toNat
      let padded := List.replicate (count + 1 - digits.length) '0' ++ digits
      (padded.take (padded.length - count), padded.drop (padded.length - count))
  let fraction := fraction ++ List.replicate (places - fraction.length) '0'
  if fraction = [] then whole else whole ++ '.' :: fraction

/-- One digit, the others behind a point, and the exponent. -/
def withExponent (digits : List Char) (exponent : Int) : List Char :=
  let e : Int := exponent + digits.length - 1
  let sign := if e < 0 then ['-'] else []
  digits.take 1 ++ (if digits.length ≤ 1 then [] else '.' :: digits.drop 1) ++
    'e' :: (sign ++ Nat.toDigits 10 e.natAbs)

def writeFinite (style : Style) (m : Nat) (e : Int) : List Char :=
  match if m = 0 then none else shortest? m e with
  | none => positional style.places ['0'] 0
  | some (d, p) =>
    let digits := Nat.toDigits 10 d
    let width := p + digits.length
    if style.scientific ∧ (16 < width ∨ width < -3) then withExponent digits p
    else positional style.places digits p

def write (style : Style) : Double → String
  | .nan => "NaN"
  | .infinite negative => if negative then "-inf" else "inf"
  | .finite negative m e => String.ofList ((if negative then ['-'] else []) ++ writeFinite style m e)

end Double

end ResourceWatch.Number
