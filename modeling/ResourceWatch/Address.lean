import ResourceWatch.Number.Literal

/-!
# Socket addresses

An address is four octets or eight groups of sixteen bits, with a port.  The text of eight groups is canonical:
lower-case hexadecimal without leading zeros, the first longest run of two or more zero groups written as `::`, and an
embedded address of four octets (prefix `::ffff:`) with points.  In a socket address the groups stand in brackets.
-/

namespace ResourceWatch

open Text (isDigit)

inductive IpAddress where
  | four (octets : List Nat)
  | six (groups : List Nat)
deriving DecidableEq, Repr

structure SocketAddress where
  ip : IpAddress
  port : Nat
  /-- The zone of an address of eight groups; zero is none. -/
  scope : Nat := 0
deriving DecidableEq, Repr

namespace IpAddress

/-! ### Writing -/

def octetsText (octets : List Nat) : String := String.intercalate "." (octets.map Nat.repr)

def groupText (n : Nat) : String := String.ofList (Nat.toDigits 16 n)

def groupsText (groups : List Nat) : String := String.intercalate ":" (groups.map groupText)

/-- The zeros at the head of the groups. -/
def zeroRun (groups : List Nat) : Nat := (groups.takeWhile (· == 0)).length

/-- Start and length of the first longest run of zero groups. -/
def longestRun (groups : List Nat) : Nat × Nat :=
  (List.range groups.length).foldl
    (fun best i => let n := zeroRun (groups.drop i); if best.2 < n then (i, n) else best) (0, 0)

def sixText (groups : List Nat) : String :=
  match groups with
  | [0, 0, 0, 0, 0, 0xffff, a, b] => "::ffff:" ++ octetsText [a / 256, a % 256, b / 256, b % 256]
  | _ =>
    let (start, n) := longestRun groups
    if n ≤ 1 then groupsText groups
    else groupsText (groups.take start) ++ "::" ++ groupsText (groups.drop (start + n))

def text : IpAddress → String
  | .four octets => octetsText octets
  | .six groups => sixText groups

/-! ### Reading -/

/-- An octet has no leading zero and is at most 255. -/
def readOctet? (cs : List Char) : Option Nat := do
  let n ← Number.readNatural? cs
  if cs.length ≤ 3 ∧ n ≤ 255 ∧ (cs.length = 1 ∨ cs.head? ≠ some '0') then some n else none

def readFour? (cs : List Char) : Option (List Nat) := do
  let octets ← (cs.splitOn '.').mapM readOctet?
  if octets.length = 4 then some octets else none

def hexValue? (c : Char) : Option Nat :=
  if isDigit c then some (c.toNat - '0'.toNat)
  else if 'a' ≤ c ∧ c ≤ 'f' then some (c.toNat - 'a'.toNat + 10)
  else if 'A' ≤ c ∧ c ≤ 'F' then some (c.toNat - 'A'.toNat + 10)
  else none

/-- A group is one to four hexadecimal digits. -/
def readGroup? (cs : List Char) : Option Nat := do
  let digits ← cs.mapM hexValue?
  if 1 ≤ digits.length ∧ digits.length ≤ 4 then some (digits.foldl (16 * · + ·) 0) else none

/-- Groups between colons, of which the last may be four octets. -/
def readGroups? : List (List Char) → Option (List Nat)
  | [] => some []
  | [last] =>
    match readGroup? last with
    | some g => some [g]
    | none =>
      match readFour? last with
      | some [a, b, c, d] => some [a * 256 + b, c * 256 + d]
      | _ => none
  | g :: gs => do return (← readGroup? g) :: (← readGroups? gs)

def readSide? (cs : List Char) : Option (List Nat) := if cs = [] then some [] else readGroups? (cs.splitOn ':')

/-- Splits at the first `::`. -/
def splitGap : List Char → Option (List Char × List Char)
  | ':' :: ':' :: rest => some ([], rest)
  | c :: cs => (splitGap cs).map fun (left, right) => (c :: left, right)
  | [] => none

def readSix? (cs : List Char) : Option (List Nat) :=
  match splitGap cs with
  | none => do
    let groups ← readGroups? (cs.splitOn ':')
    if groups.length = 8 then some groups else none
  | some (left, right) => do
    let left ← readSide? left
    let right ← readSide? right
    if left.length + right.length ≤ 7 then
      some (left ++ List.replicate (8 - left.length - right.length) 0 ++ right)
    else none

end IpAddress

namespace SocketAddress

def text (a : SocketAddress) : String :=
  match a.ip with
  | .four _ => a.ip.text ++ ":" ++ a.port.repr
  | .six _ =>
    let scope := if a.scope = 0 then "" else "%" ++ a.scope.repr
    "[" ++ a.ip.text ++ scope ++ "]:" ++ a.port.repr

def readPort? (cs : List Char) : Option Nat := do
  let n ← Number.readNatural? cs
  if n < 0x10000 then some n else none

/-- The last colon of an address parts the port from the rest. -/
def splitPort? (cs : List Char) : Option (List Char × Nat) := do
  let parts := cs.splitOn ':'
  let port ← readPort? (← parts.getLast?)
  if 2 ≤ parts.length then some ([':'].intercalate parts.dropLast, port) else none

def readScope? (cs : List Char) : Option Nat := do
  let n ← Number.readNatural? cs
  if n < 0x100000000 then some n else none

def read? (s : String) : Option SocketAddress := do
  let (host, port) ← splitPort? s.toList
  match host with
  | '[' :: rest =>
    if rest.getLast? ≠ some ']' then none
    else
      match rest.dropLast.splitOn '%' with
      | [groups] => return ⟨.six (← IpAddress.readSix? groups), port, 0⟩
      | [groups, scope] => return ⟨.six (← IpAddress.readSix? groups), port, ← readScope? scope⟩
      | _ => none
  | _ => return ⟨.four (← IpAddress.readFour? host), port, 0⟩

end SocketAddress

end ResourceWatch
