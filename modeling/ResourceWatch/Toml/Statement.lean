import ResourceWatch.Toml.Scalar

/-!
# TOML statements

A TOML text is a sequence of statements, at most one on a line: a key with its value, a header, or a repeated header.
Values in quotes, brackets and braces are read here.  Every reader gives what it read and the rest of the text, and
takes a bound on its depth that the length of the text provides.
-/

namespace ResourceWatch.Toml

inductive Statement where
  | entry (path : List String) (value : Toml)
  | header (path : List String)
  | repeatedHeader (path : List String)
deriving Repr

/-! ### Blanks, line ends and comments -/

def isBlank (c : Char) : Bool := c == ' ' || c == '\t'

def skipBlanks (cs : List Char) : List Char := cs.dropWhile isBlank

/-- Behind a line end. -/
def lineEnd? : List Char → Option (List Char)
  | '\n' :: rest => some rest
  | '\r' :: '\n' :: rest => some rest
  | _ => none

/-- Control characters, the tab excepted, may not stand in comments or strings. -/
def isControl (c : Char) : Bool := (c.toNat < 0x20 && c != '\t') || c.toNat == 0x7f

/-- Skips a comment, if there is one. -/
def skipComment : List Char → List Char
  | '#' :: rest => rest.dropWhile fun c => !isControl c
  | cs => cs

/-- Skips blanks and a comment up to the end of the line or of the text. -/
def endLine? (cs : List Char) : Option (List Char) :=
  match skipComment (skipBlanks cs) with
  | [] => some []
  | rest => lineEnd? rest

/-- Skips blanks, line ends and comments. -/
def skipTrivia : Nat → List Char → List Char
  | 0, cs => cs
  | n + 1, cs =>
    match lineEnd? (skipComment (skipBlanks cs)) with
    | some rest => skipTrivia n rest
    | none => skipBlanks cs

/-! ### Strings -/

def isSurrogate (n : Nat) : Bool := 0xd800 ≤ n && n < 0xe000

/-- The character of a code point in hexadecimal. -/
def codePoint? (digits : List Char) : Option Char :=
  let n := inBase 16 digits
  if digits.all isHexDigit && n < 0x110000 && !isSurrogate n then some (Char.ofNat n) else none

/-- Reads what follows a backslash. -/
def escape? : List Char → Option (Char × List Char)
  | 'b' :: rest => some ('\x08', rest)
  | 't' :: rest => some ('\t', rest)
  | 'n' :: rest => some ('\n', rest)
  | 'f' :: rest => some ('\x0c', rest)
  | 'r' :: rest => some ('\r', rest)
  | '"' :: rest => some ('"', rest)
  | '\\' :: rest => some ('\\', rest)
  | 'u' :: rest => if rest.length < 4 then none else (codePoint? (rest.take 4)).map fun c => (c, rest.drop 4)
  | 'U' :: rest => if rest.length < 8 then none else (codePoint? (rest.take 8)).map fun c => (c, rest.drop 8)
  | _ => none

def consFirst {β : Type} (c : Char) (r : List Char × β) : List Char × β := (c :: r.1, r.2)

/-- The rest of a string in double quotes. -/
def basicString? : Nat → List Char → Option (List Char × List Char)
  | 0, _ => none
  | n + 1, cs =>
    match cs with
    | '"' :: rest => some ([], rest)
    | '\\' :: rest => do
      let (c, rest) ← escape? rest
      return consFirst c (← basicString? n rest)
    | c :: rest => if isControl c then none else (basicString? n rest).map (consFirst c)
    | [] => none

/-- The rest of a string in single quotes. -/
def literalString? (cs : List Char) : Option (List Char × List Char) :=
  let body := cs.takeWhile fun c => c != '\'' && !isControl c
  match cs.drop body.length with
  | '\'' :: rest => some (body, rest)
  | _ => none

/-- Up to two quotes may stand before the three that close a string over several lines. -/
def closing (quote : Char) (rest : List Char) : List Char × List Char :=
  let extra := (rest.take 2).takeWhile (· == quote)
  (extra, rest.drop extra.length)

/-- Skips blanks and line ends. -/
def skipLines : List Char → List Char
  | ' ' :: cs | '\t' :: cs | '\n' :: cs | '\r' :: '\n' :: cs => skipLines cs
  | cs => cs

/-- Reads what follows a backslash at the end of a line: it skips all blanks and line ends behind it. -/
def lineContinuation? (rest : List Char) : Option (List Char) := (lineEnd? (skipBlanks rest)).map skipLines

/-- The rest of a string over several lines: with escapes in double quotes, as it is in single ones. -/
def longString? (quote : Char) : Nat → List Char → Option (List Char × List Char)
  | 0, _ => none
  | n + 1, cs =>
    match cs with
    | [] => none
    | c :: rest =>
      if c = quote ∧ rest.take 2 = [quote, quote] then some (closing quote (rest.drop 2))
      else if c = '\\' ∧ quote = '"' then
        match lineContinuation? rest with
        | some next => longString? quote n next
        | none => do
          let (e, rest) ← escape? rest
          return consFirst e (← longString? quote n rest)
      else
        match lineEnd? cs with
        | some next => (longString? quote n next).map (consFirst '\n')
        | none => if isControl c then none else (longString? quote n rest).map (consFirst c)

/-- A line end right behind the opening quotes does not count. -/
def openLong (cs : List Char) : List Char := (lineEnd? cs).getD cs

/-- A string of one line. -/
def shortString? (cs : List Char) : Option (List Char × List Char) :=
  match cs with
  | '"' :: rest => basicString? (cs.length + 1) rest
  | '\'' :: rest => literalString? rest
  | _ => none

def string? (cs : List Char) : Option (List Char × List Char) :=
  match cs with
  | '"' :: '"' :: '"' :: rest => longString? '"' (cs.length + 1) (openLong rest)
  | '\'' :: '\'' :: '\'' :: rest => longString? '\'' (cs.length + 1) (openLong rest)
  | _ => shortString? cs

/-! ### Keys -/

def isBareKeyChar (c : Char) : Bool := Text.isIdentRest c || c == '-'

def simpleKey? (cs : List Char) : Option (String × List Char) :=
  match cs with
  | '"' :: _ | '\'' :: _ => (shortString? cs).map fun r => (String.ofList r.1, r.2)
  | _ =>
    let key := cs.takeWhile isBareKeyChar
    if key = [] then none else some (String.ofList key, cs.drop key.length)

/-- At most so many keys may be joined by dots, and arrays and inline tables nest at most so deep. -/
def depthLimit : Nat := 79

/-- At most `n` keys with dots between them; blanks around them are skipped. -/
def keys? : Nat → List Char → Option (List String × List Char)
  | 0, _ => none
  | n + 1, cs => do
    let (key, rest) ← simpleKey? (skipBlanks cs)
    match skipBlanks rest with
    | '.' :: rest =>
      let (path, rest) ← keys? n rest
      return (key :: path, rest)
    | rest => return ([key], rest)

def key? (cs : List Char) : Option (List String × List Char) := keys? depthLimit cs

/-! ### Values -/

mutual

/-- A value that nests at most `depth` deep. -/
def value? : Nat → Nat → List Char → Option (Toml × List Char)
  | 0, _, _ => none
  | n + 1, depth, cs =>
    match cs, depth with
    | '"' :: _, _ | '\'' :: _, _ => (string? cs).map fun r => (.string (String.ofList r.1), r.2)
    | '[' :: rest, depth + 1 => (array? n depth rest).map fun r => (.array r.1, r.2)
    | '\x7b' :: rest, depth + 1 => (inlineTable? n depth true [] rest).map fun r => (.table .inlined r.1, r.2)
    | _, _ =>
      let (word, rest) := takeWord cs
      (word? word).map fun v => (v, rest)

/-- The rest of an array; a comma may stand behind the last item. -/
def array? : Nat → Nat → List Char → Option (List Toml × List Char)
  | 0, _, _ => none
  | n + 1, depth, cs =>
    match skipTrivia cs.length cs with
    | ']' :: rest => some ([], rest)
    | cs => do
      let (item, rest) ← value? n depth cs
      match skipTrivia rest.length rest with
      | ',' :: rest => (array? n depth rest).map fun r => (item :: r.1, r.2)
      | ']' :: rest => some ([item], rest)
      | _ => none

/-- The rest of an inline table with the entries so far; only an empty one may close where an entry is due. -/
def inlineTable? : Nat → Nat → Bool → Entries → List Char → Option (Entries × List Char)
  | 0, _, _, _, _ => none
  | n + 1, depth, mayClose, es, cs =>
    match mayClose, skipBlanks cs with
    | true, '\x7d' :: rest => some (es, rest)
    | _, cs =>
      match key? cs with
      | some (path, '=' :: rest) => do
        let (value, rest) ← value? n depth (skipBlanks rest)
        let es ← insertDotted path value .headed es
        match skipBlanks rest with
        | ',' :: rest => inlineTable? n depth false es rest
        | '\x7d' :: rest => some (es, rest)
        | _ => none
      | _ => none

end

/-! ### Statements -/

def entry? (cs : List Char) : Option (Statement × List Char) :=
  match key? cs with
  | some (path, '=' :: rest) =>
    (value? (rest.length + 1) depthLimit (skipBlanks rest)).map fun r => (.entry path r.1, r.2)
  | _ => none

def header? : List Char → Option (Statement × List Char)
  | '[' :: '[' :: cs =>
    match key? cs with
    | some (path, ']' :: ']' :: rest) => some (.repeatedHeader path, rest)
    | _ => none
  | '[' :: cs =>
    match key? cs with
    | some (path, ']' :: rest) => some (.header path, rest)
    | _ => none
  | _ => none

/-- The statements of a text; none if a line holds something else. -/
def statements? : Nat → List Char → Option (List Statement)
  | 0, _ => none
  | n + 1, cs =>
    let cs := skipTrivia cs.length cs
    if skipComment cs = [] then some []
    else do
      let (s, rest) ← header? cs <|> entry? cs
      return s :: (← statements? n (← endLine? rest))

/-- A byte order mark in front is skipped. -/
def skipMark : List Char → List Char
  | '\ufeff' :: cs => cs
  | cs => cs

def statementsOf? (text : String) : Option (List Statement) :=
  let cs := skipMark text.toList
  statements? (cs.length + 1) cs

end ResourceWatch.Toml
