import ResourceWatch.Text.Hidden

/-!
# Quoted text

A quotation stands in double quotes.  Tab, line feed, carriage return, zero, quote and backslash are written with a
backslash; every other hidden character is written by its code point in hexadecimal, and all else as it is.
-/

namespace ResourceWatch.Text

def hexDigits (n : Nat) : List Char := Nat.toDigits 16 n

/-- How one character is written inside a quotation. -/
def quoteChar (c : Char) : List Char :=
  if c = '\t' then ['\\', 't']
  else if c = '\n' then ['\\', 'n']
  else if c = '\r' then ['\\', 'r']
  else if c = '\x00' then ['\\', '0']
  else if c = '"' then ['\\', '"']
  else if c = '\\' then ['\\', '\\']
  else if isHidden c then '\\' :: 'u' :: '\x7b' :: hexDigits c.toNat ++ ['\x7d']
  else [c]

def quote (s : String) : String :=
  String.ofList ('"' :: s.toList.flatMap quoteChar ++ ['"'])

end ResourceWatch.Text
