import Custody.Text.Printable

/-!
# Quoted text in diagnostics

Messages and state descriptions show a text between quotes with whatever could not be told apart on
a page written as an escape: the named escapes, then `\u{…}` with the code point in hexadecimal.
-/

namespace Custody.Text

/-- `\u{…}`: the code point of `c` in lower-case hexadecimal, without leading zeros. -/
def codePointEscape (c : Char) : List Char :=
  ['\\', 'u', '\x7b'] ++ Nat.toDigits 16 c.toNat ++ ['\x7d']

/-- The form of `c` between quotes, where `mark` is the quote that must be escaped. -/
def escapeWithin (mark c : Char) : List Char :=
  if c = '\x00' then ['\\', '0']
  else if c = '\t' then ['\\', 't']
  else if c = '\r' then ['\\', 'r']
  else if c = '\n' then ['\\', 'n']
  else if c = '\\' then ['\\', '\\']
  else if c = mark then ['\\', mark]
  else if isPrintable c then [c]
  else codePointEscape c

def quote (s : String) : String :=
  String.ofList ('"' :: s.toList.flatMap (escapeWithin '"') ++ ['"'])

def quoteChar (c : Char) : String :=
  String.ofList ('\'' :: escapeWithin '\'' c ++ ['\''])

end Custody.Text
