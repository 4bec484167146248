import Custody.Text.Hex

/-!
# Lexical elements of TOML

Blanks, comments, ends of lines, and the four kinds of strings.  Each reader takes the characters
from one place on and gives what it read and the characters after it, or nothing if they are not in
order.
-/

namespace Custody.Toml

def isBlank (c : Char) : Bool := c = ' ' || c = '\t'

def skipBlanks (cs : List Char) : List Char := cs.dropWhile isBlank

/-- Whether a character may stand in a comment: no control character but the tabulator may. -/
def isPlain (c : Char) : Bool :=
  c = '\t' || (0x20 ≤ c.toNat && c.toNat ≤ 0x7e) || 0x80 ≤ c.toNat

def newLine? : List Char → Option (List Char)
  | '\n' :: rest => some rest
  | '\r' :: '\n' :: rest => some rest
  | _ => none

/-- The text after the rest of a line that holds at most blanks and a comment. -/
def endLine? (cs : List Char) : Option (List Char) :=
  let rest :=
    match skipBlanks cs with
    | '#' :: rest => rest.dropWhile isPlain
    | rest => rest
  if rest.isEmpty then some [] else newLine? rest

/-- The text after blanks, ends of lines and comments.  `comment` tells whether a comment is being
passed over. -/
def skipFiller (comment : Bool) : List Char → List Char
  | [] => []
  | '\n' :: rest => skipFiller false rest
  | '\r' :: '\n' :: rest => skipFiller false rest
  | c :: rest =>
    if comment then if isPlain c then skipFiller true rest else c :: rest
    else if c = '#' then skipFiller true rest
    else if isBlank c then skipFiller false rest
    else c :: rest

/-- The character with this code point. -/
def charOfCode? (n : Nat) : Option Char :=
  if n.isValidChar then some (Char.ofNat n) else none

def charOfHex? (digits : List Char) : Option Char :=
  (digits.foldl (fun n? c =>
    match n?, Text.hexValue? c.toNat with
    | some n, some d => some (16 * n + d)
    | _, _ => none) (some 0)).bind charOfCode?

def simpleEscape? : Char → Option Char
  | 'b' => some '\x08'
  | 't' => some '\t'
  | 'n' => some '\n'
  | 'f' => some '\x0c'
  | 'r' => some '\r'
  | '"' => some '"'
  | '\\' => some '\\'
  | _ => none

def basicString? : List Char → Option (List Char × List Char)
  | [] => none
  | '"' :: rest => some ([], rest)
  | '\\' :: 'u' :: a :: b :: c :: d :: rest =>
    match charOfHex? [a, b, c, d], basicString? rest with
    | some char, some (text, after) => some (char :: text, after)
    | _, _ => none
  | '\\' :: 'U' :: a :: b :: c :: d :: e :: f :: g :: h :: rest =>
    match charOfHex? [a, b, c, d, e, f, g, h], basicString? rest with
    | some char, some (text, after) => some (char :: text, after)
    | _, _ => none
  | '\\' :: e :: rest =>
    match simpleEscape? e, basicString? rest with
    | some char, some (text, after) => some (char :: text, after)
    | _, _ => none
  | c :: rest =>
    if isPlain c && c ≠ '\\' then (basicString? rest).map fun (text, after) => (c :: text, after)
    else none

/-- Whether the line ends after a backslash, so that it and the blanks of the next lines count for
nothing. -/
def endsLine (cs : List Char) : Bool := (newLine? (skipBlanks cs)).isSome

/-- A string of several lines with escapes, from somewhere after its opening quotes on.  `trim`
tells whether blanks and ends of lines are being passed over.  Up to two quotes may stand before the
closing ones. -/
def longBasicString? (trim : Bool) : List Char → Option (List Char × List Char)
  | [] => none
  | '"' :: '"' :: '"' :: '"' :: '"' :: rest => some (['"', '"'], rest)
  | '"' :: '"' :: '"' :: '"' :: rest => some (['"'], rest)
  | '"' :: '"' :: '"' :: rest => some ([], rest)
  | '\\' :: 'u' :: a :: b :: c :: d :: rest =>
    match charOfHex? [a, b, c, d], longBasicString? false rest with
    | some char, some (text, after) => some (char :: text, after)
    | _, _ => none
  | '\\' :: 'U' :: a :: b :: c :: d :: e :: f :: g :: h :: rest =>
    match charOfHex? [a, b, c, d, e, f, g, h], longBasicString? false rest with
    | some char, some (text, after) => some (char :: text, after)
    | _, _ => none
  | '\\' :: e :: rest =>
    if endsLine (e :: rest) then longBasicString? true (e :: rest)
    else
      match simpleEscape? e, longBasicString? false rest with
      | some char, some (text, after) => some (char :: text, after)
      | _, _ => none
  | '\r' :: '\n' :: rest =>
    if trim then longBasicString? true rest
    else (longBasicString? false rest).map fun (text, after) => ('\n' :: text, after)
  | '\n' :: rest =>
    if trim then longBasicString? true rest
    else (longBasicString? false rest).map fun (text, after) => ('\n' :: text, after)
  | c :: rest =>
    if trim && isBlank c then longBasicString? true rest
    else if isPlain c && c ≠ '\\' then
      (longBasicString? false rest).map fun (text, after) => (c :: text, after)
    else none

def literalString? (cs : List Char) : Option (List Char × List Char) :=
  let isInside (c : Char) : Bool := isPlain c && c ≠ '\''
  match cs.dropWhile isInside with
  | '\'' :: rest => some (cs.takeWhile isInside, rest)
  | _ => none

/-- A string of several lines without escapes, from somewhere after its opening quotes on. -/
def longLiteralString? : List Char → Option (List Char × List Char)
  | [] => none
  | '\'' :: '\'' :: '\'' :: '\'' :: '\'' :: rest => some (['\'', '\''], rest)
  | '\'' :: '\'' :: '\'' :: '\'' :: rest => some (['\''], rest)
  | '\'' :: '\'' :: '\'' :: rest => some ([], rest)
  | '\r' :: '\n' :: rest =>
    (longLiteralString? rest).map fun (text, after) => ('\n' :: text, after)
  | c :: rest =>
    if isPlain c || c = '\n' then
      (longLiteralString? rest).map fun (text, after) => (c :: text, after)
    else none

/-- The text without the end of a line at its start, if there is one. -/
def dropNewLine (cs : List Char) : List Char := (newLine? cs).getD cs

/-- A string of any kind, with its quotes. -/
def string? : List Char → Option (List Char × List Char)
  | '"' :: '"' :: '"' :: rest => longBasicString? false (dropNewLine rest)
  | '"' :: rest => basicString? rest
  | '\'' :: '\'' :: '\'' :: rest => longLiteralString? (dropNewLine rest)
  | '\'' :: rest => literalString? rest
  | _ => none

end Custody.Toml
