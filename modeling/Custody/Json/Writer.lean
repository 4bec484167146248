import Custody.Json.Document
import Custody.Text.Hex

/-!
# Writing JSON

Three texts of a value or document, all without any choice left.  The compact text keeps the
order of members and the kinds of numbers.  The canonical text of a value is compact, with
members in the order of their keys and doubles written as integers where nothing is lost: hashes
are taken of it, and bundles are exported in it.  The indented text is for reading.
-/

namespace Custody

namespace Text

/-- A character inside a JSON string: quotes, backslashes and control characters are escaped, and
nothing else is. -/
def jsonEscape (c : Char) : List Char :=
  if c = '"' then ['\\', '"']
  else if c = '\\' then ['\\', '\\']
  else if c = '\x08' then ['\\', 'b']
  else if c = '\x0c' then ['\\', 'f']
  else if c = '\n' then ['\\', 'n']
  else if c = '\r' then ['\\', 'r']
  else if c = '\t' then ['\\', 't']
  else if c.toNat < 0x20 then
    ['\\', 'u', '0', '0', hexDigit (c.toNat / 16), hexDigit (c.toNat % 16)]
  else [c]

def jsonString (s : String) : List Char :=
  '"' :: (s.toList.flatMap jsonEscape ++ ['"'])

end Text

namespace Document

mutual
/-- The document without white space, its numbers written by `number`.  What has no text of its
own is left out. -/
def write (number : Number → List Char) : Document → List Char
  | .null => ['n', 'u', 'l', 'l']
  | .bool true => ['t', 'r', 'u', 'e']
  | .bool false => ['f', 'a', 'l', 's', 'e']
  | .num n => number n
  | .str s => Text.jsonString s
  | .arr [] _ => ['[', ']']
  | .arr (item :: rest) _ => '[' :: (item.write number ++ (writeItems number rest ++ [']']))
  | .obj [] _ => ['{', '}']
  | .obj ((key, member) :: rest) _ =>
    '{' :: (Text.jsonString key ++
      ':' :: (member.write number ++ (writeFields number rest ++ ['}'])))
  | .unreadable => []
  | .broken => []
/-- All items but the first, a comma before each. -/
def writeItems (number : Number → List Char) : List Document → List Char
  | [] => []
  | item :: rest => ',' :: (item.write number ++ writeItems number rest)
/-- All members but the first, a comma before each. -/
def writeFields (number : Number → List Char) : List (String × Document) → List Char
  | [] => []
  | (key, member) :: rest =>
    ',' :: (Text.jsonString key ++ ':' :: (member.write number ++ writeFields number rest))
end

def compact (d : Document) : String := String.ofList (d.write Number.text)

/-- A new line, indented by so many levels. -/
def newLine (level : Nat) : List Char := '\n' :: List.replicate (2 * level) ' '

mutual
/-- The document with a line for each item and member, indented by two blanks a level. -/
def writeIndented (level : Nat) : Document → List Char
  | .arr [] _ => ['[', ']']
  | .arr (item :: rest) _ =>
    '[' :: (newLine (level + 1) ++ (item.writeIndented (level + 1) ++
      (writeIndentedItems (level + 1) rest ++ (newLine level ++ [']']))))
  | .obj [] _ => ['{', '}']
  | .obj ((key, member) :: rest) _ =>
    '{' :: (newLine (level + 1) ++ (Text.jsonString key ++ ':' :: ' ' ::
      (member.writeIndented (level + 1) ++
        (writeIndentedFields (level + 1) rest ++ (newLine level ++ ['}'])))))
  | d => d.write Number.text
/-- All items but the first, each on a line of its own. -/
def writeIndentedItems (level : Nat) : List Document → List Char
  | [] => []
  | item :: rest =>
    ',' :: (newLine level ++ (item.writeIndented level ++ writeIndentedItems level rest))
/-- All members but the first, each on a line of its own. -/
def writeIndentedFields (level : Nat) : List (String × Document) → List Char
  | [] => []
  | (key, member) :: rest =>
    ',' :: (newLine level ++ (Text.jsonString key ++ ':' :: ' ' ::
      (member.writeIndented level ++ writeIndentedFields level rest)))
end

def indented (d : Document) : String := String.ofList (d.writeIndented 0)

end Document

namespace Json

def canonical (v : Json) : String :=
  String.ofList ((Document.ofJson v).write Number.canonicalText)

def compact (v : Json) : String := (Document.ofJson v).compact

end Json

end Custody
