import Custody.Json.Document
import Custody.Text.Digits
import Custody.Text.Hex

/-!
# Reading JSON

From characters to a document.  Reading never fails: where the text is not JSON the document is
broken, and nothing after that place is looked at.  Reading a value takes a document that is whole,
ends the text but for white space, and is not nested too deep.

Each call of the three functions that read a value, the items of an array and the members of an
object has one unit of fuel less than its caller, and between two calls of one function a character
is consumed; `Document.read` starts with enough.
-/

namespace Custody

namespace Text

/-- White space in JSON: blank, tabulator, line feed and carriage return. -/
def isJsonSpace (c : Char) : Bool :=
  c = ' ' || c = '\t' || c = '\n' || c = '\r'

def skipSpace (cs : List Char) : List Char := cs.dropWhile isJsonSpace

/-- What one piece of a string stands for: a character, or a 16-bit unit given by its number. -/
inductive Piece where
  | char (c : Char)
  | unit (n : Nat)

def hexUnit? (a b c d : Char) : Option Nat :=
  match hexValue? a.toNat, hexValue? b.toNat, hexValue? c.toNat, hexValue? d.toNat with
  | some a, some b, some c, some d => some (4096 * a + 256 * b + 16 * c + d)
  | _, _, _, _ => none

def simpleEscape? : Char → Option Char
  | '"' => some '"'
  | '\\' => some '\\'
  | '/' => some '/'
  | 'b' => some '\x08'
  | 'f' => some '\x0c'
  | 'n' => some '\n'
  | 'r' => some '\r'
  | 't' => some '\t'
  | _ => none

/-- The pieces of a string whose opening quote has been read, and the text after its closing quote.
There are none if the string never ends, or holds a raw control character or a bad escape. -/
def readPieces? : List Char → Option (List Piece × List Char)
  | [] => none
  | '"' :: rest => some ([], rest)
  | '\\' :: 'u' :: a :: b :: c :: d :: rest =>
    match hexUnit? a b c d with
    | none => none
    | some n => (readPieces? rest).map fun (pieces, after) => (.unit n :: pieces, after)
  | '\\' :: e :: rest =>
    match simpleEscape? e with
    | none => none
    | some c => (readPieces? rest).map fun (pieces, after) => (.char c :: pieces, after)
  | c :: rest =>
    if c.toNat < 0x20 ∨ c = '\\' then none
    else (readPieces? rest).map fun (pieces, after) => (.char c :: pieces, after)

def isHighSurrogate (n : Nat) : Bool := 0xd800 ≤ n && n < 0xdc00

def isLowSurrogate (n : Nat) : Bool := 0xdc00 ≤ n && n < 0xe000

/-- The characters of a string, unless a surrogate stands without its other half. -/
def joinPieces? : List Piece → Option (List Char)
  | [] => some []
  | .char c :: rest => (joinPieces? rest).map (c :: ·)
  | .unit high :: .unit low :: rest =>
    if isHighSurrogate high then
      if isLowSurrogate low then
        (joinPieces? rest).map (Char.ofNat (0x10000 + 1024 * (high - 0xd800) + (low - 0xdc00)) :: ·)
      else none
    else if isLowSurrogate high then none
    else (joinPieces? (.unit low :: rest)).map (Char.ofNat high :: ·)
  | .unit n :: rest =>
    if isHighSurrogate n || isLowSurrogate n then none
    else (joinPieces? rest).map (Char.ofNat n :: ·)

end Text

namespace Number

open Decimal (Double Scientific)

/-- The number that a decimal text with a point or an exponent stands for: the nearest double. -/
def ofScientific? (negative : Bool) (d : Scientific) : Option Number :=
  d.nearest?.map fun x => .float ⟨negative, x⟩

/-- The number that a sequence of digits stands for: an integer if it fits, else the nearest
double.  Zero with a sign is a double. -/
def ofDigits? (negative : Bool) (n : Nat) : Option Number :=
  if negative && n = 0 then some (.float ⟨true, .zero⟩)
  else
    match Integer.ofInt? (if negative then -(n : Int) else n) with
    | some i => some (.int i)
    | none => ofScientific? negative ⟨n, 0⟩

/-- The fraction of a number and the text after it: no digits if there is no point. -/
def readFraction? : List Char → Option (List Char × List Char)
  | '.' :: rest =>
    let digits := rest.takeWhile Char.isDigit
    if digits.isEmpty then none else some (digits, rest.dropWhile Char.isDigit)
  | rest => some ([], rest)

def readExponentDigits? (negative : Bool) (cs : List Char) : Option (Option Int × List Char) :=
  let digits := cs.takeWhile Char.isDigit
  if digits.isEmpty then none
  else
    let n : Int := Text.digitsValue digits
    some (some (if negative then -n else n), cs.dropWhile Char.isDigit)

/-- The exponent of a number, if it has one, and the text after it. -/
def readExponent? : List Char → Option (Option Int × List Char)
  | c :: rest =>
    if c = 'e' ∨ c = 'E' then
      match rest with
      | '+' :: digits => readExponentDigits? false digits
      | '-' :: digits => readExponentDigits? true digits
      | digits => readExponentDigits? false digits
    else some (none, c :: rest)
  | [] => some (none, [])

/-- The whole part of a number: digits without a needless zero before them. -/
def readWhole? (cs : List Char) : Option (List Char × List Char) :=
  match cs.takeWhile Char.isDigit with
  | [] => none
  | ['0'] => some (['0'], cs.dropWhile Char.isDigit)
  | '0' :: _ => none
  | digits => some (digits, cs.dropWhile Char.isDigit)

/-- A number without its sign, as a document, and the text after it. -/
def readUnsigned (negative : Bool) (cs : List Char) : Document × List Char :=
  match readWhole? cs with
  | none => (.broken, [])
  | some (whole, rest) =>
    match readFraction? rest with
    | none => (.broken, [])
    | some (fraction, rest) =>
      match readExponent? rest with
      | none => (.broken, [])
      | some (exponent, rest) =>
        let number? :=
          if fraction.isEmpty && exponent.isNone then
            ofDigits? negative (Text.digitsValue whole)
          else
            ofScientific? negative
              ⟨Text.digitsValue (whole ++ fraction), exponent.getD 0 - fraction.length⟩
        (match number? with
         | some n => .num n
         | none => .unreadable, rest)

end Number

namespace Document

/-- A string whose opening quote has been read, as a document, and the text after it. -/
def readString (cs : List Char) : Document × List Char :=
  match Text.readPieces? cs with
  | none => (.broken, [])
  | some (pieces, rest) =>
    match Text.joinPieces? pieces with
    | some chars => (.str (String.ofList chars), rest)
    | none => (.unreadable, rest)

/-- A document that opens no array or object, and the text after it. -/
def readLeaf : List Char → Document × List Char
  | 'n' :: 'u' :: 'l' :: 'l' :: rest => (.null, rest)
  | 't' :: 'r' :: 'u' :: 'e' :: rest => (.bool true, rest)
  | 'f' :: 'a' :: 'l' :: 's' :: 'e' :: rest => (.bool false, rest)
  | '"' :: rest => readString rest
  | '-' :: rest => Number.readUnsigned true rest
  | cs => Number.readUnsigned false cs

/-- The name of a member and the text after it.  There is no name in place of a string without a
value, and nothing at all where no string stands. -/
def readName? (cs : List Char) : Option (Option String × List Char) :=
  match Text.skipSpace cs with
  | '"' :: rest =>
    match readString rest with
    | (.str name, rest) => some (some name, rest)
    | (.unreadable, rest) => some (none, rest)
    | _ => none
  | _ => none

/-- Puts a member before all that is read of an object after it.  One without a name ends what can
be told of the object, but for whether the rest is well formed. -/
def consMember (name : Option String) (member : Document) :
    List (String × Document) × ObjectEnd × List Char →
      List (String × Document) × ObjectEnd × List Char
  | (fields, ending, rest) =>
    match name with
    | some name => ((name, member) :: fields, ending, rest)
    | none =>
      if member.isWhole && fieldsAreWhole fields && ending.isWhole then ([], .unnamed, rest)
      else ([], .broken, [])

mutual
def readValue : Nat → List Char → Document × List Char
  | 0, _ => (.broken, [])
  | fuel + 1, cs =>
    match Text.skipSpace cs with
    | '[' :: rest =>
      match Text.skipSpace rest with
      | ']' :: rest => (.arr [] true, rest)
      | rest =>
        let (items, closed, rest) := readItems fuel rest
        (.arr items closed, rest)
    | '{' :: rest =>
      match Text.skipSpace rest with
      | '}' :: rest => (.obj [] .closed, rest)
      | rest =>
        let (fields, ending, rest) := readFields fuel rest
        (.obj fields ending, rest)
    | cs => readLeaf cs
/-- The items of an array from one of them on, whether its end was met, and the text after it. -/
def readItems : Nat → List Char → List Document × Bool × List Char
  | 0, _ => ([], false, [])
  | fuel + 1, cs =>
    let (item, rest) := readValue fuel cs
    match Text.skipSpace rest with
    | ',' :: rest =>
      let (items, closed, rest) := readItems fuel rest
      (item :: items, closed, rest)
    | ']' :: rest => ([item], true, rest)
    | _ => ([item], false, [])
/-- The members of an object from one of them on, how they end, and the text after the object. -/
def readFields : Nat → List Char → List (String × Document) × ObjectEnd × List Char
  | 0, _ => ([], .broken, [])
  | fuel + 1, cs =>
    match readName? cs with
    | none => ([], .broken, [])
    | some (name, rest) =>
      match Text.skipSpace rest with
      | ':' :: rest =>
        let (member, rest) := readValue fuel rest
        match Text.skipSpace rest with
        | ',' :: rest => consMember name member (readFields fuel rest)
        | '}' :: rest => consMember name member ([], .closed, rest)
        | _ => consMember name member ([], .broken, [])
      | _ => consMember name .broken ([], .broken, [])
end

/-- The document at the start of a text, and whether nothing but white space follows it. -/
def read (cs : List Char) : Document × Bool :=
  let (d, rest) := readValue (2 * cs.length + 2) cs
  (d, (Text.skipSpace rest).isEmpty)

end Document

namespace Json

/-- The value of a text, if it is JSON. -/
def parse? (cs : List Char) : Option Json :=
  match Document.read cs with
  | (d, true) => d.value? .fromText
  | (_, false) => none

end Json

end Custody
